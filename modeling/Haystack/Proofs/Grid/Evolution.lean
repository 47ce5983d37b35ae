import Haystack.Proofs.Grid.Admission
import Haystack.Proofs.Grid.Operations
import Haystack.Proofs.Value.Parts

/-!
How a grid changes under checked operations.

Each of them lets a grid evolve: its values fit its version if they did before, a pinned version
stays, and any other one stays or moves up to 3.0. Operations above the rows leave the rows alone.
-/
namespace Haystack

/-! ## Values of changed maps -/

namespace OrderedMap

variable {α : Type} {m : OrderedMap α} {key : String} {value other : α}

theorem mem_values_of_sublist {items : List (String × α)} (fewer : items.Sublist m.items)
    (member : value ∈ (⟨items⟩ : OrderedMap α).values) : value ∈ m.values :=
  (fewer.map (·.2)).subset member

theorem mem_values_insertAt {index : Nat} (member : other ∈ (m.insertAt index key value).values) :
    other = value ∨ other ∈ m.values := by
  rw [values, insertAt, List.map_append, List.mem_append, List.map_cons, List.mem_cons] at member
  rcases member with member | same | member
  · exact .inr (mem_values_of_sublist (List.take_sublist index m.items) member)
  · exact .inl same
  · exact .inr (mem_values_of_sublist (List.drop_sublist index m.items) member)

/-- What is added to a map under a key that it lacks is the only value that is new. -/
theorem mem_values_addItem {position : Position} {added : OrderedMap α}
    (isAdded : m.addItem key value position false = .ok added) (member : other ∈ added.values) :
    other = value ∨ other ∈ m.values := by
  unfold addItem at isAdded
  split at isAdded
  · exact nomatch isAdded
  · split at isAdded
    · split at isAdded <;>
      · obtain rfl := Except.ok.inj isAdded
        exact mem_values_insertAt member
    · simp at isAdded

theorem mem_values_foldl_insert {items : List (String × α)}
    (member : other ∈ (items.foldl (fun m item => m.insert item.1 item.2) m).values) :
    other ∈ items.map (·.2) ∨ other ∈ m.values := by
  induction items generalizing m with
  | nil => exact .inr member
  | cons item rest ih =>
      rcases ih member with member | member
      · exact .inl (List.mem_cons_of_mem _ member)
      · refine (mem_values_insert member).imp_left ?_
        rintro rfl
        exact List.mem_cons_self

theorem mem_values_ofList {items : List (String × α)} (member : other ∈ (ofList items).values) :
    other ∈ items.map (·.2) := by
  rcases mem_values_foldl_insert member with member | member
  · exact member
  · exact nomatch member

end OrderedMap

/-! ## Values that fit -/

namespace GridOf

/-- Every value of a grid fits its version. -/
def Within (grid : Grid) : Prop := ∀ value ∈ grid.values, value.fits grid.version = true

variable {grid after : Grid} {version : Version} {α : Type}

theorem within_iff : grid.Within ↔
    (∀ value ∈ grid.metadata.values, value.fits grid.version = true) ∧
    (∀ held ∈ grid.columns.values, ∀ value ∈ held.values, value.fits grid.version = true) ∧
    ∀ row ∈ grid.rows, ∀ value ∈ row.values, value.fits grid.version = true := forall_mem_values

/-- What a checked operation makes of a grid. -/
structure Evolves (before after : Grid) : Prop where
  pinned : after.pinned = before.pinned
  raises : before.Raises after.version
  within : before.Within → after.Within

theorem Evolves.refl (grid : Grid) : grid.Evolves grid := ⟨rfl, .inl rfl, id⟩

theorem Evolves.trans {last : Grid} (first : grid.Evolves after) (second : after.Evolves last) :
    grid.Evolves last where
  pinned := second.pinned.trans first.pinned
  raises := by
    have further := second.raises
    rw [Raises, first.pinned] at further
    exact first.raises.trans further
  within := second.within ∘ first.within

theorem evolves_raised (raises : grid.Raises version) : grid.Evolves { grid with version } where
  pinned := rfl
  raises := raises
  within := fun within value member => raises.fits (within value member)

/-- One edit after another, the second of which is skipped if the first is refused. -/
theorem Evolves.bind {first : Edit Unit} {next : Edit α}
    (step : grid.Evolves (first.apply grid).2)
    (further : ∀ middle : Grid, middle.Evolves (next.apply middle).2) :
    grid.Evolves ((first >>= fun _ => next).apply grid).2 := by
  generalize applied : first.apply grid = result at step
  obtain ⟨outcome, middle⟩ := result
  cases outcome with
  | error refusal =>
      rw [Edit.apply_bind_error applied]
      exact step
  | ok _ =>
      rw [Edit.apply_bind applied]
      exact step.trans (further middle)

/-- A check of values before a change under which grids that they fit evolve. -/
theorem Checked.evolves {first : Edit Unit} {next : Edit α} {values : List Value}
    (checked : Checked grid values (first.apply grid))
    (step : ∀ middle : Grid, (∀ value ∈ values, value.fits middle.version = true) →
      middle.Evolves (next.apply middle).2) :
    grid.Evolves ((first >>= fun _ => next).apply grid).2 :=
  checked.cases_bind
    (fun version raises fits => (evolves_raised raises).trans (step { grid with version } fits))
    fun _ raises => evolves_raised raises

/-! ## Parts of a grid -/

theorem evolves_of_metadata {metadata : Metadata}
    (fits : grid.Within → ∀ value ∈ metadata.values, value.fits grid.version = true) :
    grid.Evolves { grid with metadata } where
  pinned := rfl
  raises := .inl rfl
  within := fun within => within_iff.mpr ⟨fits within, (within_iff.mp within).2⟩

theorem evolves_of_columns {columns : Columns} (fits : grid.Within →
    ∀ held ∈ columns.values, ∀ value ∈ held.values, value.fits grid.version = true) :
    grid.Evolves { grid with columns } where
  pinned := rfl
  raises := .inl rfl
  within := fun within =>
    within_iff.mpr ⟨(within_iff.mp within).1, fits within, (within_iff.mp within).2.2⟩

theorem evolves_of_rows {rows : List Entity} (fits : grid.Within →
    ∀ row ∈ rows, ∀ value ∈ row.values, value.fits grid.version = true) :
    grid.Evolves (grid.withRows rows) where
  pinned := rfl
  raises := .inl rfl
  within := fun within =>
    within_iff.mpr ⟨(within_iff.mp within).1, (within_iff.mp within).2.1, fits within⟩

theorem evolves_of_fewer_columns {columns : Columns}
    (fewer : ∀ held ∈ columns.values, held = .empty ∨ held ∈ grid.columns.values) :
    grid.Evolves { grid with columns } :=
  evolves_of_columns fun within held member value inside => by
    rcases fewer held member with rfl | old
    · exact nomatch inside
    · exact (within_iff.mp within).2.1 held old value inside

theorem evolves_of_fewer_rows {rows : List Entity} (fewer : ∀ row ∈ rows, row ∈ grid.rows) :
    grid.Evolves (grid.withRows rows) :=
  evolves_of_rows fun within row member => (within_iff.mp within).2.2 row (fewer row member)

/-! ## Checked changes -/

theorem evolves_setMeta (key : String) (value : Value) :
    grid.Evolves ((setMeta key value).apply grid).2 :=
  (checked_check value grid).evolves fun _ fits => evolves_of_metadata fun within other member => by
    rcases OrderedMap.mem_values_insert member with rfl | old
    · exact fits other (by simp)
    · exact (within_iff.mp within).1 other old

theorem evolves_setMetadata (metadata : Metadata) :
    grid.Evolves ((setMetadata metadata).apply grid).2 :=
  (checked_checkAll metadata.values grid).evolves fun _ fits => evolves_of_metadata fun _ => fits

theorem evolves_addColumnAt (name : String) (metadata : Metadata) (position : Position) :
    grid.Evolves ((addColumnAt name metadata position).apply grid).2 :=
  (checked_checkAll metadata.values grid).evolves fun middle fits => by
    rw [Edit.apply_get_bind]
    cases added : middle.columns.addItem name metadata position false with
    | error refusal => exact .refl middle
    | ok columns =>
        refine evolves_of_columns fun within held member value inside => ?_
        rcases OrderedMap.mem_values_addItem added member with rfl | old
        · exact fits value inside
        · exact (within_iff.mp within).2.1 held old value inside

theorem evolves_setColumnMeta (column key : String) (value : Value) :
    grid.Evolves ((setColumnMeta column key value).apply grid).2 :=
  (checked_check value grid).evolves fun middle fits => by
    rw [Edit.apply_get_bind]
    cases found : middle.columns.get? column with
    | none => exact .refl middle
    | some metadata =>
        refine evolves_of_columns fun within held member other inside => ?_
        rcases OrderedMap.mem_values_insert member with rfl | old
        · rcases OrderedMap.mem_values_insert inside with rfl | before
          · exact fits other (by simp)
          · exact (within_iff.mp within).2.1 metadata (OrderedMap.mem_values_of_get? found) other before
        · exact (within_iff.mp within).2.1 held old other inside

theorem evolves_setColumns (columns : Columns) : grid.Evolves ((setColumns columns).apply grid).2 :=
  (checked_checkAll (columns.values.flatMap OrderedMap.values) grid).evolves fun middle fits =>
    @evolves_of_columns middle columns fun _ held member value inside =>
      fits value (List.mem_flatMap.mpr ⟨held, member, inside⟩)

theorem evolves_append (row : Entity) : grid.Evolves ((append row).apply grid).2 :=
  (checked_checkAll row.values grid).evolves fun _ fits => evolves_of_rows fun within other member => by
    rcases List.mem_append.mp member with old | new
    · exact (within_iff.mp within).2.2 other old
    · rw [List.mem_singleton.mp new]
      exact fits

theorem evolves_extend (rows : List Entity) : grid.Evolves ((extend rows).apply grid).2 := by
  induction rows generalizing grid with
  | nil => exact .refl grid
  | cons row rest ih => exact (evolves_append row).bind fun _ => ih

theorem evolves_insertRow (index : Nat) (row : Entity) :
    grid.Evolves ((insertRow index row).apply grid).2 := by
  rw [insertRow, Edit.apply_get_bind]
  by_cases beyond : grid.rows.length < index
  · rw [if_pos beyond]
    exact .refl grid
  · rw [if_neg beyond]
    refine (checked_checkAll row.values grid).evolves fun middle fits =>
      evolves_of_rows fun within other member => ?_
    rcases List.mem_append.mp member with old | member
    · exact (within_iff.mp within).2.2 other (List.mem_of_mem_take old)
    · rcases List.mem_cons.mp member with rfl | old
      · exact fits
      · exact (within_iff.mp within).2.2 other (List.mem_of_mem_drop old)

theorem evolves_setRow (index : Nat) (row : Entity) :
    grid.Evolves ((setRow index row).apply grid).2 := by
  rw [setRow, Edit.apply_get_bind]
  by_cases beyond : grid.rows.length ≤ index
  · rw [if_pos beyond]
    exact .refl grid
  · rw [if_neg beyond]
    refine (checked_checkAll row.values grid).evolves fun middle fits =>
      evolves_of_rows fun within other member => ?_
    rcases List.mem_or_eq_of_mem_set member with old | rfl
    · exact (within_iff.mp within).2.2 other old
    · exact fits

/-! ## Rows under changes above them -/

theorem rows_setMeta (key : String) (value : Value) :
    ((setMeta key value).apply grid).2.rows = grid.rows :=
  (checked_check value grid).cases_bind (motive := (·.rows = grid.rows)) (fun _ _ _ => rfl)
    fun _ _ => rfl

theorem rows_setMetadata (metadata : Metadata) :
    ((setMetadata metadata).apply grid).2.rows = grid.rows :=
  (checked_checkAll metadata.values grid).cases_bind (motive := (·.rows = grid.rows))
    (fun _ _ _ => rfl) fun _ _ => rfl

theorem rows_addColumnAt (name : String) (metadata : Metadata) (position : Position) :
    ((addColumnAt name metadata position).apply grid).2.rows = grid.rows := by
  refine (checked_checkAll metadata.values grid).cases_bind (motive := (·.rows = grid.rows))
    (fun version _ _ => ?_) fun _ _ => rfl
  rw [Edit.apply_get_bind]
  cases grid.columns.addItem name metadata position false <;> rfl

theorem rows_setColumnMeta (column key : String) (value : Value) :
    ((setColumnMeta column key value).apply grid).2.rows = grid.rows := by
  refine (checked_check value grid).cases_bind (motive := (·.rows = grid.rows))
    (fun version _ _ => ?_) fun _ _ => rfl
  rw [Edit.apply_get_bind]
  cases grid.columns.get? column <;> rfl

theorem rows_setColumns (columns : Columns) :
    ((setColumns columns).apply grid).2.rows = grid.rows :=
  (checked_checkAll (columns.values.flatMap OrderedMap.values) grid).cases_bind
    (motive := (·.rows = grid.rows)) (fun _ _ _ => rfl) fun _ _ => rfl

/-! ## Rows under changes of their own -/

theorem append_cases (row : Entity) :
    (∃ version, (append row).apply grid =
        (.ok (), { grid with version, rows := grid.rows ++ [row] })) ∨
      ∃ version refusal, (append row).apply grid = (.error refusal, { grid with version }) := by
  have checked := checked_checkAll row.values grid
  generalize applied : (checkAll row.values).apply grid = result at checked
  cases checked with
  | admitted version => exact .inl ⟨version, by rw [append, Edit.apply_bind applied]; rfl⟩
  | refused version _ refusal =>
      exact .inr ⟨version, refusal, by rw [append, Edit.apply_bind_error applied]⟩

/-- A change of rows that is refused by its check leaves them alone. -/
theorem Checked.rows_of_refused {first : Edit Unit} {values : List Value} {change : Grid → Grid}
    {refusal : Error} (checked : Checked grid values (first.apply grid))
    (applied : (first >>= fun _ => modify change).apply grid = (.error refusal, after)) :
    after.rows = grid.rows := by
  generalize result : first.apply grid = outcome at checked
  cases checked with
  | admitted version =>
      rw [Edit.apply_bind result, Edit.apply_modify] at applied
      exact nomatch applied
  | refused version _ =>
      rw [Edit.apply_bind_error result] at applied
      obtain ⟨_, rfl⟩ := Prod.mk.inj applied
      rfl

theorem rows_insertRow_refused {index : Nat} {row : Entity} {refusal : Error}
    (applied : (insertRow index row).apply grid = (.error refusal, after)) :
    after.rows = grid.rows := by
  rw [insertRow, Edit.apply_get_bind] at applied
  by_cases beyond : grid.rows.length < index
  · rw [if_pos beyond] at applied
    obtain ⟨_, rfl⟩ := Prod.mk.inj applied
    rfl
  · rw [if_neg beyond] at applied
    exact (checked_checkAll row.values grid).rows_of_refused applied

theorem rows_setRow_refused {index : Nat} {row : Entity} {refusal : Error}
    (applied : (setRow index row).apply grid = (.error refusal, after)) :
    after.rows = grid.rows := by
  rw [setRow, Edit.apply_get_bind] at applied
  by_cases beyond : grid.rows.length ≤ index
  · rw [if_pos beyond] at applied
    obtain ⟨_, rfl⟩ := Prod.mk.inj applied
    rfl
  · rw [if_neg beyond] at applied
    exact (checked_checkAll row.values grid).rows_of_refused applied

theorem rows_select {selection : String} (selected : grid.select selection = .ok after) :
    after.rows = grid.rows := by
  unfold select at selected
  simp only at selected
  split at selected
  · exact Except.ok.inj selected ▸ rfl
  · split at selected
    · split at selected
      · exact Except.ok.inj selected ▸ rfl
      · exact nomatch selected
    · exact Except.ok.inj selected ▸ rfl

end GridOf

end Haystack
