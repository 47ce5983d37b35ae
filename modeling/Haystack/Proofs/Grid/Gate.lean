import Haystack.Proofs.Grid.Index

/-!
Grids under sequences of checked operations.

The checked operations are all but those that set the version or change a row where it is. A grid
evolves under each of them, hence under a sequence of them.
-/
namespace Haystack

namespace GridOf

variable {grid made : Grid}

/-! ## Grids with fewer rows or columns -/

theorem mem_of_mem_limited {α : Type} {limit : Option Nat} {rows : List α} {row : α}
    (member : row ∈ limited limit rows) : row ∈ rows := by
  cases limit with
  | none => exact member
  | some count => exact List.mem_of_mem_take member

/-- Stopping at the limit leaves the first ones of all the rows to keep. -/
theorem firstKept_eq (keep : Entity → Bool) (limit : Option Nat) (rows : List Entity) :
    firstKept keep limit rows = limited limit (rows.filter keep) := by
  induction rows generalizing limit with
  | nil => cases limit <;> simp [firstKept, limited]
  | cons row rest ih =>
      match limit with
      | some 0 => simp [firstKept, limited]
      | some (count + 1) =>
          rw [firstKept, ih, ih, List.filter_cons]
          · split <;> rfl
          · simp
      | none =>
          rw [firstKept, ih, ih, List.filter_cons]
          · split <;> rfl
          · simp

theorem evolves_satisfying (condition : Condition) (limit : Option Nat) :
    grid.Evolves (grid.satisfying condition limit) := by
  refine evolves_of_fewer_rows fun row member => ?_
  change row ∈ firstKept (condition.holds grid) limit grid.rows at member
  rw [firstKept_eq] at member
  exact List.mem_of_mem_filter (mem_of_mem_limited member)

theorem evolves_filter {text : String} {limit : Option Nat}
    (filtered : grid.filter text limit = .ok made) : grid.Evolves made := by
  unfold filter filterBy at filtered
  split at filtered
  · exact Except.ok.inj filtered ▸ evolves_of_fewer_rows fun _ => mem_of_mem_limited
  · cases read : Condition.read text with
    | error refusal =>
        rw [read] at filtered
        exact nomatch filtered
    | ok condition =>
        rw [read] at filtered
        exact Except.ok.inj filtered ▸ evolves_satisfying condition limit

theorem evolves_sortByTag (tag : String) : grid.Evolves (grid.sortByTag tag) :=
  evolves_of_fewer_rows fun _ member => (List.mergeSort_perm _ _).mem_iff.mp member

theorem evolves_slice (lower upper : Option Bound) : grid.Evolves (grid.slice lower upper) :=
  evolves_of_fewer_rows fun _ member => List.mem_of_mem_take (List.mem_of_mem_drop member)

theorem evolves_purge : grid.Evolves grid.purge := by
  refine evolves_of_rows fun within row member value inside => ?_
  obtain ⟨whole, inRows, rfl⟩ := List.mem_map.mp member
  exact (within_iff.mp within).2.2 whole inRows value
    (OrderedMap.mem_values_of_sublist List.filter_sublist inside)

theorem evolves_removeColumns (names : List String) :
    grid.Evolves { grid with columns := names.foldl OrderedMap.erase grid.columns } := by
  refine evolves_of_fewer_columns fun held member => .inr ?_
  generalize grid.columns = columns at member ⊢
  induction names generalizing columns with
  | nil => exact member
  | cons name rest ih => exact OrderedMap.mem_values_of_sublist List.eraseP_sublist (ih _ member)

theorem evolves_columnsNamed (names : List String) :
    grid.Evolves { grid with columns := columnsNamed grid.columns names } := by
  refine evolves_of_fewer_columns fun held member => ?_
  obtain ⟨item, inItems, rfl⟩ := List.mem_map.mp (OrderedMap.mem_values_ofList member)
  obtain ⟨name, _, rfl⟩ := List.mem_map.mp inItems
  cases found : grid.columns.get? name with
  | none => exact .inl rfl
  | some metadata =>
      exact .inr (OrderedMap.mem_values_of_get? found)

theorem evolves_select {selection : String} (selected : grid.select selection = .ok made) :
    grid.Evolves made := by
  unfold select at selected
  simp only at selected
  split at selected
  · exact Except.ok.inj selected ▸ .refl grid
  · split at selected
    · split at selected
      · exact Except.ok.inj selected ▸ evolves_removeColumns _
      · exact nomatch selected
    · exact Except.ok.inj selected ▸ evolves_columnsNamed _

theorem evolves_packColumns : grid.Evolves grid.packColumns :=
  evolves_of_fewer_columns fun _ member =>
    .inr (OrderedMap.mem_values_of_sublist List.filter_sublist member)

theorem evolves_extendColumns : grid.Evolves grid.extendColumns := by
  refine evolves_of_fewer_columns fun held member => ?_
  generalize grid.rows.flatMap (·.keys) = names at member
  generalize grid.columns = columns at member ⊢
  induction names generalizing columns with
  | nil => exact .inr member
  | cons name rest ih =>
      rcases ih _ member with isEmpty | member
      · exact .inl isEmpty
      · unfold declare at member
        split at member
        · exact .inr member
        · exact OrderedMap.mem_values_insert member

theorem evolves_removeMeta (key : String) : grid.Evolves (grid.removeMeta key) :=
  evolves_of_metadata fun within value member =>
    (within_iff.mp within).1 value (OrderedMap.mem_values_of_sublist List.eraseP_sublist member)

theorem evolves_removeColumn (name : String) : grid.Evolves (grid.removeColumn name) :=
  evolves_removeColumns [name]

theorem evolves_removeRow (index : Nat) : grid.Evolves (grid.removeRow index) :=
  evolves_of_fewer_rows fun _ member => List.mem_of_mem_eraseIdx member

end GridOf

/-! ## Operations -/

namespace IndexedGrid

variable {g : IndexedGrid}

/-- The operations that admit no value without a check and do not set the version. -/
def Operation.IsChecked : Operation → Prop
  | .change _ _ | .changeId _ _ | .setVersion _ _ => False
  | _ => True

theorem grid_append (row : Entity) :
    (g.after (append row)).grid = ((GridOf.append row).apply g.grid).2 := by
  change (append row g).2.grid = _
  unfold append
  split <;> next applied => rw [applied]

theorem grid_editRows (edit : Edit Unit) :
    (g.after (editRows edit)).grid = (edit.apply g.grid).2 := by
  change (editRows edit g).2.grid = _
  unfold editRows
  split <;> next applied => rw [applied]

theorem evolves_extend (rows : List Entity) : g.grid.Evolves (g.after (extend rows)).grid := by
  induction rows generalizing g with
  | nil => exact .refl g.grid
  | cons row rest ih =>
      rw [after_extend_cons]
      have first := @GridOf.evolves_append g.grid row
      rw [← grid_append] at first
      change g.grid.Evolves (append row g).2.grid at first
      cases applied : append row g with
      | mk outcome middle =>
          rw [applied] at first
          cases outcome with
          | ok _ => exact first.trans ih
          | error refusal => exact first

theorem evolves_removeRow? (position : Nat) : g.grid.Evolves (removeRow? position g).2.grid := by
  unfold removeRow?
  split
  · exact .refl g.grid
  · exact GridOf.evolves_removeRow position

theorem evolves_filter {text : String} {limit : Option Nat} {other : IndexedGrid}
    (made : g.filter text limit = .ok other) : g.grid.Evolves other.grid := by
  rcases of_filter made with rfl | ⟨grid, kept, rfl⟩
  · exact .refl other.grid
  · exact GridOf.evolves_filter kept

theorem evolves_select {selection : String} {other : IndexedGrid}
    (made : g.select selection = .ok other) : g.grid.Evolves other.grid := by
  obtain ⟨grid, selected, rfl⟩ := of_select made
  exact GridOf.evolves_select selected

theorem evolves_perform {operation : Operation} (checked : operation.IsChecked) :
    g.grid.Evolves (g.perform operation).grid := by
  cases operation with
  | position id => exact .refl g.grid
  | row id => exact .refl g.grid
  | contains id => exact .refl g.grid
  | append row =>
      exact (grid_append row) ▸ GridOf.evolves_append row
  | extend rows => exact evolves_extend rows
  | insert index row => exact (grid_editRows _) ▸ GridOf.evolves_insertRow index row
  | set index row => exact (grid_editRows _) ▸ GridOf.evolves_setRow index row
  | remove index => exact evolves_removeRow? index
  | removeId id =>
      change g.grid.Evolves (removeId? id g).2.grid
      rw [removeId?_eq]
      cases (positionOf? id g).1 with
      | none => exact .refl g.grid
      | some position => exact @evolves_removeRow? (positionOf? id g).2 position
  | clear => exact GridOf.evolves_of_fewer_rows fun _ member => nomatch member
  | sort tag => exact GridOf.evolves_sortByTag tag
  | reindex => exact .refl g.grid
  | change index change => exact checked.elim
  | changeId id change => exact checked.elim
  | setVersion version pinned => exact checked.elim
  | setMeta key value => exact GridOf.evolves_setMeta key value
  | removeMeta key => exact GridOf.evolves_removeMeta key
  | setMetadata metadata => exact GridOf.evolves_setMetadata metadata
  | addColumn name metadata position => exact GridOf.evolves_addColumnAt name metadata position
  | setColumnMeta column key value => exact GridOf.evolves_setColumnMeta column key value
  | removeColumn name => exact GridOf.evolves_removeColumn name
  | setColumns columns => exact GridOf.evolves_setColumns columns
  | packColumns => exact GridOf.evolves_packColumns
  | extendColumns => exact GridOf.evolves_extendColumns
  | emptyLike => exact GridOf.evolves_of_fewer_rows fun _ member => nomatch member
  | slice lower upper => exact GridOf.evolves_slice lower upper
  | satisfying condition limit => exact GridOf.evolves_satisfying condition limit
  | filter text limit => exact orElse_cases (motive := (g.grid.Evolves ·.grid)) (.refl g.grid) fun _ => evolves_filter
  | select selection => exact orElse_cases (motive := (g.grid.Evolves ·.grid)) (.refl g.grid) fun _ => evolves_select
  | purge => exact GridOf.evolves_purge

theorem evolves_run {operations : List Operation}
    (checked : ∀ operation ∈ operations, operation.IsChecked) :
    g.grid.Evolves (g.run operations).grid :=
  run_induction (motive := (g.grid.Evolves ·.grid)) (.refl g.grid) fun _ member _ evolves =>
    evolves.trans (evolves_perform (checked _ member))

end IndexedGrid

end Haystack
