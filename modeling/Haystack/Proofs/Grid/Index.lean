import Haystack.Proofs.Grid.Evolution
import Haystack.Proofs.Value.RowsById

/-!
Look-ups of ids after any operations.

Where the index is made, it leads each name to the last row known by it. Each operation keeps that:
it forgets the index, adds the row that it appends, or leaves the rows as they are.
-/
namespace Haystack

namespace Entity

/-- The id of a row is a reference with a name. -/
def IsKnownAs (name : String) (row : Entity) : Prop :=
  ∃ id : Ref, row.get? "id" = some (.ref id) ∧ id.name = name

theorem isKnownAs_iff {name : String} {row : Entity} :
    row.IsKnownAs name ↔ hasId name row = true := by
  rw [hasId_iff, name?, Option.map_eq_some_iff]
  simp only [IsKnownAs, id?_eq_some_iff]

end Entity

namespace GridOf

variable {name : String} {rows : List Entity} {position : Nat}

/-- A row is known by a name, and none after it is. -/
structure IsLast (name : String) (rows : List Entity) (position : Nat) : Prop where
  known : ∃ row, rows[position]? = some row ∧ row.IsKnownAs name
  later : ∀ next row, position < next → rows[next]? = some row → ¬ row.IsKnownAs name

theorem IsLast.unique {other : Nat} (last : IsLast name rows position)
    (lastToo : IsLast name rows other) : position = other := by
  obtain ⟨row, here, known⟩ := last.known
  obtain ⟨otherRow, there, otherKnown⟩ := lastToo.known
  rcases Nat.lt_trichotomy position other with before | same | after
  · exact absurd otherKnown (last.later other otherRow before there)
  · exact same
  · exact absurd known (lastToo.later position row after here)

theorem isLast_append_known {row : Entity} (known : row.IsKnownAs name) :
    IsLast name (rows ++ [row]) rows.length where
  known := ⟨row, by simp, known⟩
  later := fun next other after present => by
    have bound := (List.getElem?_eq_some_iff.mp present).1
    simp only [List.length_append, List.length_singleton] at bound
    omega

theorem isLast_append_iff {row : Entity} (notKnown : ¬ row.IsKnownAs name) :
    IsLast name (rows ++ [row]) position ↔ IsLast name rows position := by
  have here {next : Nat} {other : Entity} (present : (rows ++ [row])[next]? = some other)
      (known : other.IsKnownAs name) : next < rows.length := by
    by_contra beyond
    rw [List.getElem?_append_right (by omega)] at present
    rw [List.mem_singleton.mp (List.mem_of_getElem? present)] at known
    exact notKnown known
  constructor
  · rintro ⟨⟨found, present, known⟩, later⟩
    have bound := here present known
    refine ⟨⟨found, by rwa [List.getElem?_append_left bound] at present, known⟩, ?_⟩
    intro next other after there
    have inside := (List.getElem?_eq_some_iff.mp there).1
    exact later next other after (by rwa [List.getElem?_append_left inside])
  · rintro ⟨⟨found, present, known⟩, later⟩
    have bound := (List.getElem?_eq_some_iff.mp present).1
    refine ⟨⟨found, by rwa [List.getElem?_append_left bound], known⟩, ?_⟩
    intro next other after there isKnown
    have inside := here there isKnown
    exact later next other after (by rwa [List.getElem?_append_left inside] at there) isKnown

/-- The fold over the rows finds the last one. -/
theorem lastWithId?_eq_some_iff : lastWithId? name rows = some position ↔ IsLast name rows position := by
  induction rows using List.reverseRec with
  | nil =>
      refine ⟨fun found => by simp [lastWithId?] at found, fun isLast => ?_⟩
      obtain ⟨row, present, _⟩ := isLast.known
      simp at present
  | append_singleton rows row ih =>
      rw [lastWithId?_append_one]
      by_cases here : Entity.hasId name row = true
      · have atEnd := @isLast_append_known name rows row (Entity.isKnownAs_iff.mpr here)
        rw [if_pos here, Option.some.injEq]
        exact ⟨fun same => same ▸ atEnd, atEnd.unique⟩
      · rw [if_neg here, ih, isLast_append_iff fun known => here (Entity.isKnownAs_iff.mp known)]

end GridOf

/-! ## The index -/

namespace IdIndex

variable {name : String}

theorem getElem?_add (index : IdIndex) (row : Entity) (position : Nat) :
    (index.add row position)[name]? =
      if Entity.hasId name row then some position else index[name]? := by
  unfold add Entity.hasId
  cases row.id? with
  | none => simp
  | some id => simp only [Std.HashMap.getElem?_insert]

theorem ofRows_append_one (rows : List Entity) (row : Entity) :
    ofRows (rows ++ [row]) = (ofRows rows).add row rows.length := by
  simp [ofRows, List.zipIdx_append]

theorem getElem?_ofRows (rows : List Entity) :
    (ofRows rows)[name]? = GridOf.lastWithId? name rows := by
  induction rows using List.reverseRec with
  | nil => simp [ofRows, GridOf.lastWithId?]
  | append_singleton rows row ih =>
      rw [ofRows_append_one, getElem?_add, GridOf.lastWithId?_append_one, ih]

end IdIndex

namespace IndexedGrid

open GridOf (IsLast lastWithId?)

variable {g : IndexedGrid} {id : Ref}

/-- An index that is made leads to the last row of each name. -/
def UpToDate (g : IndexedGrid) : Prop :=
  ∀ index, g.index = some index → ∀ name : String, index[name]? = lastWithId? name g.grid.rows

theorem upToDate_ofGrid (grid : Grid) : (ofGrid grid).UpToDate := fun _ made => nomatch made

theorem UpToDate.of_rows {grid : Grid} (upToDate : g.UpToDate) (same : grid.rows = g.grid.rows) :
    UpToDate { g with grid } := by
  intro index made
  rw [same]
  exact upToDate index made

/-! ## Look-ups -/

theorem positionOf?_eq (upToDate : g.UpToDate) :
    (positionOf? id g).1 = lastWithId? id.name g.grid.rows := by
  change (g.index.getD (IdIndex.ofRows g.grid.rows))[id.name]? = _
  cases made : g.index with
  | none => exact IdIndex.getElem?_ofRows g.grid.rows
  | some index => exact upToDate index made id.name

theorem grid_positionOf? : (positionOf? id g).2.grid = g.grid := rfl

theorem UpToDate.positionOf? (upToDate : g.UpToDate) (id : Ref) : (positionOf? id g).2.UpToDate := by
  intro index made name
  obtain rfl := Option.some.inj made
  change (g.index.getD (IdIndex.ofRows g.grid.rows))[name]? = lastWithId? name g.grid.rows
  cases isMade : g.index with
  | none => exact IdIndex.getElem?_ofRows g.grid.rows
  | some index => exact upToDate index isMade name

theorem rowOf?_eq : rowOf? id g =
    ((positionOf? id g).1.bind (g.grid.rows[·]?), (positionOf? id g).2) := rfl

theorem containsId_eq : containsId id g = ((positionOf? id g).1.isSome, (positionOf? id g).2) := rfl

theorem removeId?_eq : removeId? id g =
    match (positionOf? id g).1 with
    | none => (none, (positionOf? id g).2)
    | some position => removeRow? position (positionOf? id g).2 := by
  change (match (positionOf? id g).1 with
    | none => (pure none : StateM IndexedGrid (Option Entity))
    | some position => removeRow? position) (positionOf? id g).2 = _
  cases (positionOf? id g).1 <;> rfl

theorem changeId_eq (change : Entity → Entity) : changeId id change g =
    match (positionOf? id g).1 with
    | none => (false, (positionOf? id g).2)
    | some position => changeRow position change (positionOf? id g).2 := by
  change (match (positionOf? id g).1 with
    | none => (pure false : StateM IndexedGrid Bool)
    | some position => changeRow position change) (positionOf? id g).2 = _
  cases (positionOf? id g).1 <;> rfl

/-! ## Changes -/

theorem UpToDate.editHeader {α : Type} {edit : Edit α} (upToDate : g.UpToDate)
    (rows : (edit.apply g.grid).2.rows = g.grid.rows) : (g.after (editHeader edit)).UpToDate :=
  upToDate.of_rows rows

theorem UpToDate.append (upToDate : g.UpToDate) (row : Entity) :
    (g.after (IndexedGrid.append row)).UpToDate := by
  change (IndexedGrid.append row g).2.UpToDate
  unfold IndexedGrid.append
  rcases @GridOf.append_cases g.grid row with ⟨version, applied⟩ | ⟨version, refusal, applied⟩
  · rw [applied]
    intro index made name
    -- The row after all others is the last one of its id, whatever the index said of that.
    obtain ⟨old, isMade, rfl⟩ := Option.map_eq_some_iff.mp made
    rw [IdIndex.getElem?_add, GridOf.lastWithId?_append_one, upToDate old isMade]
  · rw [applied]
    exact upToDate.of_rows rfl

theorem after_extend_cons (row : Entity) (rest : List Entity) :
    g.after (extend (row :: rest)) = match IndexedGrid.append row g with
      | (.ok _, middle) => middle.after (extend rest)
      | (.error _, middle) => middle := by
  change (ExceptT.bindCont (fun _ => extend rest) (IndexedGrid.append row g).1
    (IndexedGrid.append row g).2).2 = _
  cases IndexedGrid.append row g with
  | mk outcome middle => cases outcome <;> rfl

theorem UpToDate.extend (upToDate : g.UpToDate) (rows : List Entity) :
    (g.after (IndexedGrid.extend rows)).UpToDate := by
  induction rows generalizing g with
  | nil => exact upToDate
  | cons row rest ih =>
      rw [after_extend_cons]
      have first := upToDate.append row
      change (IndexedGrid.append row g).2.UpToDate at first
      cases applied : IndexedGrid.append row g with
      | mk outcome middle =>
          rw [applied] at first
          cases outcome with
          | ok _ => exact ih first
          | error refusal => exact first

/-- A change of rows makes a new index necessary unless it is refused. -/
theorem UpToDate.editRows {edit : Edit Unit} (upToDate : g.UpToDate)
    (refused : ∀ refusal grid, edit.apply g.grid = (.error refusal, grid) → grid.rows = g.grid.rows) :
    (g.after (IndexedGrid.editRows edit)).UpToDate := by
  change (IndexedGrid.editRows edit g).2.UpToDate
  unfold IndexedGrid.editRows
  split
  · exact upToDate_ofGrid _
  · next refusal grid applied => exact upToDate.of_rows (refused refusal grid applied)

theorem UpToDate.removeRow? (upToDate : g.UpToDate) (position : Nat) :
    (IndexedGrid.removeRow? position g).2.UpToDate := by
  unfold IndexedGrid.removeRow?
  split
  · exact upToDate
  · exact upToDate_ofGrid _

theorem upToDate_filter (upToDate : g.UpToDate) {text : String} {limit : Option Nat}
    {other : IndexedGrid} (made : g.filter text limit = .ok other) : other.UpToDate := by
  rcases of_filter made with rfl | ⟨grid, _, rfl⟩
  · exact upToDate
  · exact upToDate_ofGrid grid

theorem upToDate_select (upToDate : g.UpToDate) {selection : String} {other : IndexedGrid}
    (made : g.select selection = .ok other) : other.UpToDate := by
  obtain ⟨grid, selected, rfl⟩ := of_select made
  exact upToDate.of_rows (GridOf.rows_select selected)

theorem upToDate_perform (upToDate : g.UpToDate) (operation : Operation) :
    (g.perform operation).UpToDate := by
  cases operation with
  | position id => exact upToDate.positionOf? id
  | row id => exact upToDate.positionOf? id
  | contains id => exact upToDate.positionOf? id
  | append row => exact upToDate.append row
  | extend rows => exact upToDate.extend rows
  | insert index row => exact upToDate.editRows fun _ _ => GridOf.rows_insertRow_refused
  | set index row => exact upToDate.editRows fun _ _ => GridOf.rows_setRow_refused
  | remove index => exact upToDate.removeRow? index
  | removeId id =>
      change (removeId? id g).2.UpToDate
      rw [removeId?_eq]
      cases (positionOf? id g).1 with
      | none => exact upToDate.positionOf? id
      | some position => exact (upToDate.positionOf? id).removeRow? position
  | clear => exact upToDate_ofGrid _
  | sort tag => exact upToDate_ofGrid _
  | reindex => exact upToDate_ofGrid _
  | change index change => exact upToDate_ofGrid _
  | changeId id change =>
      change (IndexedGrid.changeId id change g).2.UpToDate
      rw [changeId_eq]
      cases (positionOf? id g).1 with
      | none => exact upToDate.positionOf? id
      | some position => exact upToDate_ofGrid _
  | setVersion version pinned => exact upToDate.of_rows rfl
  | setMeta key value => exact upToDate.editHeader (GridOf.rows_setMeta key value)
  | removeMeta key => exact upToDate.of_rows rfl
  | setMetadata metadata => exact upToDate.editHeader (GridOf.rows_setMetadata metadata)
  | addColumn name metadata position =>
      exact upToDate.editHeader (GridOf.rows_addColumnAt name metadata position)
  | setColumnMeta column key value =>
      exact upToDate.editHeader (GridOf.rows_setColumnMeta column key value)
  | removeColumn name => exact upToDate.of_rows rfl
  | setColumns columns => exact upToDate.editHeader (GridOf.rows_setColumns columns)
  | packColumns => exact upToDate.of_rows rfl
  | extendColumns => exact upToDate.of_rows rfl
  | emptyLike => exact upToDate_ofGrid _
  | slice lower upper => exact upToDate_ofGrid _
  | satisfying condition limit => exact upToDate_ofGrid _
  | filter text limit => exact orElse_cases upToDate fun _ => upToDate_filter upToDate
  | select selection => exact orElse_cases upToDate fun _ => upToDate_select upToDate
  | purge => exact upToDate_ofGrid _

theorem upToDate_run (upToDate : g.UpToDate) (operations : List Operation) :
    (g.run operations).UpToDate :=
  run_induction upToDate fun operation _ _ upToDate => upToDate_perform upToDate operation

/-! ## Answers -/

theorem positionOf?_iff (upToDate : g.UpToDate) {position : Nat} :
    (positionOf? id g).1 = some position ↔ IsLast id.name g.grid.rows position := by
  rw [positionOf?_eq upToDate, GridOf.lastWithId?_eq_some_iff]

theorem rowOf?_iff (upToDate : g.UpToDate) {row : Entity} : (rowOf? id g).1 = some row ↔
    ∃ position, IsLast id.name g.grid.rows position ∧ g.grid.rows[position]? = some row := by
  rw [rowOf?_eq, Option.bind_eq_some_iff]
  simp only [positionOf?_iff upToDate]

theorem containsId_iff (upToDate : g.UpToDate) :
    (containsId id g).1 = true ↔ ∃ position, IsLast id.name g.grid.rows position := by
  rw [containsId_eq, Option.isSome_iff_exists]
  simp only [positionOf?_iff upToDate]

theorem removeId?_cases (upToDate : g.UpToDate) :
    (∃ position, IsLast id.name g.grid.rows position ∧ (removeId? id g).1 = g.grid.rows[position]? ∧
        (removeId? id g).2.grid = g.grid.removeRow position) ∨
      (∀ position, ¬ IsLast id.name g.grid.rows position) ∧ (removeId? id g).1 = none ∧
        (removeId? id g).2.grid = g.grid := by
  rw [removeId?_eq]
  cases found : (positionOf? id g).1 with
  | none =>
      refine .inr ⟨fun position isLast => ?_, rfl, rfl⟩
      rw [(positionOf?_iff upToDate).mpr isLast] at found
      exact nomatch found
  | some position =>
      have isLast := (positionOf?_iff upToDate).mp found
      obtain ⟨row, present, _⟩ := isLast.known
      have removed : removeRow? position (positionOf? id g).2 =
          (some row, ofGrid (g.grid.removeRow position)) := by
        rw [removeRow?, grid_positionOf?, present]
      simp only [removed]
      exact .inl ⟨position, isLast, present.symm, rfl⟩

/-- After any operations, whether they left an index or not, an id is looked up, and its row taken
out, at the last row known by it, and nowhere if there is none. -/
theorem lookUps_run (start : Grid) (operations : List Operation) (id : Ref) :
    let g := (ofGrid start).run operations
    (∀ position, (positionOf? id g).1 = some position ↔ IsLast id.name g.grid.rows position) ∧
      (∀ row, (rowOf? id g).1 = some row ↔
        ∃ position, IsLast id.name g.grid.rows position ∧ g.grid.rows[position]? = some row) ∧
      ((containsId id g).1 = true ↔ ∃ position, IsLast id.name g.grid.rows position) ∧
      ((∃ position, IsLast id.name g.grid.rows position ∧
          (removeId? id g).1 = g.grid.rows[position]? ∧
          (removeId? id g).2.grid = g.grid.removeRow position) ∨
        (∀ position, ¬ IsLast id.name g.grid.rows position) ∧ (removeId? id g).1 = none ∧
          (removeId? id g).2.grid = g.grid) := by
  intro g
  have upToDate : g.UpToDate := upToDate_run (upToDate_ofGrid start) operations
  exact ⟨fun _ => positionOf?_iff upToDate, fun _ => rowOf?_iff upToDate, containsId_iff upToDate,
    removeId?_cases upToDate⟩

end IndexedGrid

end Haystack
