import Haystack.Csv.Document
import Haystack.Proofs.Csv.Cells
import Haystack.Proofs.Csv.Record

/-!
Reading back the grids that were written as comma-separated records.

The records come back as they were, so that a row comes back as what its cells are read as. Nulls are
cells of their own, and a tag that is missing is an empty cell.
-/
namespace Haystack.Csv

variable {grid : Grid} {names : List String}

/-- A grid of version 3.0 or later with columns for all tags, their names being words, whose rows hold
values that can be written. -/
structure IsSheet (grid : Grid) : Prop where
  atLeast : grid.version.IsAtLeastThree
  nonempty : grid.columns.keys ≠ []
  names : ∀ name ∈ grid.columns.keys, Zinc.isTagName name = true
  columns : grid.columns.Distinct
  rows : ∀ row ∈ grid.rows, row.Distinct
  declared : ∀ row ∈ grid.rows, ∀ name ∈ row.keys, name ∈ grid.columns.keys
  values : ∀ row ∈ grid.rows, ∀ held ∈ row.values, held.Throughout Zinc.Representable

/-! ## Rows -/

theorem rowOf_eq (distinct : names.Nodup) (fields : List String) :
    rowOf names fields = .ofCells names (fields.map readCell?) := by
  rw [rowOf, ← OrderedMap.ofList_items (OrderedMap.distinct_ofCells distinct (fields.map readCell?)),
    OrderedMap.ofCells, List.zip_map_right, List.filterMap_map]
  rfl

theorem exists_rowFields (sheet : IsSheet grid) {row : Entity} (member : row ∈ grid.rows) :
    ∃ fields, rowFields grid row = .ok fields ∧
      Zinc.CellsNear grid.columns.keys (fields.map readCell?) row := by
  have each : ∃ fields cells, rowFields grid row = .ok fields ∧
      List.Forall₂ (fun text cell => readCell? text = cell) fields cells ∧
      Zinc.CellsNear grid.columns.keys cells row := by
    refine Pairing.exists_mapM fun name _ => ?_
    cases found : row.get? name with
    | some held =>
        obtain ⟨text, back, written, read, near⟩ := exists_readCell?
          (sheet.values row member held (OrderedMap.mem_values_of_get? found)) sheet.atLeast
        exact ⟨text, _, written, read, by rwa [Option.getD_some, Entity.valueOf_eq found]⟩
    | none =>
        have isNull : row.valueOf name = .null := by simp [Entity.valueOf, found]
        exact ⟨"", none, rfl, rfl, by rw [isNull]; rfl⟩
  obtain ⟨fields, cells, written, read, near⟩ := each
  refine ⟨fields, written, ?_⟩
  rw [← List.forall₂_map_left_iff, List.forall₂_eq_eq_eq] at read
  rwa [read]

theorem eq_str_of_near {back : Value} {s : String} (near : Value.near back (.str s) = true) :
    back = .str s := by
  have kind := Value.kind_eq_of_near near
  cases back with
  | str other =>
      have same : other = s := by simpa [Value.near, Value.sameLeaf] using near
      rw [same]
  | _ => simp [Value.kind] at kind

/-- A text under a column comes back as it was. -/
theorem get?_str_of_near {back row : Entity} (backDistinct : back.Distinct) (distinct : row.Distinct)
    (near : Value.nearEntity back row = true) {name s : String} (found : row.get? name = some (.str s)) :
    back.get? name = some (.str s) := by
  have here := (Value.nearEntity_iff backDistinct distinct).mp near name
  rw [Entity.valueOf_eq found] at here
  have same := eq_str_of_near here
  unfold Entity.valueOf at same
  cases present : back.get? name with
  | none => simp [present] at same
  | some value => rwa [present, Option.getD_some, ← Option.some_inj] at same

/-! ## Records -/

theorem addColumns_apply (distinct : (grid.columns.keys ++ names).Nodup) :
    (addColumns names).apply grid =
      (.ok (), { grid with columns := ⟨grid.columns.items ++ names.map (·, .empty)⟩ }) := by
  induction names generalizing grid with
  | nil => simp [addColumns]
  | cons name names ih =>
      have fresh := OrderedMap.not_mem_keys_of_nodup distinct
      have added := @GridOf.addColumn_apply grid .empty name (fun _ member => nomatch member) fresh
      have later : ((⟨grid.columns.items ++ [(name, .empty)]⟩ : Columns).keys ++ names).Nodup := by
        simpa [OrderedMap.keys] using distinct
      have rest := @ih { grid with columns := ⟨grid.columns.items ++ [(name, .empty)]⟩ } later
      rw [addColumns, Edit.apply_bind added, rest]
      simp

/-- A text whose records have a first one names the columns by it and has a row for each other. -/
theorem readGrid_of_records {text : String} {records : List (List String)}
    (read : readRecords text.toList = names :: records) (distinct : names.Nodup) :
    readGrid text = .ok ⟨.three, true, .empty, ⟨names.map (·, .empty)⟩, records.map (rowOf names)⟩ := by
  have columns : (addColumns names).apply (.withVersion .three) =
      (.ok (), { GridOf.withVersion .three with columns := ⟨names.map (·, .empty)⟩ }) :=
    @addColumns_apply (.withVersion .three) names distinct
  have rows : (GridOf.extend (records.map (rowOf names))).apply
        { GridOf.withVersion .three with columns := ⟨names.map (·, .empty)⟩ } =
      (.ok (), ⟨.three, true, .empty, ⟨names.map (·, .empty)⟩, records.map (rowOf names)⟩) :=
    GridOf.extend_apply fun _ _ value _ =>
      Zinc.fits_of_isAtLeastThree (show Version.three.IsAtLeastThree by decide) value
  rw [readGrid]
  simp only [read, List.head?_cons, Option.getD_some, List.drop_succ_cons, List.drop_zero]
  rw [Edit.apply_bind columns, rows]

theorem not_needsQuotes {name : String} (isName : Zinc.isTagName name = true) :
    needsQuotes name.toList = false := by
  obtain ⟨first, others, shape, isFirst, areOthers⟩ := Zinc.exists_of_isTagName isName
  rw [needsQuotes, shape, List.any_eq_false]
  intro c member special
  have isId : Zinc.isIdChar c = true := by
    rcases List.mem_cons.mp member with rfl | inOthers
    · simp only [Zinc.isNameStart, Bool.or_eq_true] at isFirst
      simp only [Zinc.isIdChar, Char.isAlphanum, Bool.or_eq_true]
      tauto
    · exact areOthers c inOthers
  simp only [Bool.or_eq_true, beq_iff_eq] at special
  rcases special with ((rfl | rfl) | rfl) | rfl <;> exact absurd isId (by decide)

/-- The first record starts with a letter, so no byte order mark is seen in front of it. -/
theorem head?_writeRecord {name : String} {others : List String}
    (isName : Zinc.isTagName name = true) (rest : List Char) :
    ((writeRecord (name :: others)).toList ++ rest).head? ≠ some '\uFEFF' := by
  obtain ⟨first, more, shape, isFirst, _⟩ := Zinc.exists_of_isTagName isName
  have nonempty : name ≠ "" := by
    rintro rfl
    exact nomatch shape
  rw [writeRecord, if_neg (by simp [nonempty]), List.map_cons, show "," = String.singleton ',' from rfl,
    String.toList_append, Text.toList_intercalate_char, writeField,
    if_neg (by simp [not_needsQuotes isName]), shape]
  intro head
  obtain rfl := Option.some.inj head
  exact absurd isFirst (by decide)

/-- Records under names of columns are read as they were written. -/
theorem readRecords_of_names {records : List (List String)} (nonempty : names ≠ [])
    (areNames : ∀ name ∈ names, Zinc.isTagName name = true) (sizes : ∀ record ∈ records, record ≠ []) :
    readRecords (writeRecord names ++ String.join (records.map writeRecord)).toList = names :: records := by
  obtain ⟨first, others, rfl⟩ := List.exists_cons_of_ne_nil nonempty
  have shape : writeRecord (first :: others) ++ String.join (records.map writeRecord) =
      String.join (((first :: others) :: records).map writeRecord) := by simp
  rw [shape]
  refine readRecords_writeRecord (List.forall_mem_cons.mpr ⟨nonempty, sizes⟩) ?_
  rw [← shape, String.toList_append]
  exact head?_writeRecord (areNames first (List.mem_cons_self ..)) _

/-! ## Grids -/

section Remarks

open Value (throughout_of_childless)

def remarkTags : Value := .dict ⟨[("hot", .marker), ("text", .str "a,\n\"b\"")]⟩

/-- Texts that look like cells of other kinds, beside some of those. -/
def remarks : Grid where
  version := .three
  pinned := true
  metadata := ⟨[("not written", .marker)]⟩
  columns := ⟨[("id", .empty), ("text", .empty), ("more", .empty)]⟩
  rows := [⟨[("id", .ref ⟨"a", some "Site A, \"first\""⟩), ("text", .str "@a Site"), ("more", .marker)]⟩,
    ⟨[("text", .str ""), ("more", .null)]⟩,
    ⟨[("text", .str checkMark), ("more", .bool true)]⟩,
    ⟨[("text", .str "true"), ("more", remarkTags)]⟩,
    ⟨[("text", .str "[\"1\", 2]"), ("more", .dateTime ⟨⟨0, 0⟩, .utc⟩)]⟩,
    .empty]

theorem isSheet_remarks : IsSheet remarks where
  atLeast := by decide
  nonempty := by decide
  names := by decide
  columns := by decide
  rows := by decide
  declared := by decide
  values := by
    have name : "a".toList.all Zinc.isRefChar = true := by decide
    have tags : remarkTags.Throughout Zinc.Representable := by
      refine .intro _ ⟨by decide, by decide⟩ fun part member => ?_
      simp only [remarkTags, Value.children, OrderedMap.values, List.map_cons, List.map_nil,
        List.mem_cons, List.not_mem_nil, or_false] at member
      rcases member with rfl | rfl <;> exact throughout_of_childless trivial rfl
    intro row inRows held member
    simp only [remarks, List.mem_cons, List.not_mem_nil, or_false] at inRows
    rcases inRows with rfl | rfl | rfl | rfl | rfl | rfl <;>
      simp only [OrderedMap.values, OrderedMap.empty, List.map_cons, List.map_nil, List.mem_cons,
        List.not_mem_nil, or_false] at member
    · rcases member with rfl | rfl | rfl
      · exact throughout_of_childless name rfl
      · exact throughout_of_childless trivial rfl
      · exact throughout_of_childless trivial rfl
    · rcases member with rfl | rfl <;> exact throughout_of_childless trivial rfl
    · rcases member with rfl | rfl <;> exact throughout_of_childless trivial rfl
    · rcases member with rfl | rfl
      · exact throughout_of_childless trivial rfl
      · exact tags
    · rcases member with rfl | rfl
      · exact throughout_of_childless trivial rfl
      · exact throughout_of_childless Zinc.isMoment_epoch rfl

end Remarks

end Haystack.Csv
