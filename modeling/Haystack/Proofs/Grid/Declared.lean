import Haystack.Proofs.Grid.Pairs
import Haystack.Proofs.Grid.Writing
import Haystack.Proofs.Zinc.Blocks

/-!
The columns of a difference declare all its tags.

A row of a difference has tags of the row on the left that it comes from, tags of the one on the
right, its id, and the key of removals. The first three are declared by the columns of the two grids,
which the difference has all of, and the last one by a column that is added where it is needed.
Writers leave out what no column declares, so they leave out nothing of a difference.
-/
namespace Haystack

open OrderedMap

/-! ## What writers put down -/

/-- The cells have, under the name of each tag of a row, what is written for its value. -/
def HoldsTags (write : Value → Except Error String) (names : List String) (row : Entity)
    (cells : List String) : Prop :=
  ∀ name value, row.get? name = some value →
    ∃ (place : Nat) (text : String),
      names[place]? = some name ∧ write value = .ok text ∧ cells[place]? = some text

/-- The tree has a member for each tag of a row. -/
def Json.HoldsTags (version : Version) (row : Entity) (tree : Json.Tree) : Prop :=
  ∃ members, tree = .object members ∧ ∀ name value, row.get? name = some value →
    ∃ held, treeOf value version = .ok held ∧ members.get? name = some held

namespace GridOf

/-- Every tag of every row has a column. -/
def Declared (grid : Grid) : Prop := ∀ row ∈ grid.rows, ∀ name ∈ row.keys, name ∈ grid.columns.keys

instance (grid : Grid) : Decidable grid.Declared :=
  inferInstanceAs (Decidable (∀ row ∈ grid.rows, ∀ name ∈ row.keys, name ∈ grid.columns.keys))

/-- Whatever is written of a grid, in each encoding, has all tags of all rows. -/
structure WrittenWhole (grid : Grid) : Prop where
  zinc : ∀ text, Zinc.writeGrid grid = .ok text → ∃ head lines,
    text = head ++ String.join (lines.map fun cells => String.intercalate "," cells ++ "\n") ∧
    List.Forall₂ (HoldsTags (Zinc.writeValue · grid.version) grid.columns.keys) grid.rows lines
  json : ∀ text, Json.writeGrid grid = .ok text → ∃ members trees,
    text = (Json.Tree.object members).print ∧ members.get? "rows" = some (.array trees) ∧
    List.Forall₂ (Json.HoldsTags grid.version) grid.rows trees
  csv : ∀ text, Csv.writeGrid grid = .ok text → ∃ head records,
    text = head ++ String.join (records.map Csv.writeRecord) ∧
    List.Forall₂ (HoldsTags (Csv.writeValue · grid.version) grid.columns.keys) grid.rows records

end GridOf

section Writers

variable {grid : Grid} {names : List String} {row : Entity} {version : Version}

/-- A cell for each name is one for each tag, if the tags are among the names. -/
theorem holdsTags_of_cells {write : Value → Except Error String} {cells : List String}
    {written : String → String → Prop} (each : List.Forall₂ written names cells)
    (cell : ∀ name value text, row.get? name = some value → written name text → write value = .ok text)
    (declared : ∀ name ∈ row.keys, name ∈ names) : HoldsTags write names row cells := by
  intro name value found
  obtain ⟨place, inNames, isName⟩ := List.mem_iff_getElem.mp (declared name (mem_keys_of_get? found))
  have inCells : place < cells.length := each.length_eq ▸ inNames
  have here := each.get inNames inCells
  simp only [List.get_eq_getElem, isName] at here
  exact ⟨place, cells[place], List.getElem?_eq_some_iff.mpr ⟨inNames, isName⟩,
    cell name value _ found here, List.getElem?_eq_getElem inCells⟩

theorem Zinc.exists_cells_of_rowText {line : String} (declared : ∀ name ∈ row.keys, name ∈ names)
    (written : rowText names (writeCells row.items version) = .ok line) :
    ∃ cells, line = String.intercalate "," cells ∧
      HoldsTags (writeValue · version) names row cells := by
  rw [rowText_eq] at written
  obtain ⟨cells, areCells, rfl⟩ := Outcome.of_map written
  refine ⟨cells, rfl, holdsTags_of_cells (Outcome.mapM_ok_iff.mp areCells) ?_ declared⟩
  intro name value text found isCell
  rw [cellText, writeCells_eq, lookup_map row.items (writeValue · version)] at isCell
  rwa [show (⟨row.items⟩ : Entity).get? name = some value from found] at isCell

theorem Json.holdsTags_of_rowTree {tree : Tree} (distinct : names.Nodup)
    (declared : ∀ name ∈ row.keys, name ∈ names)
    (made : rowTree names (cellTrees row.items version) = .ok tree) : HoldsTags version row tree := by
  rw [rowTree_eq] at made
  obtain ⟨members, areMembers, rfl⟩ := Outcome.of_map made
  refine ⟨_, rfl, fun name value found => ?_⟩
  have shown : (shownTags names row).get? name = some value :=
    (get?_shownTags distinct declared name).trans found
  rw [memberItemsOf_eq, Outcome.mapM_ok_iff] at areMembers
  have sameNames : members.map (·.1) = (shownTags names row).keys := by
    rw [OrderedMap.keys, ← List.forall₂_eq_eq_eq, List.forall₂_map_left_iff, List.forall₂_map_right_iff]
    refine areMembers.flip.imp fun member item isMember => ?_
    obtain ⟨_, _, rfl⟩ := Outcome.of_map isMember
    rfl
  have membersDistinct : (members.map (·.1)).Nodup := sameNames ▸ distinct_shownTags distinct row
  obtain ⟨member, isIn, isMember⟩ := Pairing.exists_mem_of_forall₂ areMembers (mem_of_get? shown)
  obtain ⟨held, isHeld, rfl⟩ := Outcome.of_map isMember
  refine ⟨held, isHeld, ?_⟩
  rw [ofList_of_nodup membersDistinct]
  exact (get?_eq_some_iff membersDistinct).mpr isIn

/-- Where all tags are declared, writers put down all of them. -/
theorem GridOf.Declared.writtenWhole (declared : grid.Declared) (distinct : grid.columns.Distinct) :
    grid.WrittenWhole where
  zinc text written := by
    obtain ⟨version, pinned, metadata, columns, rows⟩ := grid
    obtain ⟨tags, _, written⟩ := Outcome.of_bind written
    obtain ⟨columnTexts, areColumns, written⟩ := Outcome.of_bind written
    obtain ⟨rowsText, isRows, written⟩ := Outcome.of_bind written
    obtain ⟨lines, areLines, rfl⟩ := Zinc.exists_lines isRows
    obtain rfl := Except.ok.inj written
    rw [Zinc.keys_of_writeColumns areColumns] at areLines
    have each := Pairing.forall₂_imp_of_mem (Outcome.mapM_ok_iff.mp areLines)
      fun row inRows line _ isLine => Zinc.exists_cells_of_rowText (declared row inRows) isLine
    obtain ⟨cells, holds, areJoined⟩ := Pairing.exists_middle
      (each.imp fun row line ⟨cells, isJoined, holds⟩ => ⟨cells, holds, isJoined⟩)
    obtain rfl : lines = cells.map (String.intercalate ",") := by
      rw [← List.forall₂_eq_eq_eq, List.forall₂_map_right_iff]
      exact areJoined.flip
    refine ⟨Zinc.withTags ("ver:" ++ Zinc.quote version.text) (String.intercalate " " tags) ++ "\n" ++
      Zinc.columnLine columnTexts ++ "\n", cells, ?_, holds⟩
    rw [List.map_map]
    rfl
  json text written := by
    obtain ⟨tree, made, rfl⟩ := Outcome.of_map written
    obtain ⟨version, pinned, metadata, columns, rows⟩ := grid
    obtain ⟨header, _, made⟩ := Outcome.of_bind made
    obtain ⟨columnMembers, _, made⟩ := Outcome.of_bind made
    obtain ⟨trees, areTrees, made⟩ := Outcome.of_bind made
    obtain rfl := Except.ok.inj made
    rw [Json.rowTrees_eq, List.mapM_map, Outcome.mapM_ok_iff] at areTrees
    refine ⟨_, trees, rfl, rfl, Pairing.forall₂_imp_of_mem areTrees fun row inRows tree _ isTree => ?_⟩
    exact Json.holdsTags_of_rowTree distinct (declared row inRows) isTree
  csv text written := by
    obtain ⟨records, areRecords, written⟩ := Outcome.of_bind written
    obtain rfl := Except.ok.inj written
    refine ⟨_, records, rfl, Pairing.forall₂_imp_of_mem (Outcome.mapM_ok_iff.mp areRecords)
      fun row inRows fields _ areFields => ?_⟩
    refine holdsTags_of_cells (Outcome.mapM_ok_iff.mp areFields) (fun name value text found isField => ?_)
      (declared row inRows)
    simpa only [found] using isField

end Writers

namespace GridOf

/-! ## What a difference has -/

section Differences

variable {left right : Grid} {row change : Entity} {name : String} {paired : Paired}
  {columns : Columns} {metadata : Metadata} {rows : List Entity}

/-- The name is of a column of one of two grids, or the key of removals. -/
def HasOrigin (left right : Grid) (name : String) : Prop :=
  name ∈ left.columns.keys ∨ name ∈ right.columns.keys ∨ name = removalKey

theorem id_mem_keys {id : Ref} (isId : row.id? = some id) : "id" ∈ row.keys :=
  mem_keys_of_get? (Entity.id?_eq_some_iff.mp isId)

/-- Where a tag comes from, for each way that a row on the left has to give a row. -/
theorem hasOrigin_differenceOfRow (rightDeclared : right.Declared)
    (declared : ∀ name ∈ row.keys, name ∈ left.columns.keys)
    (member : change ∈ (differenceOfRow right paired row).1) :
    ∀ name ∈ change.keys, HasOrigin left right name := by
  intro name inChange
  cases known : row.id? with
  | some id =>
      have inLeft := declared "id" (id_mem_keys known)
      cases found : right.positionOf? id with
      | some position =>
          obtain ⟨other, there, _⟩ := getElem?_of_lastWithId? found
          simp only [differenceOfRow, known, found, there, Option.getD_some] at member
          obtain rfl : change = (row.changes other).insert "id" (.ref id) := by
            split at member
            · exact absurd member List.not_mem_nil
            · exact List.mem_singleton.mp member
          rcases mem_keys_insert.mp inChange with rfl | changed
          · exact .inl inLeft
          · rcases mem_keys_changes changed with inRow | inOther
            · exact .inl (declared name inRow)
            · exact .inr (.inl (rightDeclared other (List.mem_of_getElem? there) name inOther))
      | none =>
          simp only [differenceOfRow, known, found] at member
          obtain rfl := List.mem_singleton.mp member
          rw [mem_keys_ofList] at inChange
          simp only [List.map_cons, List.map_nil, List.mem_cons, List.not_mem_nil, or_false] at inChange
          rcases inChange with rfl | rfl
          · exact .inl inLeft
          · exact .inr (.inr rfl)
  | none =>
      cases found : partnerOf? right.rows paired row with
      | some position =>
          simp only [differenceOfRow, known, found] at member
          exact absurd member List.not_mem_nil
      | none =>
          simp only [differenceOfRow, known, found] at member
          obtain rfl := List.mem_singleton.mp member
          rcases mem_keys_insert.mp inChange with rfl | inRow
          · exact .inr (.inr rfl)
          · exact .inl (declared name inRow)

theorem hasOrigin_differenceOfRows (rightDeclared : right.Declared)
    (declared : ∀ row ∈ rows, ∀ name ∈ row.keys, name ∈ left.columns.keys)
    (member : change ∈ (differenceOfRows right paired rows).1) :
    ∀ name ∈ change.keys, HasOrigin left right name := by
  induction rows generalizing paired with
  | nil => exact absurd member List.not_mem_nil
  | cons row rest ih =>
      rcases List.mem_append.mp member with here | later
      · exact hasOrigin_differenceOfRow rightDeclared (declared row List.mem_cons_self) here
      · exact ih (fun row inRest => declared row (List.mem_cons_of_mem _ inRest)) later

theorem hasOrigin_difference (leftDeclared : left.Declared) (rightDeclared : right.Declared)
    (member : change ∈ (left.difference right).rows) :
    ∀ name ∈ change.keys, HasOrigin left right name := by
  rcases List.mem_append.mp member with changed | added
  · exact hasOrigin_differenceOfRows rightDeclared leftDeclared changed
  · exact fun name inChange =>
      .inr (.inl (rightDeclared change (mem_of_mem_unpaired added) name inChange))

theorem mem_keys_differenceColumns {left right : Columns} :
    name ∈ (differenceColumns left right).keys ↔ name ∈ left.keys ∨ name ∈ right.keys := by
  rw [differenceColumns, mem_keys_ofList]
  simp only [List.map_append, List.map_map, List.mem_append]
  rw [show ((·.1) ∘ fun name => (name, ofList [(removalKey, Value.remove)])) = id from rfl,
    List.map_id, List.mem_filter]
  by_cases inRight : name ∈ right.keys
  · exact iff_of_true (.inl inRight) (.inr inRight)
  · have absent : (!right.contains name) = true := by
      simpa using contains_eq_false_iff.mpr inRight
    simp only [inRight, absent, and_true, or_false]
    exact or_iff_right fun inKept => inRight inKept

/-! The column of removals is added after all others, if it is not among them. -/

theorem prefix_declareRemovals : columns.keys <+: (declareRemovals columns rows).keys := by
  unfold declareRemovals declare
  split
  · split
    · exact List.prefix_rfl
    · next absent => simp [OrderedMap.insert, absent, keys]
  · exact List.prefix_rfl

theorem removalKey_mem_keys_declareRemovals (member : row ∈ rows) (removed : removalKey ∈ row.keys) :
    removalKey ∈ (declareRemovals columns rows).keys := by
  have any : rows.any (·.contains removalKey) = true :=
    List.any_eq_true.mpr ⟨row, member, contains_eq_true_iff.mpr removed⟩
  rw [declareRemovals, if_pos any, declare]
  split
  · next present => exact contains_eq_true_iff.mp present
  · exact mem_keys_insert.mpr (.inl rfl)

theorem get?_declareRemovals (found : columns.get? name = some metadata) :
    (declareRemovals columns rows).get? name = some metadata := by
  unfold declareRemovals declare
  split
  · split
    · exact found
    · next absent =>
      have differs : name ≠ removalKey := by
        rintro rfl
        exact absent (contains_eq_true_iff.mpr (mem_keys_of_get? found))
      rw [get?_insert, if_neg differs, found]
  · exact found

/-- A difference declares all its tags. -/
theorem Declared.difference (leftDeclared : left.Declared) (rightDeclared : right.Declared) :
    (left.difference right).Declared := by
  intro row member name inRow
  rcases hasOrigin_difference leftDeclared rightDeclared member name inRow with
    inLeft | inRight | rfl
  · exact prefix_declareRemovals.subset (mem_keys_differenceColumns.mpr (.inl inLeft))
  · exact prefix_declareRemovals.subset (mem_keys_differenceColumns.mpr (.inr inRight))
  · exact removalKey_mem_keys_declareRemovals member inRow

theorem distinct_difference_columns : (left.difference right).columns.Distinct := by
  change (declareRemovals (ofList _) (left.difference right).rows).Distinct
  unfold declareRemovals declare
  split
  · split
    · exact distinct_ofList _
    · exact distinct_insert (distinct_ofList _) _ _
  · exact distinct_ofList _

/-- The columns of the right come first. -/
theorem prefix_difference_columns (leftColumns : left.columns.Distinct)
    (rightColumns : right.columns.Distinct) :
    right.columns.keys <+: (left.difference right).columns.keys := by
  refine List.IsPrefix.trans ?_ prefix_declareRemovals
  rw [differenceColumns_eq leftColumns rightColumns, keys, keys, List.map_append, List.map_map]
  exact List.prefix_append _ _

/-- A column that the right lacks has a removal. -/
theorem get?_difference_columns_gone (leftColumns : left.columns.Distinct)
    (rightColumns : right.columns.Distinct) (inLeft : name ∈ left.columns.keys)
    (gone : name ∉ right.columns.keys) :
    (left.difference right).columns.get? name = some (ofList [(removalKey, .remove)]) := by
  have distinct : (differenceColumns left.columns right.columns).Distinct := distinct_ofList _
  refine get?_declareRemovals ((get?_eq_some_iff distinct).mpr ?_)
  rw [differenceColumns_eq leftColumns rightColumns]
  refine List.mem_append_right _ (List.mem_map.mpr ⟨name, List.mem_filter.mpr ⟨inLeft, ?_⟩, rfl⟩)
  simpa using contains_eq_false_iff.mpr gone

/-- A difference of grids that declare their tags declares its own, so that writers put down all of
them. Each column that is gone has a removal, and the columns of the right come first. -/
theorem declared_difference (leftDeclared : left.Declared) (rightDeclared : right.Declared)
    (leftColumns : left.columns.Distinct) (rightColumns : right.columns.Distinct) :
    (left.difference right).Declared ∧ (left.difference right).WrittenWhole ∧
      (∀ name ∈ left.columns.keys, name ∉ right.columns.keys →
        ∃ metadata, (left.difference right).columns.get? name = some metadata ∧
          metadata.get? removalKey = some .remove) ∧
      right.columns.keys <+: (left.difference right).columns.keys := by
  have declared := leftDeclared.difference rightDeclared
  refine ⟨declared, declared.writtenWhole distinct_difference_columns, fun name inLeft gone => ?_,
    prefix_difference_columns leftColumns rightColumns⟩
  exact ⟨_, get?_difference_columns_gone leftColumns rightColumns inLeft gone, rfl⟩

/-- Meters, one of them without an id. -/
def metersBefore : Grid where
  version := .three
  pinned := false
  metadata := .empty
  columns := ⟨[("id", .empty), ("unit", .empty), ("dis", ⟨[("doc", .str "a name")]⟩)]⟩
  rows := [⟨[("id", .ref ⟨"a", none⟩), ("unit", .str "kWh")]⟩, ⟨[("id", .ref ⟨"b", none⟩)]⟩,
    ⟨[("dis", .str "nameless")]⟩]

/-- The same meters later on: one has changed, two are gone and one is new, as are its columns. -/
def metersAfter : Grid where
  version := .three
  pinned := false
  metadata := .empty
  columns := ⟨[("phase", .empty), ("id", .empty), ("dis", .empty)]⟩
  rows := [⟨[("id", .ref ⟨"a", none⟩), ("phase", .marker)]⟩, ⟨[("dis", .str "new")]⟩]

theorem declared_difference_meters : metersBefore.Declared ∧ metersAfter.Declared ∧
    metersBefore.columns.Distinct ∧ metersAfter.columns.Distinct ∧
    (metersBefore.difference metersAfter).columns.keys = ["phase", "id", "dis", "unit", removalKey] ∧
    (metersBefore.difference metersAfter).rows.map (·.keys) =
      [["phase", "unit", "id"], ["id", removalKey], ["dis", removalKey], ["dis"]] ∧
    (metersBefore.difference metersAfter).Declared ∧
    (metersBefore.difference metersAfter).WrittenWhole := by
  have before : metersBefore.Declared := by decide
  have after : metersAfter.Declared := by decide
  have beforeColumns : metersBefore.columns.Distinct := by decide
  have afterColumns : metersAfter.columns.Distinct := by decide
  obtain ⟨declared, whole, _⟩ := declared_difference before after beforeColumns afterColumns
  exact ⟨before, after, beforeColumns, afterColumns, by decide +kernel, by decide +kernel, declared,
    whole⟩

end Differences

end GridOf

end Haystack
