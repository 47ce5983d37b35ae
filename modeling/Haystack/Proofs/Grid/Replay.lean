import Haystack.Proofs.Grid.Pairs
import Haystack.Proofs.Grid.Patching

/-!
A difference between grids of rows with ids, applied twice, is as good as applied once.

After a change of a row is made the row of its name is settled: what the change asks for is so. The
changes of other rows leave that alone, and a change that is settled changes nothing.
-/
namespace Haystack

open Value

namespace OrderedMap

variable {m changes : OrderedMap Value}

/-- Changes that are made already change nothing. -/
theorem applyChanges_eq_self (made : ∀ change ∈ changes.items,
    m.get? change.1 = if change.2.isRemove then none else some change.2) : m.applyChanges changes = m := by
  obtain ⟨items⟩ := changes
  unfold applyChanges
  induction items with
  | nil => rfl
  | cons change rest ih =>
      rw [List.forall_mem_cons] at made
      have same : m.applyChange change = m := by
        unfold applyChange
        split
        · next removed =>
          exact erase_of_not_contains (contains_eq_false_iff.mpr
            (get?_eq_none_iff.mp (made.1.trans (if_pos removed))))
        · next stays => exact insert_of_get? (made.1.trans (if_neg stays))
      rw [List.foldl_cons, same]
      exact ih made.2

theorem applyChanges_twice (distinct : m.Distinct) (changesDistinct : changes.Distinct) :
    (m.applyChanges changes).applyChanges changes = m.applyChanges changes := by
  refine applyChanges_eq_self fun change member => ?_
  rw [get?_applyChanges distinct changesDistinct, (get?_eq_some_iff changesDistinct).mpr member]

theorem applyChanges_self (distinct : m.Distinct) (stay : ∀ value ∈ m.values, value.isRemove = false) :
    m.applyChanges m = m := by
  refine applyChanges_eq_self fun change member => ?_
  rw [(get?_eq_some_iff distinct).mpr member, stay change.2 (mem_values_of_mem member)]
  rfl

end OrderedMap

namespace GridOf

open OrderedMap

/-! ## Changes of rows -/

/-- A change of a row can be made where its name stands for a row, or for none: what comes of it
fits, and no row is added that holds a removal. -/
inductive Applicable (version : Version) (change : Entity) : Option Entity → Prop where
  | removal {held : Option Entity} (gone : change.contains removalKey = true) :
      Applicable version change held
  | change {row : Entity} (stays : change.contains removalKey = false)
      (fits : ∀ value ∈ (row.applyChanges change).values, value.fits version = true) :
      Applicable version change (some row)
  | added (stays : change.contains removalKey = false)
      (fits : ∀ value ∈ change.values, value.fits version = true)
      (plain : ∀ value ∈ change.values, value.isRemove = false) : Applicable version change none

/-- What a change of a row asks for is so. -/
inductive Settled (version : Version) (change : Entity) : Option Entity → Prop where
  | gone (gone : change.contains removalKey = true) : Settled version change none
  | changed {row : Entity} (stays : change.contains removalKey = false)
      (same : row.applyChanges change = row)
      (fits : ∀ value ∈ row.values, value.fits version = true) : Settled version change (some row)

section Rows

variable {grid : Grid} {version : Version} {change row other : Entity} {id : Ref} {name : String}
  {changes rows : List Entity}

/-- A change that can be made settles the row of its name, and leaves the others alone. -/
theorem exists_patchRow (sound : SoundRows grid.rows) (isId : change.id? = some id)
    (distinct : change.Distinct)
    (applicable : Applicable grid.version change (rowNamed? id.name grid.rows)) :
    ∃ after held, (patchRow change).apply grid = (.ok (), grid.withRows after) ∧
      ChangedRow id.name held grid.rows after ∧ Settled grid.version change held := by
  generalize named : rowNamed? id.name grid.rows = held at applicable
  cases applicable with
  | removal gone =>
      cases found : grid.positionOf? id with
      | some position =>
          exact ⟨_, none, patchRow_remove isId gone found, changedRow_remove sound found, .gone gone⟩
      | none =>
          have absent : rowNamed? id.name grid.rows = none :=
            rowNamed?_eq_none_iff.mpr (lastWithId?_eq_none_iff.mp found)
          refine ⟨grid.rows, none, ?_, absent ▸ changedRow_refl sound, .gone gone⟩
          rw [patchRow, Edit.apply_get_bind]
          simp only [isId, found, gone, if_true]
          rfl
  | @change row stays fits =>
      obtain ⟨position, found, there⟩ := Option.bind_eq_some_iff.mp named
      have rowDistinct := sound.keys row (List.mem_of_getElem? there)
      have newId : (row.applyChanges change).get? "id" = some (.ref id) := by
        rw [get?_applyChanges rowDistinct distinct, Entity.id?_eq_some_iff.mp isId]
        rfl
      have known := Entity.name?_of_id? (Entity.id?_eq_some_iff.mpr newId)
      exact ⟨_, _, patchRow_set isId stays found there fits,
        changedRow_set sound found there (distinct_applyChanges rowDistinct) known,
        .changed stays (applyChanges_twice rowDistinct distinct) fits⟩
  | added stays fits plain =>
      have fresh : grid.positionOf? id = none :=
        lastWithId?_eq_none_iff.mpr (rowNamed?_eq_none_iff.mp named)
      refine ⟨_, _, patchRow_append stays (fun other isOther => ?_) fits,
        changedRow_append sound named distinct (Entity.name?_of_id? isId),
        .changed stays (applyChanges_self distinct plain) fits⟩
      rwa [Option.some.inj (isOther.symm.trans isId)]

/-- A change that is settled changes nothing. -/
theorem patchRow_settled (isId : change.id? = some id)
    (settled : Settled grid.version change (rowNamed? id.name grid.rows)) :
    (patchRow change).apply grid = (.ok (), grid) := by
  generalize named : rowNamed? id.name grid.rows = held at settled
  cases settled with
  | gone gone =>
      have absent : grid.positionOf? id = none :=
        lastWithId?_eq_none_iff.mpr (rowNamed?_eq_none_iff.mp named)
      rw [patchRow, Edit.apply_get_bind]
      simp only [isId, absent, gone, if_true]
      rfl
  | @changed row stays same fits =>
      obtain ⟨position, found, there⟩ := Option.bind_eq_some_iff.mp named
      rw [patchRow_set isId stays found there (by rwa [same]), same]
      obtain ⟨bound, rfl⟩ := List.getElem?_eq_some_iff.mp there
      rw [List.set_getElem_self, withRows]

/-- Changes of rows under distinct names can be made where each can. -/
structure Amends (version : Version) (rows changes : List Entity) : Prop where
  ids : DistinctIds changes
  distinct : ∀ change ∈ changes, change.Distinct
  applicable : ∀ change ∈ changes, ∃ id, change.id? = some id ∧
    Applicable version change (rowNamed? id.name rows)

/-- After changes are made all of them are settled. -/
theorem exists_patchRows (sound : SoundRows grid.rows) (amends : Amends grid.version grid.rows changes) :
    ∃ after, (patchRows changes).apply grid = (.ok (), grid.withRows after) ∧
      (∀ change ∈ changes, ∃ id, change.id? = some id ∧
        Settled grid.version change (rowNamed? id.name after)) ∧
      ∀ name, name ∉ idNames changes → rowNamed? name after = rowNamed? name grid.rows := by
  induction changes generalizing grid with
  | nil => exact ⟨grid.rows, rfl, by simp, fun _ _ => rfl⟩
  | cons change rest ih =>
      obtain ⟨ids, distinct, applicable⟩ := amends
      rw [List.forall_mem_cons] at distinct applicable
      obtain ⟨⟨id, isId, here⟩, others⟩ := applicable
      have known := Entity.name?_of_id? isId
      unfold DistinctIds at ids
      rw [idNames_cons_known known] at ids
      obtain ⟨fresh, restIds⟩ := List.nodup_cons.mp ids
      obtain ⟨middle, held, made, changed, settled⟩ := exists_patchRow sound isId distinct.1 here
      have apart : ∀ other ∈ rest, ∀ otherId, Entity.id? other = some otherId → otherId.name ≠ id.name :=
        fun other member otherId isOther same =>
          fresh (same ▸ mem_idNames.mpr ⟨other, member, Entity.name?_of_id? isOther⟩)
      have stillAmends : Amends grid.version middle rest := by
        refine ⟨restIds, distinct.2, fun other member => ?_⟩
        obtain ⟨otherId, isOther, otherApplicable⟩ := others other member
        refine ⟨otherId, isOther, ?_⟩
        rwa [changed.others _ (apart other member otherId isOther)]
      obtain ⟨after, madeRest, settledRest, unchanged⟩ :=
        @ih (grid.withRows middle) changed.sound stillAmends
      refine ⟨after, ?_, List.forall_mem_cons.mpr ⟨⟨id, isId, ?_⟩, settledRest⟩, fun name absent => ?_⟩
      · rw [patchRows, Edit.apply_bind made]
        exact madeRest
      · rw [unchanged id.name fresh]
        exact changed.here.symm ▸ settled
      · rw [idNames_cons_known known, List.mem_cons, not_or] at absent
        exact (unchanged name absent.2).trans (changed.others name absent.1)

/-- Changes that are all settled change nothing. -/
theorem patchRows_settled (settled : ∀ change ∈ changes, ∃ id, change.id? = some id ∧
    Settled grid.version change (rowNamed? id.name grid.rows)) :
    (patchRows changes).apply grid = (.ok (), grid) := by
  induction changes with
  | nil => rfl
  | cons change rest ih =>
      rw [List.forall_mem_cons] at settled
      obtain ⟨⟨id, isId, here⟩, others⟩ := settled
      rw [patchRows, Edit.apply_bind (patchRow_settled isId here)]
      exact ih others

/-! ## Rows of a difference -/

variable {right : Grid} {paired : Paired}

/-- A row with an id gives nothing, or one change of the row that can be made. -/
theorem differenceOfRow_of_known (plain : ∀ row ∈ right.rows, row.IsPlain)
    (fits : ∀ row ∈ right.rows, ∀ value ∈ row.values, value.fits version = true)
    (rowPlain : row.IsPlain) (isId : row.id? = some id) :
    (differenceOfRow right paired row).1 = [] ∨
      ∃ change, (differenceOfRow right paired row).1 = [change] ∧ change.Distinct ∧
        change.id? = some id ∧ Applicable version change (some row) := by
  cases found : right.positionOf? id with
  | none =>
      simp only [differenceOfRow, isId, found]
      exact .inr ⟨_, rfl, distinct_ofList _, rfl, .removal rfl⟩
  | some position =>
      obtain ⟨other, there, _⟩ := getElem?_of_lastWithId? found
      have member := List.mem_of_getElem? there
      have otherPlain := plain other member
      simp only [differenceOfRow, isId, found, there, Option.getD_some]
      split
      · exact .inl rfl
      · have distinct : ((row.changes other).insert "id" (.ref id)).Distinct :=
          distinct_insert distinct_changes _ _
        have fitting : ∀ value ∈ ((row.changes other).insert "id" (.ref id)).values,
            value.fits version = true := by
          intro value inside
          rcases mem_values_insert inside with rfl | changed
          · rfl
          · exact fits_changes rowPlain.distinct otherPlain.distinct (fits other member) value changed
        refine .inr ⟨_, rfl, distinct, Entity.id?_eq_some_iff.mpr (by rw [get?_insert, if_pos rfl]),
          .change (stays_changes_insert_id rowPlain otherPlain id)
            (fits_applyChanges rowPlain.distinct distinct fitting fun key held unchanged present => ?_)⟩
        rw [get?_insert] at unchanged
        split at unchanged
        · cases unchanged
        · exact fits_of_unchanged rowPlain.distinct otherPlain.distinct (fits other member) unchanged
            present

/-- What rows with ids give, under names of their own. -/
theorem differenceOfRows_of_known (plain : ∀ row ∈ right.rows, row.IsPlain)
    (fits : ∀ row ∈ right.rows, ∀ value ∈ row.values, value.fits version = true)
    (rowsPlain : ∀ row ∈ rows, row.IsPlain) (known : ∀ row ∈ rows, row.id?.isSome = true) :
    (idNames (differenceOfRows right paired rows).1).Sublist (idNames rows) ∧
      ∀ change ∈ (differenceOfRows right paired rows).1, change.Distinct ∧ ∃ id, ∃ row ∈ rows,
        change.id? = some id ∧ row.id? = some id ∧ Applicable version change (some row) := by
  induction rows generalizing paired with
  | nil => exact ⟨List.Sublist.refl _, fun _ none => (List.not_mem_nil none).elim⟩
  | cons row rest ih =>
      rw [List.forall_mem_cons] at rowsPlain known
      obtain ⟨id, isId⟩ := Option.isSome_iff_exists.mp known.1
      obtain ⟨fewer, others⟩ := @ih (differenceOfRow right paired row).2 rowsPlain.2 known.2
      have later : ∀ change ∈ (differenceOfRows right (differenceOfRow right paired row).2 rest).1,
          change.Distinct ∧ ∃ id, ∃ held ∈ row :: rest, change.id? = some id ∧ held.id? = some id ∧
            Applicable version change (some held) := by
        intro change member
        obtain ⟨distinct, otherId, held, inRest, applies⟩ := others change member
        exact ⟨distinct, otherId, held, List.mem_cons_of_mem _ inRest, applies⟩
      rw [idNames_cons_known (Entity.name?_of_id? isId)]
      change (idNames ((differenceOfRow right paired row).1 ++
        (differenceOfRows right (differenceOfRow right paired row).2 rest).1)).Sublist _ ∧
          ∀ change ∈ (differenceOfRow right paired row).1 ++
            (differenceOfRows right (differenceOfRow right paired row).2 rest).1, _
      have first : (differenceOfRow right paired row).1 = [] ∨
          ∃ change, (differenceOfRow right paired row).1 = [change] ∧ change.Distinct ∧
            change.id? = some id ∧ Applicable version change (some row) :=
        differenceOfRow_of_known plain fits rowsPlain.1 isId
      rcases first with none | ⟨change, one, distinct, changeId, applicable⟩
      · rw [none, List.nil_append]
        exact ⟨fewer.cons _, later⟩
      · rw [one, List.singleton_append, idNames_cons_known (Entity.name?_of_id? changeId)]
        exact ⟨fewer.cons_cons _, List.forall_mem_cons.mpr
          ⟨⟨distinct, id, row, List.mem_cons_self, changeId, isId, applicable⟩, later⟩⟩

end Rows

/-! ## Grids -/

/-- A grid of rows that all have ids, with no reserved key and no removal of its own. -/
structure Identified (grid : Grid) : Prop where
  known : ∀ row ∈ grid.rows, (Entity.id? row).isSome = true
  ids : DistinctIds grid.rows
  metadata : grid.metadata.IsPlain
  columns : PlainColumns grid.columns
  rows : ∀ row ∈ grid.rows, row.IsPlain

section Grids

variable {left right : Grid}

/-- The rows of a difference between such grids can be applied to those on the left. -/
theorem amends_difference {version : Version} (leftIdentified : left.Identified)
    (rightIdentified : right.Identified)
    (fits : ∀ row ∈ right.rows, ∀ value ∈ row.values, value.fits version = true) :
    Amends version left.rows (left.difference right).rows := by
  obtain ⟨fewer, changed⟩ := @differenceOfRows_of_known version left.rows right []
    rightIdentified.rows fits leftIdentified.rows leftIdentified.known
  have names {name : String} :
      name ∈ idNames (unpaired right.rows (differenceOfRows right [] left.rows).2) ↔
        name ∈ idNames (unpaired right.rows []) ∧ name ∉ idNames left.rows :=
    mem_idNames_unpaired_differenceOfRows rightIdentified.ids
  change Amends version left.rows ((differenceOfRows right [] left.rows).1 ++
    unpaired right.rows (differenceOfRows right [] left.rows).2)
  refine ⟨?_, fun change member => ?_, fun change member => ?_⟩
  · unfold DistinctIds
    rw [idNames_append, List.nodup_append]
    refine ⟨fewer.nodup leftIdentified.ids, distinctIds_unpaired rightIdentified.ids, ?_⟩
    rintro name inChanged _ leftOver rfl
    exact (names.mp leftOver).2 (fewer.subset inChanged)
  · rcases List.mem_append.mp member with inChanged | leftOver
    · exact (changed change inChanged).1
    · exact (rightIdentified.rows change (mem_of_mem_unpaired leftOver)).distinct
  · rcases List.mem_append.mp member with inChanged | leftOver
    · obtain ⟨_, id, row, inLeft, changeId, isId, applicable⟩ := changed change inChanged
      refine ⟨id, changeId, ?_⟩
      rwa [(rowNamed?_eq_some_iff leftIdentified.ids).mpr ⟨inLeft, Entity.name?_of_id? isId⟩]
    · have inRight := mem_of_mem_unpaired leftOver
      obtain ⟨id, isId⟩ := Option.isSome_iff_exists.mp (rightIdentified.known change inRight)
      have absent := (names.mp (mem_idNames.mpr ⟨change, leftOver, Entity.name?_of_id? isId⟩)).2
      have plain := rightIdentified.rows change inRight
      refine ⟨id, isId, ?_⟩
      rw [rowNamed?_eq_none_iff.mpr absent]
      exact .added plain.contains_removalKey (fits change inRight) plain.values

/-- A column that is patched already is as the difference has it. -/
theorem patchColumns_patchedColumns {left right : Columns} (leftPlain : PlainColumns left)
    (rightPlain : PlainColumns right) (rows : List Entity) :
    patchColumns (patchedColumns left right) (declareRemovals (differenceColumns left right) rows) =
      patchedColumns left right := by
  have distinct : (patchedColumns left right).Distinct := by
    rw [Distinct, keys_patchedColumns]
    exact rightPlain.distinct
  rw [patchColumns_eq leftPlain rightPlain]
  refine congrArg OrderedMap.mk (List.map_congr_left fun item member => ?_)
  have held : (patchedColumns left right).get? item.1 = some (patchedColumn left item) :=
    (get?_eq_some_iff distinct).mpr (List.mem_map_of_mem member)
  rw [held, Option.getD_some]
  unfold patchedColumn changesOfColumn
  cases found : left.get? item.1 with
  | some old =>
      rw [Option.getD_some,
        applyChanges_twice (leftPlain.held old (mem_values_of_get? found)).distinct distinct_changes]
  | none =>
      rw [Option.getD_none,
        applyChanges_twice distinct_empty (rightPlain.held item.2 (mem_values_of_mem member)).distinct]

/-- A difference between grids of rows with ids that was applied once changes nothing more. -/
theorem patch_replayed (leftIdentified : left.Identified) (rightIdentified : right.Identified)
    (fits : ∀ part ∈ right.values, part.fits right.version = true) :
    ∃ merged, left.patch (left.difference right) = .ok merged ∧
      merged.patch (left.difference right) = .ok merged := by
  let metadata := left.metadata.applyChanges (left.metadata.changes right.metadata)
  have metadataFits : ∀ value ∈ metadata.values, value.fits right.version = true :=
    fits_changed leftIdentified.metadata.distinct rightIdentified.metadata.distinct fun part inside =>
      fits part (mem_values_of_metadata inside)
  let columns := patchedColumns left.columns right.columns
  have columnsFit : ∀ held ∈ columns.values, ∀ value ∈ held.values,
      value.fits right.version = true :=
    fits_patchedColumns leftIdentified.columns rightIdentified.columns fun held inColumns part inside =>
      fits part (mem_values_of_column inColumns inside)
  let declared : Grid := ⟨right.version, right.pinned, metadata, columns, left.rows⟩
  have sound : SoundRows declared.rows :=
    ⟨leftIdentified.ids, fun row member => (leftIdentified.rows row member).distinct⟩
  have amends : Amends right.version left.rows (left.difference right).rows :=
    amends_difference leftIdentified rightIdentified fun row member part inside =>
      fits part (mem_values_of_row member inside)
  obtain ⟨after, patches, settled, _⟩ := @exists_patchRows declared _ sound amends
  refine ⟨declared.withRows after, ?_, ?_⟩
  · exact patch_eq (patchMetadata_differenceMetadata leftIdentified.metadata rightIdentified.metadata)
      metadataFits (patchColumns_differenceColumns leftIdentified.columns rightIdentified.columns _)
      columnsFit patches
  · have metadataStays : metadata.applyChanges (left.metadata.changes right.metadata) = metadata :=
      applyChanges_twice leftIdentified.metadata.distinct distinct_changes
    exact patch_eq ((patchMetadata_differenceMetadata leftIdentified.metadata
        rightIdentified.metadata).trans metadataStays)
      metadataFits (patchColumns_patchedColumns leftIdentified.columns rightIdentified.columns _)
      columnsFit (@patchRows_settled (declared.withRows after) _ settled)

/-- Rooms with ids, one of which is to go. -/
def roomsBefore : Grid where
  version := .three
  pinned := false
  metadata := ⟨[("dis", .str "Rooms"), ("draft", .marker)]⟩
  columns := ⟨[("id", .empty), ("dis", ⟨[("doc", .str "a name"), ("old", .marker)]⟩)]⟩
  rows := [⟨[("id", .ref ⟨"cellar", none⟩), ("dis", .str "Cellar")]⟩,
    ⟨[("id", .ref ⟨"attic", none⟩)]⟩]

/-- The rooms later on: one has new tags, one is gone and one is new. -/
def roomsAfter : Grid where
  version := .three
  pinned := true
  metadata := ⟨[("dis", .str "All rooms")]⟩
  columns := ⟨[("dis", ⟨[("doc", .str "the name")]⟩), ("id", .empty), ("area", .empty)]⟩
  rows := [⟨[("id", .ref ⟨"hall", none⟩), ("dis", .na)]⟩,
    ⟨[("area", .number ⟨.zero false, some "m"⟩), ("id", .ref ⟨"cellar", some "C"⟩)]⟩]

theorem patch_replayed_rooms : roomsBefore.Identified ∧ roomsAfter.Identified ∧
    (∀ part ∈ roomsAfter.values, part.fits roomsAfter.version = true) ∧
    ∃ merged, roomsBefore.patch (roomsBefore.difference roomsAfter) = .ok merged ∧
      merged.patch (roomsBefore.difference roomsAfter) = .ok merged := by
  have before : roomsBefore.Identified := ⟨by decide, by decide, by decide, by decide, by decide⟩
  have after : roomsAfter.Identified := ⟨by decide, by decide, by decide, by decide, by decide⟩
  have fits : ∀ part ∈ roomsAfter.values, part.fits roomsAfter.version = true := by decide
  exact ⟨before, after, fits, patch_replayed before after fits⟩

end Grids

end GridOf

end Haystack
