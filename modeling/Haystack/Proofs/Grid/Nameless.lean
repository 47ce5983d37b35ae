import Haystack.Proofs.Grid.Difference
import Haystack.Proofs.Pairing.Leftover
import Haystack.Proofs.Value.Symmetry

/-!
Differences between grids of rows without ids, numbers included.

Such rows are matched by their values alone, and within a tolerance: when the difference is taken,
when the removal of a row looks for it, and when grids are compared. Being near is not transitive, so
that the removal of one row may take out another that is near to it.
-/
namespace Haystack.GridOf

open OrderedMap Value Pairing

section Rows

variable {right grid : Grid} {rows : List Entity} {row : Entity} {paired : Paired} {position : Nat}

/-! ## Pairs of rows without ids -/

/-- The rows that are left over, around one of them. -/
theorem unpaired_of_split {before after : List (Entity × Nat)}
    (shape : rows.zipIdx = before ++ (row, position) :: after) (free : position ∉ paired) :
    unpaired rows paired = (before.filter fun other => !paired.contains other.2).map (·.1) ++
        row :: (after.filter fun other => !paired.contains other.2).map (·.1) ∧
      unpaired rows (position :: paired) =
        (before.filter fun other => !paired.contains other.2).map (·.1) ++
          (after.filter fun other => !paired.contains other.2).map (·.1) := by
  have places : (before.map Prod.snd ++ position :: after.map Prod.snd).Nodup := by
    have all : (rows.zipIdx.map Prod.snd).Nodup := by
      rw [List.zipIdx_map_snd]
      exact List.nodup_range'
    rwa [shape, List.map_append, List.map_cons] at all
  have fresh := (List.nodup_cons.mp (List.perm_middle.nodup_iff.mp places)).1
  rw [← List.map_append] at fresh
  have elsewhere : ∀ other ∈ before ++ after,
      (!(position :: paired).contains other.2) = !paired.contains other.2 := by
    intro other member
    have differs : other.2 ≠ position := fun same => fresh (same ▸ List.mem_map_of_mem member)
    simp [differs]
  have same (part : List (Entity × Nat)) (within : part ⊆ before ++ after) :
      (part.filter fun other => !(position :: paired).contains other.2) =
        part.filter fun other => !paired.contains other.2 :=
    List.filter_congr fun other member => elsewhere other (within member)
  refine ⟨by simp [unpaired, shape, free], ?_⟩
  rw [unpaired, shape, List.filter_append, same before (List.subset_append_left ..),
    List.filter_cons_of_neg (by simp), same after (List.subset_append_right ..), List.map_append]

/-- The row that is paired by its position is the one that is found, and it pends no more. -/
theorem unpaired_of_partnerOf? (unknown : ∀ row ∈ rows, row.contains "id" = false)
    (found : partnerOf? rows paired row = some position) :
    (∃ partner, (unpaired rows paired).find? (nearEntity row) = some partner) ∧
      unpaired rows (position :: paired) = (unpaired rows paired).eraseP (nearEntity row) := by
  obtain ⟨⟨partner, place⟩, isFound, rfl⟩ := Option.map_eq_some_iff.mp found
  obtain ⟨accepted, before, after, shape, rejected⟩ := List.find?_eq_some_iff_append.mp isFound
  simp only [Bool.and_eq_true, Bool.not_eq_true', List.contains_eq_mem, decide_eq_false_iff_not]
    at accepted
  obtain ⟨⟨free, _⟩, near⟩ := accepted
  obtain ⟨here, without⟩ := unpaired_of_split shape free
  have far : ∀ other ∈ (before.filter fun other => !paired.contains other.2).map (·.1),
      ¬ nearEntity row other = true := by
    intro other member
    obtain ⟨pair, inFilter, rfl⟩ := List.mem_map.mp member
    obtain ⟨inBefore, isFree⟩ := List.mem_filter.mp inFilter
    have inRows : pair.1 ∈ rows := by
      have inAll : pair ∈ rows.zipIdx := shape ▸ List.mem_append_left _ inBefore
      exact List.mem_of_getElem? (List.mem_zipIdx_iff_getElem?.mp inAll)
    have isRejected := rejected pair inBefore
    rw [isFree, unknown pair.1 inRows] at isRejected
    simpa [Entity.near] using isRejected
  have near : nearEntity row partner = true := near
  rw [here, without, List.eraseP_append_right _ far, List.eraseP_cons_of_pos near]
  refine ⟨⟨partner, ?_⟩, rfl⟩
  rw [List.find?_append, List.find?_eq_none.mpr far, Option.none_or, List.find?_cons_of_pos near]

theorem find?_unpaired_of_none (unknown : ∀ row ∈ rows, row.contains "id" = false)
    (nothing : partnerOf? rows paired row = none) :
    (unpaired rows paired).find? (nearEntity row) = none := by
  refine List.find?_eq_none.mpr fun other member near => ?_
  obtain ⟨position, found⟩ := exists_partnerOf? member (unknown other (mem_of_mem_unpaired member)) near
  rw [nothing] at found
  cases found

/-- Rows without ids give the removals of those that find no partner, and leave over what no row
takes. -/
theorem differenceOfRows_of_unknown (leftUnknown : ∀ row ∈ rows, row.id? = none)
    (unknown : ∀ row ∈ right.rows, row.contains "id" = false) :
    (differenceOfRows right paired rows).1 =
        (unmatched nearEntity rows (unpaired right.rows paired)).map (·.insert removalKey .remove) ∧
      unpaired right.rows (differenceOfRows right paired rows).2 =
        leftover nearEntity rows (unpaired right.rows paired) := by
  induction rows generalizing paired with
  | nil => exact ⟨rfl, rfl⟩
  | cons row rest ih =>
      rw [List.forall_mem_cons] at leftUnknown
      obtain ⟨removals, remaining⟩ := @ih (differenceOfRow right paired row).2 leftUnknown.2
      change (differenceOfRow right paired row).1 ++
          (differenceOfRows right (differenceOfRow right paired row).2 rest).1 = _ ∧
        unpaired right.rows (differenceOfRows right (differenceOfRow right paired row).2 rest).2 = _
      rw [removals, remaining, leftover]
      cases found : partnerOf? right.rows paired row with
      | none =>
          have nothing := find?_unpaired_of_none unknown found
          have gives : differenceOfRow right paired row = ([row.insert removalKey .remove], paired) := by
            simp [differenceOfRow, leftUnknown.1, found]
          rw [gives, eraseP_of_find?_none nothing, unmatched_cons_of_none nothing]
          exact ⟨rfl, rfl⟩
      | some position =>
          obtain ⟨⟨partner, isPartner⟩, remains⟩ := unpaired_of_partnerOf? unknown found
          have gives : differenceOfRow right paired row = ([], position :: paired) := by
            simp [differenceOfRow, leftUnknown.1, found]
          rw [gives, remains, unmatched_cons_of_some isPartner]
          exact ⟨rfl, rfl⟩

/-- Removals of rows without ids take out, for each of them, the first row that is near. -/
theorem patchRows_removals (unknown : ∀ row ∈ rows, row.id? = none)
    (fresh : ∀ row ∈ rows, row.contains removalKey = false) :
    (patchRows (rows.map (·.insert removalKey .remove))).apply grid =
      (.ok (), grid.withRows (removeEach nearEntity grid.rows rows)) := by
  induction rows generalizing grid with
  | nil => rfl
  | cons row rest ih =>
      rw [List.forall_mem_cons] at unknown fresh
      rw [List.map_cons, patchRows, Edit.apply_bind (patchRow_removal fresh.1 unknown.1),
        ih unknown.2 fresh.2]
      rfl

end Rows

/-! ## Grids -/

/-- A grid with distinct keys at all depths, without reserved keys and removals of its own, of which
no row has an id. -/
structure Nameless (grid : Grid) : Prop where
  plain : grid.Plain
  unknown : ∀ row ∈ grid.rows, row.contains "id" = false

section Grids

variable {left right : Grid} {rows : List Entity}

theorem id?_eq_none_of_not_contains {row : Entity} (noId : row.contains "id" = false) :
    row.id? = none := by
  rw [Entity.id?, get?_eq_none_iff.mpr (contains_eq_false_iff.mp noId)]
  rfl

theorem idNames_of_unknown (unknown : ∀ row ∈ rows, row.id? = none) : idNames rows = [] :=
  List.filterMap_eq_nil_iff.mpr fun row member => Entity.id?_eq_none_iff.mp (unknown row member)

theorem anonymous_of_unknown (unknown : ∀ row ∈ rows, row.id? = none) : anonymous rows = rows :=
  List.filter_eq_self.mpr fun row member => by simp [unknown row member]

/-- Rows without ids are near if there are as many and they pair off. -/
theorem rowsNear_of_unknown {others : List Entity} (unknown : ∀ row ∈ rows, row.id? = none)
    (otherUnknown : ∀ row ∈ others, row.id? = none) (sizes : rows.length = others.length)
    (pairs : pairsOff nearEntity rows others = true) : RowsNear rows others := by
  refine ⟨fun name => ?_, ?_, ?_⟩
  · rw [rowNamed?_eq_none_iff.mpr (by simp [idNames_of_unknown unknown]),
      rowNamed?_eq_none_iff.mpr (by simp [idNames_of_unknown otherUnknown])]
    exact .none
  · rwa [anonymous_of_unknown unknown, anonymous_of_unknown otherUnknown]
  · rwa [anonymous_of_unknown unknown, anonymous_of_unknown otherUnknown]

theorem Nameless.id?_eq_none (nameless : left.Nameless) : ∀ row ∈ left.rows, Entity.id? row = none :=
  fun row member => id?_eq_none_of_not_contains (nameless.unknown row member)

theorem Nameless.near_refl (nameless : left.Nameless) :
    ∀ row ∈ left.rows, nearEntity row row = true :=
  fun row member => nearEntity_refl (nameless.plain.rows row member).distinct fun part inside =>
    nameless.plain.near_refl part (mem_values_of_row member inside)

/-- The rows of the left once a difference is applied to them. -/
def patchedRows (left right : List Entity) : List Entity :=
  removeEach nearEntity left (unmatched nearEntity left right) ++ leftover nearEntity left right

theorem patchRows_difference_nameless (leftNameless : left.Nameless) (rightNameless : right.Nameless)
    {grid : Grid} (start : grid.rows = left.rows)
    (fits : ∀ row ∈ right.rows, ∀ part ∈ row.values, part.fits grid.version = true) :
    (patchRows (left.difference right).rows).apply grid =
      (.ok (), grid.withRows (patchedRows left.rows right.rows)) := by
  obtain ⟨removals, remaining⟩ := @differenceOfRows_of_unknown right left.rows []
    leftNameless.id?_eq_none rightNameless.unknown
  rw [unpaired_nil] at removals remaining
  have rows : (left.difference right).rows =
      (unmatched nearEntity left.rows right.rows).map (·.insert removalKey .remove) ++
        leftover nearEntity left.rows right.rows := by
    rw [← removals, ← remaining]
    rfl
  have unmatchedIn : (unmatched nearEntity left.rows right.rows).Sublist left.rows := unmatched_sublist
  have leftoverIn : (leftover nearEntity left.rows right.rows).Sublist right.rows := leftover_sublist
  have removes := @patchRows_removals grid (unmatched nearEntity left.rows right.rows)
    (fun row member => leftNameless.id?_eq_none row (unmatchedIn.subset member))
    fun row member => (leftNameless.plain.rows row (unmatchedIn.subset member)).contains_removalKey
  rw [start] at removes
  have noNames : idNames (removeEach nearEntity left.rows (unmatched nearEntity left.rows right.rows) ++
      leftover nearEntity left.rows right.rows) = [] := by
    refine idNames_of_unknown fun row member => ?_
    rcases List.mem_append.mp member with kept | added
    · exact leftNameless.id?_eq_none row (removeEach_sublist.subset kept)
    · exact rightNameless.id?_eq_none row (leftoverIn.subset added)
  rw [rows, patchRows_append removes]
  refine patchRows_fresh ?_ (fun row member => ?_) fun row member => fits row (leftoverIn.subset member)
  · unfold DistinctIds
    exact noNames ▸ List.nodup_nil
  · exact (rightNameless.plain.rows row (leftoverIn.subset member)).contains_removalKey

/-- Nearness is transitive among rows: no row lies between two that are not near to one another. -/
def NearTransitively (rows : List Entity) : Prop :=
  ∀ a ∈ rows, ∀ b ∈ rows, ∀ c ∈ rows, nearEntity a b = true → nearEntity b c = true →
    nearEntity a c = true

instance (rows : List Entity) : Decidable (NearTransitively rows) :=
  inferInstanceAs (Decidable (∀ a ∈ rows, ∀ b ∈ rows, ∀ c ∈ rows, nearEntity a b = true →
    nearEntity b c = true → nearEntity a c = true))

theorem Nameless.near_comm (leftNameless : left.Nameless) (rightNameless : right.Nameless) :
    ∀ row ∈ left.rows, ∀ other ∈ right.rows, nearEntity row other = nearEntity other row :=
  fun row inLeft other inRight => nearEntity_comm (leftNameless.plain.rows row inLeft).distinct
    (rightNameless.plain.rows other inRight).distinct fun _ inside _ otherInside =>
      Value.near_comm (leftNameless.plain.keyed.inside (mem_values_of_row inLeft inside))
        (rightNameless.plain.keyed.inside (mem_values_of_row inRight otherInside))

theorem NearTransitively.equivalence (transitive : NearTransitively (left.rows ++ right.rows))
    (leftNameless : left.Nameless) (rightNameless : right.Nameless) :
    EquivalenceOn (· ∈ left.rows ++ right.rows) nearEntity where
  refl := by
    intro row member
    rcases List.mem_append.mp member with inLeft | inRight
    · exact leftNameless.near_refl row inLeft
    · exact rightNameless.near_refl row inRight
  symm := by
    intro row other member otherMember near
    rw [← near]
    rcases List.mem_append.mp member with inLeft | inRight <;>
      rcases List.mem_append.mp otherMember with otherLeft | otherRight
    · exact leftNameless.near_comm leftNameless other otherLeft row inLeft
    · exact rightNameless.near_comm leftNameless other otherRight row inLeft
    · exact leftNameless.near_comm rightNameless other otherLeft row inRight
    · exact rightNameless.near_comm rightNameless other otherRight row inRight
  trans := fun aIn bIn cIn => transitive _ aIn _ bIn _ cIn

/-- Each removal takes out its own row, or one that is as good. -/
theorem rowsNear_patchedRows (leftNameless : left.Nameless) (rightNameless : right.Nameless)
    (apart : TellsApart nearEntity left.rows right.rows ∨
      NearTransitively (left.rows ++ right.rows)) :
    RowsNear (patchedRows left.rows right.rows) right.rows := by
  have unknown : ∀ row ∈ patchedRows left.rows right.rows, row.id? = none := by
    intro row member
    rcases List.mem_append.mp member with kept | added
    · exact leftNameless.id?_eq_none row (removeEach_sublist.subset kept)
    · exact rightNameless.id?_eq_none row (leftover_sublist.subset added)
  obtain ⟨sizes, pairs⟩ : (patchedRows left.rows right.rows).length = right.rows.length ∧
      pairsOff nearEntity (patchedRows left.rows right.rows) right.rows = true := by
    rcases apart with apart | transitive
    · rw [patchedRows, removeEach_unmatched apart leftNameless.near_refl, List.length_append]
      exact ⟨length_matched_add_leftover, pairsOff_matched_leftover rightNameless.near_refl⟩
    · exact pairsOff_of_equivalence (transitive.equivalence leftNameless rightNameless)
        (fun row inLeft => List.mem_append_left _ inLeft) fun row inRight => List.mem_append_right _ inRight
  exact rowsNear_of_unknown unknown rightNameless.id?_eq_none sizes pairs

/-- A difference of grids without ids can be applied, and gives the right grid if each removal finds
its own row, or nearness is transitive. -/
theorem patch_difference_nameless (leftNameless : left.Nameless) (rightNameless : right.Nameless)
    (fits : ∀ part ∈ right.values, part.fits right.version = true) :
    ∃ merged, left.patch (left.difference right) = .ok merged ∧
      (TellsApart nearEntity left.rows right.rows ∨ NearTransitively (left.rows ++ right.rows) →
        merged.near right = true) ∧
      (TellsApart nearEntity left.rows right.rows → merged.rows =
        matched nearEntity left.rows right.rows ++ leftover nearEntity left.rows right.rows) := by
  have leftPlain := leftNameless.plain
  have rightPlain := rightNameless.plain
  obtain ⟨metadataDistinct, metadataAgrees⟩ := nearMetadata_patched leftPlain rightPlain
  have metadataFits := fits_changed leftPlain.metadata.distinct rightPlain.metadata.distinct
    fun part inside => fits part (mem_values_of_metadata inside)
  have columnsFit := fits_patchedColumns leftPlain.columns rightPlain.columns
    fun held inColumns part inside => fits part (mem_values_of_column inColumns inside)
  let declared : Grid := ⟨right.version, right.pinned,
    left.metadata.applyChanges (left.metadata.changes right.metadata),
    patchedColumns left.columns right.columns, left.rows⟩
  have patches := @patchRows_difference_nameless left right leftNameless rightNameless declared rfl
    fun row member part inside => fits part (mem_values_of_row member inside)
  refine ⟨declared.withRows (patchedRows left.rows right.rows), ?_, fun apart => ?_, fun apart => ?_⟩
  · exact patch_eq (patchMetadata_differenceMetadata leftPlain.metadata rightPlain.metadata) metadataFits
      (patchColumns_differenceColumns leftPlain.columns rightPlain.columns _) columnsFit patches
  · have rowsNear := rowsNear_patchedRows leftNameless rightNameless apart
    have rightIds : DistinctIds right.rows := rightPlain.keyed.here.2.2.2.2
    have noNames : idNames (patchedRows left.rows right.rows) = [] :=
      List.eq_nil_iff_forall_not_mem.mpr fun name member => by
        have inRight := rowsNear.mem_idNames_iff.mp member
        rw [idNames_of_unknown rightNameless.id?_eq_none] at inRight
        exact List.not_mem_nil inRight
    have ids : DistinctIds (patchedRows left.rows right.rows) := by
      rw [DistinctIds, noNames]
      exact List.nodup_nil
    exact (nearGrid_iff ids rightIds).mpr
      ⟨(nearMetadata_iff metadataDistinct rightPlain.metadata.distinct).mpr metadataAgrees,
        nearColumns_patched leftPlain rightPlain, rowsNear⟩
  · change patchedRows left.rows right.rows = _
    rw [patchedRows, removeEach_unmatched apart leftNameless.near_refl]

/-- What a gauge shows. -/
def gauge (magnitude : Binary64) : Entity := ⟨[("value", .number (.plain magnitude))]⟩

/-- Gauges without ids. -/
def gauges (magnitudes : List Binary64) : Grid :=
  { GridOf.new with
    columns := ⟨[("value", .empty)]⟩
    rows := magnitudes.map gauge }

theorem nameless_of_leaves {grid : Grid} (keyed : Keyed (.grid grid))
    (leaves : ∀ part ∈ grid.values, part.Keyed ∧ part.children = [])
    (metadata : grid.metadata.IsPlain) (columns : PlainColumns grid.columns)
    (rows : ∀ row ∈ grid.rows, row.IsPlain) (unknown : ∀ row ∈ grid.rows, row.contains "id" = false) :
    grid.Nameless where
  plain :=
    { keyed := .intro _ keyed fun part member =>
        throughout_of_childless (leaves part member).1 (leaves part member).2
      metadata, columns, rows }
  unknown := unknown

theorem patch_difference_nameless_gauges :
    let before := gauges [.zero false, .nearest false 1 1]
    let after := gauges [.nearest false 5 10000000, .nearest false 2 1]
    before.Nameless ∧ after.Nameless ∧ (∀ part ∈ after.values, part.fits after.version = true) ∧
      TellsApart nearEntity before.rows after.rows ∧
      ∃ merged, before.patch (before.difference after) = .ok merged ∧ merged.near after = true ∧
        merged.rows = matched nearEntity before.rows after.rows ++
          leftover nearEntity before.rows after.rows := by
  intro before after
  have beforeNameless : before.Nameless := nameless_of_leaves (by decide) (by decide) (by decide)
    (by decide) (by decide) (by decide)
  have afterNameless : after.Nameless := nameless_of_leaves (by decide) (by decide) (by decide)
    (by decide) (by decide) (by decide)
  have fits : ∀ part ∈ after.values, part.fits after.version = true := by decide
  have apart : TellsApart nearEntity before.rows after.rows := by decide +kernel
  obtain ⟨merged, patched, near, rows⟩ := patch_difference_nameless beforeNameless afterNameless fits
  exact ⟨beforeNameless, afterNameless, fits, apart, merged, patched, near (.inl apart), rows apart⟩

/-- The second gauge on the left is gone on the right, and the first is near to both the second one
and the one on the right: the removal takes the first. -/
theorem not_patch_difference_nameless :
    let before := gauges [.zero false, .nearest false 8 10000000]
    let after := gauges [.nearest true 9 10000000]
    before.Nameless ∧ after.Nameless ∧ (∀ part ∈ after.values, part.fits after.version = true) ∧
      ¬ ∃ merged, before.patch (before.difference after) = .ok merged ∧ merged.near after = true := by
  intro before after
  have beforeNameless : before.Nameless := nameless_of_leaves (by decide) (by decide) (by decide)
    (by decide) (by decide) (by decide)
  have afterNameless : after.Nameless := nameless_of_leaves (by decide) (by decide) (by decide)
    (by decide) (by decide) (by decide)
  refine ⟨beforeNameless, afterNameless, by decide, ?_⟩
  rintro ⟨merged, patched, near⟩
  have differs : (before.patch (before.difference after)).toOption.map (·.near after) = some false := by
    decide +kernel
  rw [patched] at differs
  simp [Except.toOption, near] at differs

end Grids

end Haystack.GridOf
