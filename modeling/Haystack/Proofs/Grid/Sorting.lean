import Haystack.Grid.Selection
import Haystack.Proofs.OrderedMap
import Haystack.Proofs.Value.Order
import Mathlib.Data.List.Perm.Basic

/-!
Rows sorted by a tag.

The order of values is a total preorder as long as no number is a NaN and all numbers have one unit,
or all have none. Rows with such values under a tag are sorted by it: those without the tag stand in
front, each row with it comes before all that are greater, and equal rows keep their order.
-/
namespace Haystack

/-! ## Sorting by an order of what is listed -/

namespace Sorting

variable {α : Type} {le : α → α → Bool} {items part : List α}

/-- An order that is total and transitive among the elements of a list. -/
structure TotalAmong (le : α → α → Bool) (items : List α) : Prop where
  total : ∀ a ∈ items, ∀ b ∈ items, (le a b || le b a) = true
  trans : ∀ a ∈ items, ∀ b ∈ items, ∀ c ∈ items, le a b = true → le b c = true → le a c = true

/-- Sorting sees nothing but the elements of the list. -/
theorem mergeSort_attach (le : α → α → Bool) (items : List α) :
    (items.attach.mergeSort fun a b => le a.val b.val).map Subtype.val = items.mergeSort le := by
  have mapped := @List.map_mergeSort _ _ (fun a b => le a.val b.val) le Subtype.val items.attach
    fun _ _ _ _ => rfl
  rwa [List.attach_map_subtype_val] at mapped

theorem TotalAmong.pairwise (among : TotalAmong le items) :
    (items.mergeSort le).Pairwise fun a b => le a b = true := by
  rw [← mergeSort_attach, List.pairwise_map]
  exact @List.pairwise_mergeSort { item // item ∈ items } (fun a b => le a b)
    (fun a b c => among.trans a a.2 b b.2 c c.2) (fun a b => among.total a a.2 b b.2) items.attach

theorem TotalAmong.sublist (among : TotalAmong le items) (sublist : part.Sublist items)
    (sorted : part.Pairwise fun a b => le a b = true) : part.Sublist (items.mergeSort le) := by
  rw [← List.attach_map_subtype_val items] at sublist
  obtain ⟨attached, inAttached, rfl⟩ := List.sublist_map_iff.mp sublist
  rw [← mergeSort_attach]
  exact (@List.sublist_mergeSort { item // item ∈ items } (fun a b => le a b) items.attach
    (fun a b c => among.trans a a.2 b b.2 c c.2) (fun a b => among.total a a.2 b b.2) attached
    (List.pairwise_map.mp sorted) inAttached).map _

/-- A sort is stable: elements that stand in order already, such as equal ones, keep their order. -/
theorem TotalAmong.filter_mergeSort (among : TotalAmong le items) (keep : α → Bool)
    (sorted : (items.filter keep).Pairwise fun a b => le a b = true) :
    (items.mergeSort le).filter keep = items.filter keep := by
  have kept : (items.filter keep).Sublist ((items.mergeSort le).filter keep) := by
    have filtered := (among.sublist List.filter_sublist sorted).filter keep
    simpa only [List.filter_filter, Bool.and_self] using filtered
  exact (kept.eq_of_length ((List.mergeSort_perm items le).filter keep).length_eq.symm).symm

/-- Where nothing to keep follows what is left out, what is kept stands in front. -/
theorem eq_filter_append_of_pairwise {keep : α → Bool}
    (front : items.Pairwise fun a b => keep b = true → keep a = true) :
    items = items.filter keep ++ items.filter (!keep ·) := by
  induction items with
  | nil => rfl
  | cons first rest ih =>
      obtain ⟨before, front⟩ := List.pairwise_cons.mp front
      cases kept : keep first with
      | true => simp [kept, ← ih front]
      | false =>
          have none : rest.filter keep = [] := List.filter_eq_nil_iff.mpr fun item member isKept => by
            rw [before item member isKept] at kept
            contradiction
          have all : rest.filter (!keep ·) = rest := by rw [none, List.nil_append] at ih; exact (ih front).symm
          simp [kept, none, all]

end Sorting

namespace GridOf

open Sorting (TotalAmong eq_filter_append_of_pairwise)
open Value (clash)

variable {tag : String} {rows : List Entity} {a b c : Entity}

/-! ## The order of rows -/

theorem compareByTag_swap (tag : String) (a b : Entity) :
    compareByTag tag b a = (compareByTag tag a b).swap := by
  unfold compareByTag
  cases a.get? tag <;> cases b.get? tag <;> first | rfl | exact Value.sortCompare_swap _ _

/-- Rows whose values under a tag do not clash. -/
def Apart (tag : String) (a b : Entity) : Prop :=
  ∀ x ∈ a.get? tag, ∀ y ∈ b.get? tag, clash x y = false

theorem isLE_trans_of_compareByTag (apart : Apart tag a b) (further : Apart tag b c)
    (first : (compareByTag tag a b).isLE = true) (second : (compareByTag tag b c).isLE = true) :
    (compareByTag tag a c).isLE = true := by
  unfold compareByTag Apart at *
  cases isA : a.get? tag with
  | none => cases c.get? tag <;> rfl
  | some x => cases isB : b.get? tag with
    | none => simp [isA, isB] at first
    | some y => cases isC : c.get? tag with
      | none => simp [isB, isC] at second
      | some z =>
          simp only [isA, isB, isC] at first second ⊢
          refine Value.isLE_trans_of_sortCompare (fun clashes => ?_) first second
          rw [apart x isA y isB, further y isB z isC] at clashes
          simp at clashes

/-- What makes the rows sort by a tag: no number under it is a NaN, and the numbers all have one unit,
or none of them has one. -/
structure OneUnit (tag : String) (rows : List Entity) : Prop where
  noNaN : ∀ row ∈ rows, ∀ n, row.get? tag = some (.number n) → n.magnitude.isNaN = false
  units : ∀ row ∈ rows, ∀ other ∈ rows, ∀ n m, row.get? tag = some (.number n) →
    other.get? tag = some (.number m) → n.unit = m.unit

theorem OneUnit.apart (oneUnit : OneUnit tag rows) (inRows : a ∈ rows) (alsoInRows : b ∈ rows) :
    Apart tag a b := by
  intro x isX y isY
  cases x <;> cases y <;> first | rfl | skip
  next n m =>
    have compatible : n.isCompatible m = true := by
      rw [Number.isCompatible, oneUnit.units a inRows b alsoInRows n m isX isY]
      cases m.unit <;> simp
    simp [clash, compatible, oneUnit.noNaN a inRows n isX, oneUnit.noNaN b alsoInRows m isY]

theorem OneUnit.totalAmong (oneUnit : OneUnit tag rows) :
    TotalAmong (fun a b => compareByTag tag a b != .gt) rows where
  total a _ b _ := by
    rw [compareByTag_swap tag a b]
    cases compareByTag tag a b <;> rfl
  trans a inA b inB c inC := by
    simp only [← Ordering.isLE_iff_ne_gt, bne_iff_ne]
    exact isLE_trans_of_compareByTag (oneUnit.apart inA inB) (oneUnit.apart inB inC)

/-! ## The sorted rows -/

/-- What sorting by a tag makes of rows. -/
structure SortedByTag (tag : String) (rows sorted : List Entity) : Prop where
  perm : sorted.Perm rows
  /-- The rows without the tag stand in front, as they stood before. -/
  untaggedFirst : ∃ tagged, sorted = rows.filter (!·.contains tag) ++ tagged ∧
    ∀ row ∈ tagged, row.contains tag = true
  /-- Of any two rows with the tag, next to each other or not, the earlier one is not the greater. -/
  ascending : sorted.Pairwise fun earlier later => ∀ x ∈ earlier.get? tag, ∀ y ∈ later.get? tag,
    (x.sortCompare y).isLE = true
  /-- Rows that are equal in the tag keep their order. -/
  stable : ∀ row ∈ rows, sorted.filter (compareByTag tag row · == .eq) =
    rows.filter (compareByTag tag row · == .eq)

theorem untagged_iff : a.contains tag = false ↔ a.get? tag = none := by
  rw [OrderedMap.contains, Option.isSome_eq_false_iff, Option.isNone_iff_eq_none]

/-- A row without the tag comes after no row that has it. -/
theorem untagged_of_compareByTag (before : (compareByTag tag a b).isLE = true)
    (untagged : b.contains tag = false) : a.contains tag = false := by
  rw [untagged_iff] at untagged ⊢
  cases isA : a.get? tag with
  | none => rfl
  | some x => simp [compareByTag, isA, untagged] at before

/-- Rows that are equal to one row come after each other either way. -/
theorem OneUnit.isLE_of_eq (oneUnit : OneUnit tag rows) (inA : a ∈ rows) (inB : b ∈ rows)
    (inC : c ∈ rows) (first : compareByTag tag a b = .eq) (second : compareByTag tag a c = .eq) :
    (compareByTag tag b c).isLE = true := by
  have back : compareByTag tag b a = .eq := by rw [compareByTag_swap tag a b, first]; rfl
  exact isLE_trans_of_compareByTag (oneUnit.apart inB inA) (oneUnit.apart inA inC)
    (by rw [back]; rfl) (by rw [second]; rfl)

variable {grid : Grid}

theorem OneUnit.pairwise_sortByTag (oneUnit : OneUnit tag grid.rows) :
    (grid.sortByTag tag).rows.Pairwise fun a b => (compareByTag tag a b).isLE = true :=
  oneUnit.totalAmong.pairwise.imp fun before => Ordering.isLE_iff_ne_gt.mpr (bne_iff_ne.mp before)

/-- Rows of which none is greater than another one are not moved past each other. -/
theorem OneUnit.filter_sortByTag (oneUnit : OneUnit tag grid.rows) (keep : Entity → Bool)
    (equal : ∀ a ∈ grid.rows, ∀ b ∈ grid.rows, keep a = true → keep b = true →
      (compareByTag tag a b).isLE = true) :
    (grid.sortByTag tag).rows.filter keep = grid.rows.filter keep := by
  refine oneUnit.totalAmong.filter_mergeSort keep
    (List.pairwise_of_forall_mem_list fun a inA b inB => ?_)
  obtain ⟨inA, keepsA⟩ := List.mem_filter.mp inA
  obtain ⟨inB, keepsB⟩ := List.mem_filter.mp inB
  exact bne_iff_ne.mpr (Ordering.isLE_iff_ne_gt.mp (equal a inA b inB keepsA keepsB))

theorem OneUnit.rows_sortByTag (oneUnit : OneUnit tag grid.rows) :
    ∃ tagged, (grid.sortByTag tag).rows = grid.rows.filter (!·.contains tag) ++ tagged ∧
      ∀ row ∈ tagged, row.contains tag = true := by
  have front : (grid.sortByTag tag).rows.Pairwise fun a b =>
      (!b.contains tag) = true → (!a.contains tag) = true := by
    refine oneUnit.pairwise_sortByTag.imp fun before untagged => ?_
    rw [Bool.not_eq_true'] at untagged ⊢
    exact untagged_of_compareByTag before untagged
  have unmoved : (grid.sortByTag tag).rows.filter (!·.contains tag) =
      grid.rows.filter (!·.contains tag) := by
    refine oneUnit.filter_sortByTag _ fun a _ b _ untagged alsoUntagged => ?_
    rw [Bool.not_eq_true', untagged_iff] at untagged alsoUntagged
    rw [compareByTag, untagged, alsoUntagged]
    rfl
  refine ⟨_, unmoved ▸ eq_filter_append_of_pairwise front, fun row member => ?_⟩
  simpa using List.of_mem_filter member

/-- Sorting by a tag whose numbers have one unit and are no NaN sorts the rows, keeps the order of
equal ones and changes nothing else. -/
theorem sortedByTag_sortByTag (grid : Grid) (tag : String) (oneUnit : OneUnit tag grid.rows) :
    SortedByTag tag grid.rows (grid.sortByTag tag).rows ∧
      (grid.sortByTag tag).metadata = grid.metadata ∧ (grid.sortByTag tag).columns = grid.columns ∧
      (grid.sortByTag tag).version = grid.version ∧ (grid.sortByTag tag).pinned = grid.pinned := by
  refine ⟨⟨List.mergeSort_perm .., oneUnit.rows_sortByTag, ?_, ?_⟩, rfl, rfl, rfl, rfl⟩
  · refine oneUnit.pairwise_sortByTag.imp fun before x isX y isY => ?_
    rwa [compareByTag, isX, isY] at before
  · intro row inRows
    refine oneUnit.filter_sortByTag _ fun a inA b inB first second => ?_
    exact oneUnit.isLE_of_eq inRows inA inB (beq_iff_eq.mp first) (beq_iff_eq.mp second)

/-- Readings of several kinds, some of them equal, and two rows without one. -/
def readings : Grid := { new with
  rows := [
    ⟨[("name", .str "hall"), ("reading", .str "off")]⟩,
    ⟨[("name", .str "yard"), ("reading", Value.quantityOf 21 "°C")]⟩,
    ⟨[("name", .str "roof")]⟩,
    ⟨[("name", .str "pump"), ("reading", .na)]⟩,
    ⟨[("name", .str "attic"), ("reading", Value.quantityOf (-3) "°C")]⟩,
    ⟨[("name", .str "shed"), ("reading", Value.quantityOf 21 "°C")]⟩,
    ⟨[("name", .str "door")]⟩] }

theorem sortedByTag_sortByTag_readings : OneUnit "reading" readings.rows ∧
    SortedByTag "reading" readings.rows (readings.sortByTag "reading").rows := by
  have celsius : ∀ row ∈ readings.rows, ∀ n, row.get? "reading" = some (.number n) →
      n.magnitude.isNaN = false ∧ n.unit = some "°C" := by
    intro row member n isNumber
    simp only [readings, List.mem_cons, List.not_mem_nil, or_false] at member
    rcases member with rfl | rfl | rfl | rfl | rfl | rfl | rfl <;>
      simp [OrderedMap.get?_cons, Value.quantityOf] at isNumber
    all_goals
      subst isNumber
      exact ⟨by decide +kernel, by decide +kernel⟩
  have oneUnit : OneUnit "reading" readings.rows :=
    ⟨fun row member n isNumber => (celsius row member n isNumber).1,
      fun row member other alsoMember n m isNumber alsoNumber =>
        (celsius row member n isNumber).2.trans (celsius other alsoMember m alsoNumber).2.symm⟩
  exact ⟨oneUnit, (sortedByTag_sortByTag readings "reading" oneUnit).1⟩

end GridOf

end Haystack
