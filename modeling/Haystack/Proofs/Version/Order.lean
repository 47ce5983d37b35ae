import Haystack.Version
import Mathlib.Order.Compare

/-!
The order of versions.

Two versions are compared with their groups filled up to the length of the longer one. Any greater
length gives the same result, so that for three versions there is one length for all of them, and at
one length the order is the one of lists of numbers.
-/
namespace Haystack.Version

open Std (OrientedCmp ReflCmp TransCmp TransOrd)

variable {v w : Version} {count more : Nat} {groups : List Nat}

/-! ## Groups filled up with zeros -/

theorem length_padded (fits : groups.length ≤ count) : (padded count groups).length = count := by
  simp [padded, fits]

theorem padded_padded (least : groups.length ≤ count) (further : count ≤ more) :
    padded more groups = padded count groups ++ List.replicate (more - count) 0 := by
  rw [padded, padded, List.append_assoc, List.replicate_append_replicate]
  congr 2
  omega

/-- Lists of one length are compared as lists are. -/
theorem compareGroups_eq {left right : List Nat} (sizes : left.length = right.length) :
    compareGroups left right = compare left right := by
  induction left generalizing right with
  | nil =>
      obtain rfl := List.length_eq_zero_iff.mp sizes.symm
      rfl
  | cons a left ih => cases right with
    | nil => simp at sizes
    | cons b right =>
        rw [compareGroups, List.compare_cons_cons, ih (Nat.succ.inj sizes)]

/-- The same groups behind both lists make no difference. -/
theorem compareGroups_append {left right : List Nat} (sizes : left.length = right.length)
    (behind : List Nat) : compareGroups (left ++ behind) (right ++ behind) = compareGroups left right := by
  induction left generalizing right with
  | nil =>
      obtain rfl := List.length_eq_zero_iff.mp sizes.symm
      rw [List.nil_append, compareGroups_eq rfl]
      exact ReflCmp.compare_self
  | cons a left ih => cases right with
    | nil => simp at sizes
    | cons b right =>
        rw [List.cons_append, List.cons_append, compareGroups, compareGroups, ih (Nat.succ.inj sizes)]

theorem compareExtra_eq : compareExtra = compare := by
  funext a b
  cases a <;> cases b <;> rfl

/-! ## The order at one length -/

/-- The order of versions whose groups are filled up to a length, by groups and then by text. -/
def compareAt (count : Nat) : Version → Version → Ordering :=
  compareLex (compareOn fun v => padded count v.groups) (compareOn (·.extra))

instance : TransCmp (compareAt count) :=
  inferInstanceAs (TransCmp (compareLex (compareOn fun v : Version => padded count v.groups)
    (compareOn (·.extra))))

/-- Any length that holds both lists of groups will do. -/
theorem compare_eq_compareAt (left : v.groups.length ≤ count) (right : w.groups.length ≤ count) :
    compare v w = compareAt count v w := by
  have within : max v.groups.length w.groups.length ≤ count := Nat.max_le.mpr ⟨left, right⟩
  have sizes : (padded (max v.groups.length w.groups.length) v.groups).length =
      (padded (max v.groups.length w.groups.length) w.groups).length := by
    rw [length_padded (Nat.le_max_left ..), length_padded (Nat.le_max_right ..)]
  have groups : compare (padded count v.groups) (padded count w.groups) =
      compareGroups (padded (max v.groups.length w.groups.length) v.groups)
        (padded (max v.groups.length w.groups.length) w.groups) := by
    rw [padded_padded (Nat.le_max_left ..) within, padded_padded (Nat.le_max_right ..) within,
      ← compareGroups_eq (by simp [sizes]), compareGroups_append sizes]
  change (compareGroups _ _).then (compareExtra v.extra w.extra) = _
  rw [compareAt, compareLex, compareOn, compareOn, groups, compareExtra_eq]

instance : TransOrd Version where
  eq_swap {v w} := by
    rw [compare_eq_compareAt (Nat.le_max_left v.groups.length w.groups.length) (Nat.le_max_right ..),
      compare_eq_compareAt (Nat.le_max_right v.groups.length w.groups.length) (Nat.le_max_left ..)]
    exact OrientedCmp.eq_swap
  isLE_trans {u v w} first second := by
    have left : u.groups.length ≤ max (max u.groups.length v.groups.length) w.groups.length := by omega
    have middle : v.groups.length ≤ max (max u.groups.length v.groups.length) w.groups.length := by omega
    have right : w.groups.length ≤ max (max u.groups.length v.groups.length) w.groups.length := by omega
    rw [compare_eq_compareAt left middle] at first
    rw [compare_eq_compareAt middle right] at second
    rw [compare_eq_compareAt left right]
    exact TransCmp.isLE_trans first second

theorem compare_self (v : Version) : compare v v = .eq := ReflCmp.compare_self

theorem compare_swap (v w : Version) : compare w v = (compare v w).swap := OrientedCmp.eq_swap

/-- A version with more groups, which are all zero. -/
def withZeros (v : Version) (count : Nat) : Version :=
  { v with groups := v.groups ++ List.replicate count 0 }

theorem padded_withZeros (fits : (v.withZeros more).groups.length ≤ count) :
    padded count (v.withZeros more).groups = padded count v.groups := by
  simp only [withZeros, List.length_append, List.length_replicate] at fits
  rw [withZeros, padded, padded, List.append_assoc, List.replicate_append_replicate]
  simp only [List.length_append, List.length_replicate]
  congr 2
  omega

/-- Groups of zeros at the end of either version make no difference. -/
theorem compare_withZeros (v w : Version) (left right : Nat) :
    compare (v.withZeros left) (w.withZeros right) = compare v w := by
  have vFits : (v.withZeros left).groups.length ≤ v.groups.length + w.groups.length + left + right := by
    simp only [withZeros, List.length_append, List.length_replicate]
    omega
  have wFits : (w.withZeros right).groups.length ≤ v.groups.length + w.groups.length + left + right := by
    simp only [withZeros, List.length_append, List.length_replicate]
    omega
  rw [compare_eq_compareAt vFits wFits,
    @compare_eq_compareAt v w (v.groups.length + w.groups.length + left + right) (by omega) (by omega)]
  simp only [compareAt, compareLex, compareOn, padded_withZeros vFits, padded_withZeros wFits]
  rfl

end Haystack.Version
