import Haystack.Value.Order
import Mathlib.Algebra.Order.Ring.Int
import Mathlib.Algebra.Order.Ring.Unbundled.Basic
import Mathlib.Order.Compare
import Mathlib.Tactic.Ring

/-!
The order in which rows are sorted.

Kinds come first, and within a kind the order of filters. Numbers are the one kind whose members need
not all compare: two units do not, nor does a NaN with anything, and such numbers count as equal. A
number without a unit compares with all units and so leads from one to another, which is where the
order is not transitive.
-/
namespace Haystack

open Std (OrientedCmp TransCmp TransOrd)

namespace Binary64

/-! ## Numbers on a line -/

/-- The exponent of the least positive number. -/
def leastExponent : Int := -1074

/-- A number on the line of all numbers: before it, on it or after it, and how many of the least
positive number it makes. A NaN is nowhere. -/
def point? : Binary64 → Option (Int × Int)
  | .nan => none
  | .infinity negative => some (if negative then -1 else 1, 0)
  | .finite negative significand exponent _ =>
      some (0, signedUnits negative significand exponent leastExponent)

def comparePoints : Int × Int → Int × Int → Ordering :=
  compareLex (compareOn (·.1)) (compareOn (·.2))

instance : TransCmp comparePoints :=
  inferInstanceAs (TransCmp (compareLex (compareOn fun p : Int × Int => p.1) (compareOn (·.2))))

/-- In smaller units there are more of them. -/
theorem signedUnits_lower (negative : Bool) (significand : Nat) {exponent unit lower : Int}
    (below : lower ≤ unit) (within : unit ≤ exponent) :
    signedUnits negative significand exponent lower =
      signedUnits negative significand exponent unit * 2 ^ (unit - lower).toNat := by
  have split : (exponent - lower).toNat = (exponent - unit).toNat + (unit - lower).toNat := by omega
  have powers : Nat.pow 2 (exponent - lower).toNat =
      Nat.pow 2 (exponent - unit).toNat * 2 ^ (unit - lower).toNat := by
    rw [split]
    exact Nat.pow_add ..
  simp only [signedUnits, powers]
  push_cast
  split <;> ring

theorem leastExponent_le {significand : Nat} {exponent : Int} (stored : Stored significand exponent) :
    leastExponent ≤ exponent := by
  unfold leastExponent
  rcases stored.2.2 with least | ⟨_, above⟩ <;> omega

theorem compare_signedUnits (negative negative' : Bool) (significand significand' : Nat)
    {exponent exponent' lower : Int} (below : lower ≤ exponent) (below' : lower ≤ exponent') :
    compare (signedUnits negative significand exponent (min exponent exponent'))
        (signedUnits negative' significand' exponent' (min exponent exponent')) =
      compare (signedUnits negative significand exponent lower)
        (signedUnits negative' significand' exponent' lower) := by
  have within : lower ≤ min exponent exponent' := le_min below below'
  have scale : (0 : Int) < 2 ^ (min exponent exponent' - lower).toNat :=
    Int.pow_pos (by decide)
  rw [signedUnits_lower negative significand within (min_le_left ..),
    signedUnits_lower negative' significand' within (min_le_right ..), ← cmp_eq_compare,
    ← cmp_eq_compare, cmp_mul_pos_right scale]

/-- Numbers are compared as points of the line. -/
theorem compare?_eq (x y : Binary64) :
    x.compare? y = x.point?.bind fun p => y.point?.map (comparePoints p) := by
  cases x with
  | nan => rfl
  | infinity negative => cases y with
    | nan => rfl
    | infinity negative' => cases negative <;> cases negative' <;> rfl
    | finite => cases negative <;> rfl
  | finite negative significand exponent stored => cases y with
    | nan => rfl
    | infinity negative' => cases negative' <;> rfl
    | finite negative' significand' exponent' stored' =>
        exact congrArg some (compare_signedUnits negative negative' significand significand'
          (leastExponent_le stored) (leastExponent_le stored'))

theorem point?_eq_none_iff {x : Binary64} : x.point? = none ↔ x.isNaN = true := by
  cases x <;> simp [point?, isNaN]

/-- Two numbers compare unless one of them is a NaN. -/
theorem compare?_eq_none_iff {x y : Binary64} :
    x.compare? y = none ↔ x.isNaN = true ∨ y.isNaN = true := by
  rw [compare?_eq, ← point?_eq_none_iff, ← point?_eq_none_iff]
  cases x.point? <;> cases y.point? <;> simp

theorem compare?_swap (x y : Binary64) : y.compare? x = (x.compare? y).map Ordering.swap := by
  rw [compare?_eq, compare?_eq]
  cases x.point? with
  | none => cases y.point? <;> rfl
  | some p => cases y.point? with
    | none => rfl
    | some q => exact congrArg some OrientedCmp.eq_swap

theorem isLE_trans_of_compare? {x y z : Binary64} {first second both : Ordering}
    (toMiddle : x.compare? y = some first) (fromMiddle : y.compare? z = some second)
    (across : x.compare? z = some both) (firstLE : first.isLE = true) (secondLE : second.isLE = true) :
    both.isLE = true := by
  rw [compare?_eq] at toMiddle fromMiddle across
  cases px : x.point? <;> cases py : y.point? <;> cases pz : z.point? <;>
    simp only [px, py, pz, Option.bind_none, Option.bind_some, Option.map_none, Option.map_some,
      Option.some.injEq, reduceCtorEq] at toMiddle fromMiddle across
  subst toMiddle fromMiddle across
  exact TransCmp.isLE_trans firstLE secondLE

end Binary64

/-! ## Days, times of day and moments -/

instance : TransOrd Date := by
  have by_parts : (compare : Date → Date → Ordering) =
      compareLex (compareOn (·.year)) (compareLex (compareOn (·.month)) (compareOn (·.day))) := by
    funext a b
    show instOrdDate.ord a b = _
    simp only [instOrdDate.ord, compareLex, compareOn, Ordering.then_eq]
  rw [TransOrd, by_parts]
  infer_instance

instance : TransOrd TimeOfDay := by
  have by_parts : (compare : TimeOfDay → TimeOfDay → Ordering) =
      compareLex (compareOn (·.second)) (compareOn (·.nanosecond)) := by
    funext a b
    show instOrdTimeOfDay.ord a b = _
    simp only [instOrdTimeOfDay.ord, compareLex, compareOn, Ordering.then_eq]
  rw [TransOrd, by_parts]
  infer_instance

instance : TransOrd Instant := by
  have by_parts : (compare : Instant → Instant → Ordering) =
      compareLex (compareOn (·.second)) (compareOn (·.nanosecond)) := by
    funext a b
    show instOrdInstant.ord a b = _
    simp only [instOrdInstant.ord, compareLex, compareOn, Ordering.then_eq]
  rw [TransOrd, by_parts]
  infer_instance

namespace Number

theorem isCompatible_comm (x y : Number) : x.isCompatible y = y.isCompatible x := by
  unfold isCompatible
  cases x.unit <;> cases y.unit <;> simp [Bool.beq_comm]

end Number

namespace Value

variable {a b c : Value} {order : Ordering}

/-! ## What filters order -/

/-- Kinds whose members filters order. -/
def orderedRanks : List Nat := [4, 5, 6, 7, 10, 11, 12, 13]

/-- Numbers that do not compare, for their units or since one of them is a NaN. -/
def clash : Value → Value → Bool
  | .number x, .number y => !x.isCompatible y || x.magnitude.isNaN || y.magnitude.isNaN
  | _, _ => false

theorem clash_comm (a b : Value) : clash a b = clash b a := by
  cases a <;> cases b <;> first | rfl | skip
  next x y =>
    simp only [clash, Number.isCompatible_comm x y, Bool.or_assoc,
      Bool.or_comm x.magnitude.isNaN y.magnitude.isNaN]

/-- Values do not compare if they are of two kinds, of a kind without an order, or clash. -/
theorem filterCompare?_eq_none_iff : filterCompare? a b = none ↔
    a.kindRank ≠ b.kindRank ∨ a.kindRank ∉ orderedRanks ∨ clash a b = true := by
  cases a <;> cases b <;> first
    | exact ⟨fun _ => .inl (Nat.ne_of_beq_eq_false rfl), fun _ => rfl⟩
    | exact ⟨fun _ => .inr (.inl (by simp [kindRank, orderedRanks])), fun _ => rfl⟩
    | simp [filterCompare?, kindRank, orderedRanks, clash]
  next x y =>
    rw [Binary64.compare?_eq_none_iff]
    cases x.isCompatible y <;> simp

theorem exists_filterCompare?_iff : (∃ order, filterCompare? a b = some order) ↔
    a.kindRank = b.kindRank ∧ a.kindRank ∈ orderedRanks ∧ ¬ clash a b = true := by
  rw [← Option.ne_none_iff_exists', ne_eq, filterCompare?_eq_none_iff]
  simp only [not_or, ne_eq, not_not]

theorem filterCompare?_swap (a b : Value) :
    filterCompare? b a = (filterCompare? a b).map Ordering.swap := by
  cases a <;> cases b <;> first
    | rfl
    | exact congrArg some OrientedCmp.eq_swap
    | skip
  next x y =>
    simp only [filterCompare?, Number.isCompatible_comm y x]
    split
    · exact Binary64.compare?_swap ..
    · rfl

theorem isLE_trans_of_filterCompare? {first second both : Ordering}
    (toMiddle : filterCompare? a b = some first) (fromMiddle : filterCompare? b c = some second)
    (across : filterCompare? a c = some both) (firstLE : first.isLE = true)
    (secondLE : second.isLE = true) : both.isLE = true := by
  cases a <;> cases b <;> first | contradiction | skip
  all_goals cases c <;> first | contradiction | skip
  case number.number.number x y z =>
    simp only [filterCompare?, Option.ite_none_right_eq_some] at toMiddle fromMiddle across
    exact Binary64.isLE_trans_of_compare? toMiddle.2 fromMiddle.2 across.2 firstLE secondLE
  all_goals
    obtain rfl := Option.some.inj toMiddle
    obtain rfl := Option.some.inj fromMiddle
    obtain rfl := Option.some.inj across
    exact TransCmp.isLE_trans firstLE secondLE

/-! ## The order of rows -/

/-- Kinds first, then values. -/
theorem sortCompare_eq (a b : Value) : sortCompare a b =
    (compare a.kindRank b.kindRank).then ((filterCompare? a b).getD .eq) := by
  cases compared : filterCompare? a b with
  | none => rw [sortCompare, compared, Option.getD_none, Option.getD_none, Ordering.then_eq]
  | some order =>
      have sameKind : a.kindRank = b.kindRank := by
        by_contra differ
        exact nomatch compared.symm.trans (filterCompare?_eq_none_iff.mpr (.inl differ))
      have same : compare a.kindRank b.kindRank = .eq := Nat.compare_eq_eq.mpr sameKind
      rw [sortCompare, compared, same]
      rfl

theorem sortCompare_swap (a b : Value) : sortCompare b a = (sortCompare a b).swap := by
  rw [sortCompare, sortCompare, filterCompare?_swap a b]
  cases filterCompare? a b with
  | none => exact Nat.compare_swap .. |>.symm
  | some order => rfl

theorem kindRank_le_of_isLE (before : (sortCompare a b).isLE = true) : a.kindRank ≤ b.kindRank := by
  rw [sortCompare_eq] at before
  exact Nat.isLE_compare.mp (Ordering.isLE_left_of_isLE_then before)

theorem isLE_of_kindRank_lt (lower : a.kindRank < b.kindRank) : (sortCompare a b).isLE = true := by
  rw [sortCompare_eq, Nat.compare_eq_lt.mpr lower]
  rfl

/-- The order passes from value to value, unless the middle one clashes with one of the others and
these compare. -/
theorem isLE_trans_of_sortCompare (clashes : clash a b = true ∨ clash b c = true → clash a c = true)
    (first : (sortCompare a b).isLE = true) (second : (sortCompare b c).isLE = true) :
    (sortCompare a c).isLE = true := by
  have firstRank := kindRank_le_of_isLE first
  have secondRank := kindRank_le_of_isLE second
  by_cases lower : a.kindRank < c.kindRank
  · exact isLE_of_kindRank_lt lower
  have toMiddleKind : a.kindRank = b.kindRank := by omega
  have fromMiddleKind : b.kindRank = c.kindRank := by omega
  cases across : filterCompare? a c with
  | none =>
      rw [sortCompare, across, Option.getD_none, toMiddleKind, fromMiddleKind, Nat.compare_eq_eq.mpr rfl]
      rfl
  | some both =>
      obtain ⟨_, ordered, together⟩ := exists_filterCompare?_iff.mp ⟨both, across⟩
      have apart := not_or.mp (mt clashes together)
      obtain ⟨there, toMiddle⟩ := exists_filterCompare?_iff.mpr ⟨toMiddleKind, ordered, apart.1⟩
      obtain ⟨onward, fromMiddle⟩ :=
        exists_filterCompare?_iff.mpr ⟨fromMiddleKind, toMiddleKind ▸ ordered, apart.2⟩
      rw [sortCompare, toMiddle, Option.getD_some] at first
      rw [sortCompare, fromMiddle, Option.getD_some] at second
      rw [sortCompare, across, Option.getD_some]
      exact isLE_trans_of_filterCompare? toMiddle fromMiddle across first second

theorem eq_trans_of_sortCompare (clashes : clash a b = true ∨ clash b c = true → clash a c = true)
    (first : sortCompare a b = .eq) (second : sortCompare b c = .eq) : sortCompare a c = .eq := by
  have forth : (sortCompare a c).isLE = true :=
    isLE_trans_of_sortCompare clashes (by rw [first]; rfl) (by rw [second]; rfl)
  have clashesBack : clash c b = true ∨ clash b a = true → clash c a = true := by
    rw [clash_comm c b, clash_comm b a, clash_comm c a, or_comm]
    exact clashes
  have back : (sortCompare c a).isLE = true := isLE_trans_of_sortCompare clashesBack
    (by rw [sortCompare_swap, second]; rfl) (by rw [sortCompare_swap, first]; rfl)
  rw [sortCompare_swap] at back
  revert forth back
  cases sortCompare a c <;> simp

/-- Values are sorted the same from either side; and transitively, unless the middle one clashes with
one of the others while these compare. -/
theorem sortCompare_swap_and_trans (a b c : Value) : sortCompare b a = (sortCompare a b).swap ∧
    ((clash a b = true ∨ clash b c = true → clash a c = true) →
      ((sortCompare a b).isLE = true → (sortCompare b c).isLE = true → (sortCompare a c).isLE = true) ∧
      (sortCompare a b = .eq → sortCompare b c = .eq → sortCompare a c = .eq)) :=
  ⟨sortCompare_swap a b, fun clashes => ⟨isLE_trans_of_sortCompare clashes, eq_trans_of_sortCompare clashes⟩⟩

/-- A whole number with a unit, or without. -/
def quantityOf (n : Int) (unit : String) : Value := .number (.quantity (.ofInt n) unit)

theorem sortCompare_swap_and_trans_power :
    let a := quantityOf 1 "kW"
    let b := quantityOf 2 ""
    let c := quantityOf 3 "kW"
    (clash a b = true ∨ clash b c = true → clash a c = true) ∧
      (sortCompare a b).isLE = true ∧ (sortCompare b c).isLE = true ∧ (sortCompare a c).isLE = true := by
  intro a b c
  have clashes : clash a b = true ∨ clash b c = true → clash a c = true := by decide +kernel
  have first : (sortCompare a b).isLE = true := by decide +kernel
  have second : (sortCompare b c).isLE = true := by decide +kernel
  exact ⟨clashes, first, second, ((sortCompare_swap_and_trans a b c).2 clashes).1 first second⟩

/-- Two degrees and one kilowatt are sorted as equal, and so are one kilowatt and one; but two degrees
and one compare. -/
theorem not_trans_of_sortCompare : ¬ ∀ a b c : Value,
    (sortCompare a b).isLE = true → (sortCompare b c).isLE = true → (sortCompare a c).isLE = true := by
  intro claim
  exact absurd (claim (quantityOf 2 "°C") (quantityOf 1 "kW") (quantityOf 1 "")
    (by decide +kernel) (by decide +kernel)) (by decide +kernel)

end Value

end Haystack
