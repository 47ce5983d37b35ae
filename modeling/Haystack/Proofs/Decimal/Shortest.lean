import Haystack.Proofs.Decimal.Nearest

/-!
The shortest decimal of a number.

The search for digits ends at one in the number's neighbourhood, seventeen digits at the latest,
since a unit of the seventeenth digit is less than the neighbourhood is wide.
-/
namespace Haystack

theorem Binary64.ratio_eq (significand : Nat) (exponent : Int) :
    ((Binary64.ratio significand exponent).1 / (Binary64.ratio significand exponent).2 : ℚ) =
      significand * 2 ^ exponent := by
  rw [zpow_eq_toNat]
  simp only [ratio, Nat.pow_eq]
  push_cast
  rw [mul_div_assoc]

namespace Decimal

open Binary64 (Stored)

variable {significand : Nat} {exponent power : Int} {n : Neighbourhood}

/-! ## Places of digits -/

theorem digitCount_pos (count : Nat) : 0 < digitCount count :=
  List.length_pos_iff.mpr Nat.toDigits_ne_nil

theorem lt_pow_digitCount (count : Nat) : count < 10 ^ digitCount count :=
  (Nat.length_toDigits_le_iff (b := 10) (by decide) (digitCount_pos count)).mp le_rfl

theorem pow_digitCount_le {count : Nat} (positive : 0 < count) :
    10 ^ (digitCount count - 1) ≤ count := by
  rcases Nat.eq_zero_or_pos (digitCount count - 1) with none | some
  · rw [none]
    exact positive
  by_contra under
  have := (Nat.length_toDigits_le_iff (b := 10) (by decide) some).mpr (not_le.mp under)
  have := digitCount_pos count
  unfold digitCount at *
  omega

/-- A ratio is at least the unit of its first digit. -/
theorem pow_pointOf_le {numerator denominator : Nat} (positive : 0 < numerator)
    (below : 0 < denominator) :
    (10 : ℚ) ^ (pointOf numerator denominator - 1) ≤ numerator / denominator := by
  have denominatorPositive : (0 : ℚ) < denominator := by exact_mod_cast below
  rw [le_div_iff₀ denominatorPositive]
  unfold pointOf
  split
  · next large =>
    have first := pow_digitCount_le (Nat.div_pos large below)
    have := digitCount_pos (numerator / denominator)
    have whole : ((digitCount (numerator / denominator) : Int) - 1) =
        ((digitCount (numerator / denominator) - 1 : Nat) : Int) := by omega
    rw [whole, zpow_natCast]
    exact_mod_cast (Nat.le_div_iff_mul_le below).mp first
  · next small =>
    dsimp only
    have last := lt_pow_digitCount (denominator / numerator)
    have := digitCount_pos (denominator / numerator)
    generalize digitCount (denominator / numerator) = places at *
    split
    · next most =>
      have whole : (2 - (places : Int) - 1) = -((places - 1 : Nat) : Int) := by omega
      rw [whole, zpow_neg, zpow_natCast, inv_mul_le_iff₀ (by positivity), mul_comm]
      exact_mod_cast most
    · have whole : (1 - (places : Int) - 1) = -(places : Int) := by omega
      rw [whole, zpow_neg, zpow_natCast, inv_mul_le_iff₀ (by positivity)]
      exact_mod_cast ((Nat.div_lt_iff_lt_mul positive).mp last).le

/-! ## The search -/

theorem Neighbourhood.holds_iff {scale x : Nat} (positive : 0 < scale) :
    n.holds scale x = true ↔ n.Contains (x / scale) := by
  have scalePositive : (0 : ℚ) < scale := by exact_mod_cast positive
  unfold holds Contains
  split
  · rw [le_div_iff₀ scalePositive, div_le_iff₀ scalePositive, Bool.and_eq_true, decide_eq_true_iff,
      decide_eq_true_iff]
    norm_cast
  · rw [lt_div_iff₀ scalePositive, div_lt_iff₀ scalePositive, Bool.and_eq_true, decide_eq_true_iff,
      decide_eq_true_iff]
    norm_cast

/-- The unit of a digit in quarters of the unit in the last place. -/
def quartersOf (exponent power : Int) : ℚ := 10 ^ power / 2 ^ (exponent - 2)

theorem step_div_scale (exponent power : Int) (coefficient : Nat) :
    ((coefficient * (Nat.pow 10 power.toNat * Nat.pow 2 (2 - exponent).toNat) : Nat) : ℚ) /
      (Nat.pow 2 (exponent - 2).toNat * Nat.pow 10 (-power).toNat : Nat) =
      coefficient * quartersOf exponent power := by
  rw [quartersOf, Binary64.zpow_eq_toNat 10, Binary64.zpow_eq_toNat 2, neg_sub]
  simp only [Nat.pow_eq]
  push_cast
  field_simp

/-- What is tried is in the neighbourhood. -/
theorem contains_of_candidate? {coefficient : Nat}
    (found : candidate? n exponent power = some coefficient) :
    n.Contains (coefficient * quartersOf exponent power) := by
  have scalePositive : 0 < Nat.pow 2 (exponent - 2).toNat * Nat.pow 10 (-power).toNat :=
    Nat.mul_pos (Nat.pow_pos (by decide)) (Nat.pow_pos (by decide))
  rw [← step_div_scale, ← Neighbourhood.holds_iff scalePositive]
  simp only [candidate?] at found
  split at found
  · split at found <;> obtain rfl := Option.some.inj found <;> assumption
  · obtain rfl := Option.some.inj found
    assumption
  · obtain rfl := Option.some.inj found
    assumption
  · cases found

theorem Neighbourhood.contains_of_lt {quarters : ℚ} (lower : n.lower < quarters)
    (upper : quarters < n.upper) : n.Contains quarters := by
  unfold Contains
  split
  · exact ⟨lower.le, upper.le⟩
  · exact ⟨lower, upper⟩

/-- A unit narrower than the neighbourhood has a multiple in it. -/
theorem exists_candidate? (lower : n.lower < n.centre) (upper : n.centre < n.upper)
    (narrow : quartersOf exponent power < n.upper - n.lower) :
    ∃ coefficient, candidate? n exponent power = some coefficient := by
  have scalePositive : 0 < Nat.pow 2 (exponent - 2).toNat * Nat.pow 10 (-power).toNat :=
    Nat.mul_pos (Nat.pow_pos (by decide)) (Nat.pow_pos (by decide))
  have stepPositive : 0 < Nat.pow 10 power.toNat * Nat.pow 2 (2 - exponent).toNat :=
    Nat.mul_pos (Nat.pow_pos (by decide)) (Nat.pow_pos (by decide))
  have divided := step_div_scale exponent power
  simp only [candidate?]
  generalize Nat.pow 2 (exponent - 2).toNat * Nat.pow 10 (-power).toNat = scale at *
  generalize Nat.pow 10 power.toNat * Nat.pow 2 (2 - exponent).toNat = step at *
  have scaleCast : (0 : ℚ) < scale := by exact_mod_cast scalePositive
  have below : (n.centre * scale / step : Nat) * quartersOf exponent power ≤ n.centre := by
    rw [← divided, div_le_iff₀ scaleCast]
    exact_mod_cast Nat.div_mul_le_self _ _
  have above : (n.centre : ℚ) <
      (n.centre * scale / step + 1 : Nat) * quartersOf exponent power := by
    rw [← divided, lt_div_iff₀ scaleCast]
    exact_mod_cast (Nat.div_lt_iff_lt_mul stepPositive).mp (Nat.lt_succ_self _)
  split
  · split
    · exact ⟨_, rfl⟩
    · exact ⟨_, rfl⟩
  · exact ⟨_, rfl⟩
  · exact ⟨_, rfl⟩
  · next notBelow notAbove =>
    have lowerCast : (n.lower : ℚ) < n.centre := by exact_mod_cast lower
    have upperCast : (n.centre : ℚ) < n.upper := by exact_mod_cast upper
    have underLower : (n.centre * scale / step : Nat) * quartersOf exponent power ≤ n.lower := by
      by_contra beyond
      have contains := Neighbourhood.contains_of_lt (not_le.mp beyond) (below.trans_lt upperCast)
      rw [← divided, ← Neighbourhood.holds_iff scalePositive, notBelow] at contains
      cases contains
    have overUpper : n.upper ≤ (n.centre * scale / step + 1 : Nat) * quartersOf exponent power := by
      by_contra under
      have contains := Neighbourhood.contains_of_lt (lowerCast.trans above) (not_le.mp under)
      rw [← divided, ← Neighbourhood.holds_iff scalePositive, notAbove] at contains
      cases contains
    push_cast at overUpper
    linarith

/-- The search answers with a decimal in the neighbourhood if one is found in time. -/
theorem contains_search {fuel : Nat} (places : Int) (some : ∃ coefficient,
      candidate? n exponent (power - places) = some coefficient)
    (early : 0 ≤ places) (inTime : places < fuel) :
    n.Contains ((search n exponent power fuel).1 *
      quartersOf exponent (search n exponent power fuel).2) := by
  induction fuel generalizing power places with
  | zero => omega
  | succ fuel found =>
    unfold search
    split
    · next coefficient answer => exact contains_of_candidate? answer
    · next none =>
      refine found (places - 1) ?_ ?_ (by omega)
      · simpa using some
      · rcases early.eq_or_lt with rfl | later
        · obtain ⟨coefficient, answer⟩ := some
          simp [none] at answer
        · omega

/-- The shortest decimal of a number is in the neighbourhood of the number. -/
theorem contains_shortest (stored : Stored significand exponent) (positive : 0 < significand) :
    (neighbourhood significand exponent).Contains ((shortest significand exponent).1 *
      quartersOf exponent (shortest significand exponent).2) := by
  refine contains_search 16 (exists_candidate? ?_ ?_ ?_) (by decide) (by decide)
  · simp only [neighbourhood]
    split <;> omega
  · simp only [neighbourhood]
    omega
  have first := pow_pointOf_le
    (show 0 < (Binary64.ratio significand exponent).1 from
      Nat.mul_pos positive (Nat.pow_pos (by decide)))
    (show 0 < (Binary64.ratio significand exponent).2 from Nat.pow_pos (by decide))
  rw [Binary64.ratio_eq] at first
  generalize pointOf (Binary64.ratio significand exponent).1
    (Binary64.ratio significand exponent).2 - 1 = point at *
  have unit : quartersOf exponent (point - 16) ≤ 4 * significand / 10 ^ 16 := by
    rw [quartersOf, zpow_sub₀ (by norm_num), zpow_sub₀ (by norm_num), div_le_iff₀ (by positivity)]
    norm_num at first ⊢
    linarith
  refine unit.trans_lt ?_
  rw [Binary64.upper_neighbourhood]
  by_cases power : significand = Nat.pow 2 52 ∧ exponent ≠ -1074
  · have lower : ((neighbourhood significand exponent).lower : ℚ) = 4 * 2 ^ 52 - 1 := by
      simp only [neighbourhood, if_pos power]
      norm_num [power.1]
    rw [lower, power.1]
    norm_num
  · have lower : ((neighbourhood significand exponent).lower : ℚ) = 4 * significand - 2 := by
      simp only [neighbourhood, if_neg power]
      rw [Nat.cast_sub (by omega)]
      push_cast
      rfl
    have few : (significand : ℚ) < 2 ^ 53 := by exact_mod_cast stored.1
    rw [lower]
    linarith

end Decimal

end Haystack
