import Haystack.Decimal.Shortest
import Mathlib.Algebra.Order.Field.Power
import Mathlib.Data.Rat.Cast.Order
import Mathlib.Tactic.FieldSimp
import Mathlib.Tactic.GCongr
import Mathlib.Tactic.Linarith
import Mathlib.Tactic.NormNum
import Mathlib.Tactic.Positivity

/-!
Rounding a ratio to the nearest stored number.

Each stored number has a neighbourhood of ratios, half a unit in the last place to either side and a
quarter below a power of two; a ratio in it is rounded to that number.
-/
namespace Haystack

namespace Binary64

/-! ## Halves -/

/-- A ratio within a half of a whole number is rounded to it, at a distance of a half if it is even. -/
theorem roundHalfEven_eq {numerator denominator n : Nat}
    (lower : 2 * n * denominator ≤ 2 * numerator + denominator)
    (upper : 2 * numerator ≤ (2 * n + 1) * denominator) (positive : 0 < denominator)
    (ties : n % 2 = 1 → 2 * n * denominator < 2 * numerator + denominator ∧
      2 * numerator < (2 * n + 1) * denominator) :
    roundHalfEven numerator denominator = n := by
  have split := Nat.div_add_mod numerator denominator
  have small := Nat.mod_lt numerator positive
  unfold roundHalfEven
  generalize numerator / denominator = q at split ⊢
  generalize numerator % denominator = r at split small ⊢
  subst split
  have least : q ≤ n := by
    by_contra beyond
    nlinarith
  have most : n ≤ q + 1 := by
    by_contra beyond
    nlinarith
  dsimp only
  obtain rfl | rfl : n = q ∨ n = q + 1 := by omega
  · have half : 2 * r ≤ denominator := by nlinarith
    have strict : n % 2 = 1 → 2 * r < denominator := fun odd => by nlinarith [ties odd]
    split
    · rfl
    · split <;> omega
  · have half : denominator ≤ 2 * r := by nlinarith
    have strict : (q + 1) % 2 = 1 → denominator < 2 * r := fun odd => by nlinarith [ties odd]
    split
    · omega
    · split <;> omega

/-! ## Units -/

/-- A power with a whole exponent as a ratio of powers of which one is `1`. -/
theorem zpow_eq_toNat (base : ℚ) (exponent : Int) :
    base ^ exponent = base ^ exponent.toNat / base ^ (-exponent).toNat := by
  obtain ⟨n, rfl | rfl⟩ := exponent.eq_nat_or_neg
  · simp
  · simp

variable {numerator denominator : Nat} {exponent : Int}

variable (numerator exponent) in
theorem inUnits_positive (positive : 0 < denominator) :
    0 < (inUnits numerator denominator exponent).2 :=
  Nat.mul_pos positive (Nat.pow_pos (by decide))

variable (numerator exponent) in
/-- A ratio in units of a power of two. -/
theorem inUnits_eq (positive : 0 < denominator) :
    ((inUnits numerator denominator exponent).1 : ℚ) =
      (numerator / denominator : ℚ) / 2 ^ exponent * (inUnits numerator denominator exponent).2 := by
  have nonzero : (denominator : ℚ) ≠ 0 := by exact_mod_cast positive.ne'
  simp only [inUnits, Nat.pow_eq, Nat.cast_mul, Nat.cast_pow, Nat.cast_ofNat]
  rw [zpow_eq_toNat]
  field_simp

/-- Of two units that the first bit of a ratio is fifty-two places above or less and more, the first
is not the greater. -/
theorem le_of_bounds (ratio : ℚ) {g h : Int} (lower : (2 : ℚ) ^ 52 * 2 ^ g ≤ ratio)
    (upper : ratio < (2 : ℚ) ^ 53 * 2 ^ h) : g ≤ h := by
  have powers : (2 : ℚ) ^ (52 + g) < 2 ^ (53 + h) := by
    rw [zpow_add₀ (by norm_num), zpow_add₀ (by norm_num)]
    exact_mod_cast lower.trans_lt upper
  have := (zpow_lt_zpow_iff_right₀ (by norm_num : (1 : ℚ) < 2)).mp powers
  omega

/-- The unit of a ratio is that of its first fifty-three bits, or the least there is. -/
theorem exists_unitExponent (positive : 0 < numerator) (below : 0 < denominator) :
    ∃ g : Int, (2 : ℚ) ^ 52 * 2 ^ g ≤ numerator / denominator ∧
      (numerator / denominator : ℚ) < 2 ^ 53 * 2 ^ g ∧
      unitExponent numerator denominator = max (-1074) g := by
  have denominatorPositive : (0 : ℚ) < denominator := by exact_mod_cast below
  have first : (2 : ℚ) ^ numerator.log2 ≤ numerator := by
    exact_mod_cast Nat.log2_self_le positive.ne'
  have firstOver : (numerator : ℚ) < 2 ^ (numerator.log2 + 1) := by
    exact_mod_cast Nat.lt_log2_self
  have second : (2 : ℚ) ^ denominator.log2 ≤ denominator := by
    exact_mod_cast Nat.log2_self_le below.ne'
  have secondOver : (denominator : ℚ) < 2 ^ (denominator.log2 + 1) := by
    exact_mod_cast Nat.lt_log2_self
  unfold unitExponent
  generalize numerator.log2 = a at first firstOver
  generalize denominator.log2 = b at second secondOver
  dsimp only
  have guess : (2 : ℚ) ^ ((a : Int) - b - 52) = 2 ^ a / 2 ^ b / 2 ^ 52 := by
    rw [zpow_sub₀ (by norm_num), zpow_sub₀ (by norm_num)]
    simp
  have smaller : (2 : ℚ) ^ ((a : Int) - b - 52 - 1) = 2 ^ a / 2 ^ b / 2 ^ 52 / 2 := by
    rw [zpow_sub₀ (by norm_num), guess]
    simp
  -- Fifty-two bits too few mean that the guess was one too high.
  have test : ((inUnits numerator denominator ((a : Int) - b - 52)).1 /
      (inUnits numerator denominator ((a : Int) - b - 52)).2 < Nat.pow 2 52) ↔
      (numerator / denominator : ℚ) < 2 ^ 52 * (2 ^ a / 2 ^ b / 2 ^ 52) := by
    have unitsPositive := inUnits_positive numerator ((a : Int) - b - 52) below
    have unitsEq := inUnits_eq numerator ((a : Int) - b - 52) below
    rw [guess] at unitsEq
    rw [Nat.div_lt_iff_lt_mul unitsPositive, ← Nat.cast_lt (α := ℚ), unitsEq, Nat.cast_mul,
      mul_lt_mul_iff_left₀ (by exact_mod_cast unitsPositive), div_lt_iff₀ (by positivity)]
    norm_num
  have least : (2 : ℚ) ^ a / 2 ^ b / 2 < numerator / denominator := by
    rw [div_div, ← pow_succ, div_lt_div_iff₀ (by positivity) denominatorPositive]
    calc (2 : ℚ) ^ a * denominator < 2 ^ a * 2 ^ (b + 1) := by gcongr
      _ ≤ numerator * 2 ^ (b + 1) := by gcongr
  have most : (numerator / denominator : ℚ) < 2 * (2 ^ a / 2 ^ b) := by
    rw [← mul_div_assoc, div_lt_div_iff₀ denominatorPositive (by positivity)]
    calc (numerator : ℚ) * 2 ^ b < 2 ^ (a + 1) * 2 ^ b := by gcongr
      _ ≤ 2 * 2 ^ a * denominator := by rw [pow_succ']; gcongr
  split
  · next few =>
    refine ⟨_, ?_, ?_, rfl⟩ <;> rw [smaller]
    · linarith
    · linarith [test.mp few]
  · next enough =>
    refine ⟨_, ?_, ?_, rfl⟩ <;> rw [guess]
    · linarith [not_lt.mp (mt test.mpr enough)]
    · linarith

/-! ## Neighbourhoods -/

/-- A ratio within a half of a whole number of units is rounded to that number. -/
theorem roundHalfEven_inUnits {n : Nat} (below : 0 < denominator)
    (lower : (n : ℚ) - 1 / 2 ≤ numerator / denominator / 2 ^ exponent)
    (upper : (numerator / denominator : ℚ) / 2 ^ exponent ≤ n + 1 / 2)
    (ties : n % 2 = 1 → (n : ℚ) - 1 / 2 < numerator / denominator / 2 ^ exponent ∧
      (numerator / denominator : ℚ) / 2 ^ exponent < n + 1 / 2) :
    roundHalfEven (inUnits numerator denominator exponent).1
      (inUnits numerator denominator exponent).2 = n := by
  have unitsPositive := inUnits_positive numerator exponent below
  have unitsEq := inUnits_eq numerator exponent below
  generalize (numerator / denominator : ℚ) / 2 ^ exponent = x at lower upper ties unitsEq
  generalize inUnits numerator denominator exponent = units at unitsPositive unitsEq
  have positive : (0 : ℚ) < units.2 := by exact_mod_cast unitsPositive
  refine roundHalfEven_eq ?_ ?_ unitsPositive fun odd => ⟨?_, ?_⟩
  · rw [← Nat.cast_le (α := ℚ)]
    push_cast
    rw [unitsEq]
    nlinarith
  · rw [← Nat.cast_le (α := ℚ)]
    push_cast
    rw [unitsEq]
    nlinarith
  · rw [← Nat.cast_lt (α := ℚ)]
    push_cast
    rw [unitsEq]
    nlinarith [(ties odd).1]
  · rw [← Nat.cast_lt (α := ℚ)]
    push_cast
    rw [unitsEq]
    nlinarith [(ties odd).2]

end Binary64

namespace Decimal

/-- A number of quarter units between the ends of a neighbourhood. -/
def Neighbourhood.Contains (n : Neighbourhood) (quarters : ℚ) : Prop :=
  if n.closed then n.lower ≤ quarters ∧ quarters ≤ n.upper
  else n.lower < quarters ∧ quarters < n.upper

variable {n : Neighbourhood} {quarters : ℚ}

theorem Neighbourhood.Contains.lower_le (contains : n.Contains quarters) : n.lower ≤ quarters := by
  unfold Contains at contains
  split at contains
  · exact contains.1
  · exact contains.1.le

theorem Neighbourhood.Contains.le_upper (contains : n.Contains quarters) : quarters ≤ n.upper := by
  unfold Contains at contains
  split at contains
  · exact contains.2
  · exact contains.2.le

theorem Neighbourhood.Contains.strict (contains : n.Contains quarters)
    (open' : n.closed = false) : n.lower < quarters ∧ quarters < n.upper := by
  simpa [Contains, open'] using contains

end Decimal

namespace Binary64

open Decimal (neighbourhood)

variable {significand : Nat} {numerator denominator : Nat} {exponent : Int}

theorem lower_neighbourhood (positive : 0 < significand) :
    4 * (significand : ℚ) - 2 ≤ (neighbourhood significand exponent).lower := by
  have : 4 * significand ≤ (neighbourhood significand exponent).lower + 2 := by
    simp only [neighbourhood]
    split <;> omega
  have cast : (4 * significand : ℚ) ≤ (neighbourhood significand exponent).lower + 2 := by
    exact_mod_cast this
  linarith

theorem lower_neighbourhood_power (least : exponent ≠ -1074) :
    4 * (2 : ℚ) ^ 52 - 1 ≤ (neighbourhood (Nat.pow 2 52) exponent).lower := by
  have : 4 * 2 ^ 52 ≤ (neighbourhood (Nat.pow 2 52) exponent).lower + 1 := by
    simp [neighbourhood, least]
  have cast : (4 * 2 ^ 52 : ℚ) ≤ (neighbourhood (Nat.pow 2 52) exponent).lower + 1 := by
    exact_mod_cast this
  linarith

theorem upper_neighbourhood :
    ((neighbourhood significand exponent).upper : ℚ) = 4 * significand + 2 := by
  simp [neighbourhood]

theorem nearest_of_unit {negative : Bool} {unit : Int} (positive : 0 < numerator)
    (unitEq : unitExponent numerator denominator = unit) : nearest negative numerator denominator =
      ofParts negative (roundHalfEven (inUnits numerator denominator unit).1
        (inUnits numerator denominator unit).2) unit := by
  simp only [nearest, if_neg positive.ne', unitEq]

theorem positive_of_quotient {unit least : ℚ} (positive : 0 < least)
    (atLeast : least ≤ numerator / denominator / unit) : 0 < numerator := by
  by_contra none
  obtain rfl : numerator = 0 := by omega
  simp only [Nat.cast_zero, zero_div] at atLeast
  linarith

/-- Just below a power of two the unit is half as large, and what is nearest to the power is rounded
up to it. -/
theorem nearest_eq_of_lt_power (negative : Bool) (stored : Stored (Nat.pow 2 52) exponent)
    (beyond : exponent ≠ -1074) (below : 0 < denominator)
    (closest : (2 : ℚ) ^ 52 - 1 / 4 ≤ numerator / denominator / 2 ^ exponent)
    (under : (numerator / denominator / 2 ^ exponent : ℚ) < 2 ^ 52) :
    nearest negative numerator denominator = .finite negative (Nat.pow 2 52) exponent stored := by
  have numeratorPositive := positive_of_quotient (by norm_num) closest
  obtain ⟨g, least, most, unitEq⟩ := exists_unitExponent numeratorPositive below
  have halves : (numerator / denominator / 2 ^ (exponent - 1) : ℚ) =
      2 * (numerator / denominator / 2 ^ exponent) := by
    rw [zpow_sub₀ (by norm_num)]
    field_simp
  have unit : max (-1074) g = exponent - 1 := by
    have range := stored.2.2
    have leUnit : exponent - 1 ≤ g := le_of_bounds (numerator / denominator) (by
      rw [← le_div_iff₀ (zpow_pos (by norm_num) _), halves]
      linarith) most
    have unitLt : g ≤ exponent - 1 := le_of_bounds _ least <| by
      rw [← div_lt_iff₀ (zpow_pos (by norm_num) _), halves]
      linarith
    omega
  rw [nearest_of_unit numeratorPositive (unitEq.trans unit),
    roundHalfEven_inUnits (n := Nat.pow 2 53) below]
  · have carried : ¬ Stored (Nat.pow 2 53) (exponent - 1) := fun stored => lt_irrefl _ stored.1
    have half : Nat.pow 2 53 / 2 = Nat.pow 2 52 := by norm_num
    simp only [ofParts, dif_neg carried, half, sub_add_cancel, dif_pos stored]
  · rw [halves]
    norm_num
    linarith
  · rw [halves]
    norm_num
    linarith
  · simp

/-- A ratio in the neighbourhood of a stored number is rounded to that number. -/
theorem nearest_eq (negative : Bool) (stored : Stored significand exponent)
    (positive : 0 < significand) (below : 0 < denominator)
    (contains : (neighbourhood significand exponent).Contains
      (numerator / denominator / 2 ^ (exponent - 2))) :
    nearest negative numerator denominator = .finite negative significand exponent stored := by
  have ⟨few, _, range⟩ := stored
  have unitPositive : (0 : ℚ) < 2 ^ exponent := zpow_pos (by norm_num) _
  have quarters : (numerator / denominator / 2 ^ (exponent - 2) : ℚ) =
      4 * (numerator / denominator / 2 ^ exponent) := by
    rw [zpow_sub₀ (by norm_num)]
    field_simp
    norm_num
  have ends := contains
  rw [quarters] at ends
  by_cases power : (significand = Nat.pow 2 52 ∧ exponent ≠ -1074) ∧
      (numerator / denominator / 2 ^ exponent : ℚ) < 2 ^ 52
  · obtain ⟨⟨rfl, beyond⟩, under⟩ := power
    have closest := (lower_neighbourhood_power beyond).trans ends.lower_le
    exact nearest_eq_of_lt_power negative stored beyond below (by linarith) under
  · have lower := (lower_neighbourhood positive).trans ends.lower_le
    have upper := ends.le_upper
    rw [upper_neighbourhood] at upper
    have some : (1 : ℚ) ≤ significand := by exact_mod_cast positive
    have few : (significand : ℚ) + 1 ≤ 2 ^ 53 := by exact_mod_cast few
    have half : (1 / 2 : ℚ) ≤ numerator / denominator / 2 ^ exponent := by linarith
    have numeratorPositive := positive_of_quotient (by norm_num) half
    obtain ⟨g, least, most, unitEq⟩ := exists_unitExponent numeratorPositive below
    have unitLe : g ≤ exponent := le_of_bounds _ least <| by
      rw [← div_lt_iff₀ unitPositive]
      linarith
    have unit : max (-1074) g = exponent := by
      rcases range with rfl | ⟨normal, beyond⟩
      · omega
      have leUnit : exponent ≤ g := le_of_bounds (numerator / denominator) (by
        rw [← le_div_iff₀ unitPositive]
        rcases normal.eq_or_lt with rfl | above
        · exact not_lt.mp fun under => power ⟨⟨rfl, beyond.ne'⟩, under⟩
        · have above : (2 : ℚ) ^ 52 + 1 ≤ significand := by exact_mod_cast above
          linarith) most
      omega
    rw [nearest_of_unit numeratorPositive (unitEq.trans unit),
      roundHalfEven_inUnits (n := significand) below]
    · rw [ofParts, dif_pos stored]
    · linarith
    · linarith
    · intro odd
      have ⟨above, under⟩ := ends.strict (by simp [neighbourhood, odd])
      rw [upper_neighbourhood] at under
      have above := (lower_neighbourhood positive).trans_lt above
      constructor <;> linarith

end Binary64

end Haystack
