import Haystack.Proofs.Decimal
import Haystack.Proofs.Decimal.Shortest

/-!
Reading back the texts of finite numbers.

A number is written without an exponent, with the digits of its shortest decimal; any decimal in a
number's neighbourhood is read as that number.
-/
namespace Haystack.Decimal

open Binary64 (Stored)

variable {significand : Nat} {exponent power : Int}

/-! ## Scaled numbers -/

theorem digitCount_le_of_lt {count : Nat} {power bound : Int} (positive : 0 < count)
    (under : (count : ℚ) * 10 ^ power < 10 ^ bound) : (digitCount count : Int) + power ≤ bound := by
  have first := pow_digitCount_le positive
  have some := digitCount_pos count
  have powers : (10 : ℚ) ^ ((digitCount count : Int) - 1 + power) < 10 ^ bound := by
    rw [zpow_add₀ (by norm_num)]
    refine lt_of_le_of_lt ?_ under
    have whole : (digitCount count : Int) - 1 = (digitCount count - 1 : Nat) := by omega
    rw [whole, zpow_natCast]
    gcongr
    exact_mod_cast first
  have := (zpow_lt_zpow_iff_right₀ (by norm_num : (1 : ℚ) < 10)).mp powers
  omega

theorem lt_digitCount_of_le {count : Nat} {power bound : Int}
    (beyond : (10 : ℚ) ^ bound ≤ count * 10 ^ power) : bound < (digitCount count : Int) + power := by
  have last := lt_pow_digitCount count
  have powers : (10 : ℚ) ^ bound < 10 ^ ((digitCount count : Int) + power) := by
    rw [zpow_add₀ (by norm_num), zpow_natCast]
    refine beyond.trans_lt ?_
    gcongr
    exact_mod_cast last
  exact (zpow_lt_zpow_iff_right₀ (by norm_num : (1 : ℚ) < 10)).mp powers

/-- A decimal in the neighbourhood of a number is read as that number. -/
theorem scaled_eq (negative : Bool) {coefficient : Nat} (stored : Stored significand exponent)
    (positive : 0 < significand) (contains : (neighbourhood significand exponent).Contains
      (coefficient * quartersOf exponent power)) :
    scaled negative coefficient power = .finite negative significand exponent stored := by
  have lower := (Binary64.lower_neighbourhood positive).trans contains.lower_le
  have upper := contains.le_upper
  rw [Binary64.upper_neighbourhood] at upper
  have some : (1 : ℚ) ≤ significand := by exact_mod_cast positive
  have few : (significand : ℚ) + 1 ≤ 2 ^ 53 := by exact_mod_cast stored.1
  have coefficientPositive : 0 < coefficient := by
    by_contra none
    obtain rfl : coefficient = 0 := by omega
    simp only [Nat.cast_zero, zero_mul] at lower
    linarith
  rw [quartersOf, ← mul_div_assoc] at lower upper
  have first := (le_div_iff₀ (by positivity)).mp lower
  have last := (div_le_iff₀ (by positivity)).mp upper
  have early : (digitCount coefficient : Int) + power ≤ 400 := by
    refine digitCount_le_of_lt coefficientPositive (last.trans_lt ?_)
    calc (4 * significand + 2 : ℚ) * 2 ^ (exponent - 2)
        ≤ 2 ^ 55 * 2 ^ (969 : Int) := by
          gcongr
          · linarith
          · norm_num
          · have := stored.2.1
            omega
      _ < 10 ^ (400 : Int) := by
          exact_mod_cast (by decide +kernel : 2 ^ 55 * 2 ^ 969 < 10 ^ 400)
  have late : -400 < (digitCount coefficient : Int) + power := by
    refine lt_digitCount_of_le (le_trans ?_ first)
    calc (10 : ℚ) ^ (-400 : Int) ≤ 2 * 2 ^ (-1076 : Int) := by
          rw [zpow_neg, zpow_neg, ← div_eq_mul_inv, inv_eq_one_div,
            div_le_div_iff₀ (by positivity) (by positivity), one_mul]
          exact_mod_cast (by decide +kernel : 2 ^ 1076 ≤ 2 * 10 ^ 400)
      _ ≤ (4 * significand - 2 : ℚ) * 2 ^ (exponent - 2) := by
          gcongr
          · linarith
          · linarith
          · norm_num
          · have := stored.2.2
            omega
  have point : ((Nat.toDigits 10 coefficient).length : Int) = digitCount coefficient := rfl
  simp only [scaled, if_neg coefficientPositive.ne', point, if_neg early.not_gt, if_neg late.not_gt]
  refine Binary64.nearest_eq negative stored positive (Nat.pow_pos (by decide)) ?_
  have ratio : ((coefficient * Nat.pow 10 power.toNat : Nat) : ℚ) / (Nat.pow 10 (-power).toNat : Nat)
      = coefficient * 10 ^ power := by
    rw [Binary64.zpow_eq_toNat]
    simp only [Nat.pow_eq]
    push_cast
    rw [mul_div_assoc]
  rw [ratio, mul_div_assoc]
  exact contains

/-! ## Texts -/

section Texts

variable {digits fraction : List Char} (negative : Bool)

theorem magnitude?_whole (nonempty : digits ≠ []) (all : AllDigits digits) :
    magnitude? negative digits = some (scaled negative (naturalOf digits) 0) := by
  have taken : digits.takeWhile Char.isDigit = digits := by
    simpa using @List.takeWhile_append_of_pos _ _ _ [] all
  have left : digits.dropWhile Char.isDigit = [] := by
    simpa using @List.dropWhile_append_of_pos _ _ _ [] all
  simp [magnitude?, taken, left, nonempty, exponentOf?]

theorem magnitude?_point (nonempty : digits ≠ []) (all : AllDigits digits)
    (fractionAll : AllDigits fraction) : magnitude? negative (digits ++ '.' :: fraction) =
      some (scaled negative (naturalOf (digits ++ fraction)) (-fraction.length)) := by
  have taken : (digits ++ '.' :: fraction).takeWhile Char.isDigit = digits := by
    rw [List.takeWhile_append_of_pos all, List.takeWhile_cons_of_neg (by decide), List.append_nil]
  have left : (digits ++ '.' :: fraction).dropWhile Char.isDigit = '.' :: fraction := by
    rw [List.dropWhile_append_of_pos all, List.dropWhile_cons_of_neg (by decide)]
  have fractionTaken : fraction.takeWhile Char.isDigit = fraction := by
    simpa using @List.takeWhile_append_of_pos _ _ _ [] fractionAll
  have fractionLeft : fraction.dropWhile Char.isDigit = [] := by
    simpa using @List.dropWhile_append_of_pos _ _ _ [] fractionAll
  simp [magnitude?, taken, left, fractionTaken, fractionLeft, nonempty, exponentOf?]

/-- Digits without the zeros at their end. -/
theorem exists_eq_append_zeros (digits : List Char) : ∃ count, digits =
    (digits.reverse.dropWhile (· == '0')).reverse ++ List.replicate count '0' := by
  refine ⟨(digits.reverse.takeWhile (· == '0')).length, ?_⟩
  have zeros : digits.reverse.takeWhile (· == '0') =
      List.replicate (digits.reverse.takeWhile (· == '0')).length '0' := by
    refine List.eq_replicate_iff.mpr ⟨rfl, fun c member => ?_⟩
    simpa using List.all_eq_true.mp List.all_takeWhile c member
  conv_lhs => rw [← digits.reverse_reverse,
    ← List.takeWhile_append_dropWhile (p := (· == '0')) (l := digits.reverse), List.reverse_append]
  rw [← List.reverse_replicate, ← zeros]

/-- A number written without an exponent has the value of its digits. -/
theorem magnitude?_positional (coefficient : Nat) (power : Int) :
    ∃ coefficient' power', magnitude? negative (positional coefficient power).toList =
        some (scaled negative coefficient' power') ∧
      (coefficient' * 10 ^ power' : ℚ) = coefficient * 10 ^ power := by
  unfold positional
  split
  · next whole =>
    have all := allDigits_append (allDigits_toDigits coefficient) (allDigits_replicate power.toNat)
    refine ⟨10 ^ power.toNat * coefficient, 0, ?_, ?_⟩
    · rw [String.toList_ofList, magnitude?_whole negative (by simp [Nat.toDigits_ne_nil]) all,
        naturalOf_append_zeros, naturalOf_toDigits]
    · push_cast
      rw [mul_one, mul_comm, ← zpow_natCast, Int.toNat_of_nonneg whole]
  · next decimals =>
    obtain ⟨all, nonempty, size⟩ := padded_split (Nat.toDigits 10 coefficient) (-power).toNat
      (allDigits_toDigits _)
    have value := naturalOf_zeros_append ((-power).toNat + 1 - (Nat.toDigits 10 coefficient).length)
      (Nat.toDigits 10 coefficient)
    rw [naturalOf_toDigits] at value
    dsimp only at *
    generalize List.replicate ((-power).toNat + 1 - (Nat.toDigits 10 coefficient).length) '0' ++
      Nat.toDigits 10 coefficient = padded at *
    have wholeAll : AllDigits (padded.take (padded.length - (-power).toNat)) :=
      fun c member => all c (List.mem_of_mem_take member)
    have lastAll : AllDigits (padded.drop (padded.length - (-power).toNat)) :=
      fun c member => all c (List.mem_of_mem_drop member)
    rw [← List.take_append_drop (padded.length - (-power).toNat) padded] at value
    generalize padded.take (padded.length - (-power).toNat) = whole at *
    generalize padded.drop (padded.length - (-power).toNat) = last at *
    obtain ⟨count, split⟩ := exists_eq_append_zeros last
    generalize last.reverse.dropWhile (· == '0') = fraction at *
    subst split
    rw [← List.append_assoc, naturalOf_append_zeros] at value
    rw [List.length_append, List.length_reverse, List.length_replicate] at size
    have fractionAll : AllDigits fraction.reverse := fun c member =>
      lastAll c (List.mem_append_left _ member)
    have powerEq : power = -(fraction.length + count : Nat) := by omega
    refine ⟨naturalOf (whole ++ fraction.reverse), -fraction.length, ?_, ?_⟩
    · split
      · next none =>
        obtain rfl := List.isEmpty_iff.mp none
        rw [String.toList_ofList, magnitude?_whole negative nonempty wholeAll]
        simp
      · rw [String.toList_ofList, magnitude?_point negative nonempty wholeAll fractionAll,
          List.length_reverse]
    · rw [← value, powerEq, zpow_neg, zpow_neg, zpow_natCast, zpow_natCast, pow_add]
      push_cast
      field_simp

end Texts

theorem magnitude?_zero : ∀ negative, magnitude? negative ['0'] = some (.zero negative) := by
  decide

theorem magnitude?_magnitudeText (negative : Bool) (stored : Stored significand exponent) :
    magnitude? negative (magnitudeText significand exponent).toList =
      some (.finite negative significand exponent stored) := by
  unfold magnitudeText
  split
  · next zero =>
    subst zero
    obtain rfl : exponent = -1074 := stored.2.2.resolve_right fun normal => by simp at normal
    exact magnitude?_zero negative
  · next other =>
    have positive : 0 < significand := Nat.pos_of_ne_zero other
    obtain ⟨coefficient, power, isText, value⟩ := magnitude?_positional negative
      (shortest significand exponent).1 (shortest significand exponent).2
    have contains := contains_shortest stored positive
    rw [quartersOf, ← mul_div_assoc, ← value, mul_div_assoc] at contains
    rw [isText, scaled_eq negative stored positive contains]

theorem toLower_of_isDigit {c : Char} (isDigit : c.isDigit = true) : c.toLower = c := by
  simp only [Char.isDigit, Bool.and_eq_true, decide_eq_true_eq] at isDigit
  unfold Char.toLower
  rw [dif_neg]
  rintro ⟨first, -⟩
  have := UInt32.le_iff_toNat_le.mp (UInt32.le_trans first isDigit.2)
  revert this
  decide

/-- A text that starts with a digit is a number or nothing. -/
theorem read_of_isPlain {text : List Char} {x : Binary64} (isPlain : IsPlain text) (negative : Bool)
    (isNumber : magnitude? negative text = some x) :
    read (if negative then '-' :: text else text) = .ok x := by
  obtain ⟨digits, more, nonempty, all, rfl, _⟩ := isPlain.exists_digits
  obtain ⟨first, others, rfl⟩ := List.exists_cons_of_ne_nil nonempty
  have isDigit := all first (by simp)
  have noSign : splitSign (first :: others ++ more) = (false, first :: others ++ more) := by
    unfold splitSign
    split
    · next same =>
      obtain rfl := (List.cons.inj same).1
      exact absurd isDigit (by decide)
    · next same =>
      obtain rfl := (List.cons.inj same).1
      exact absurd isDigit (by decide)
    · rfl
  have noWord {letter : Char} {word : List Char} (isLetter : letter.isDigit = false) :
      (first :: others ++ more).map Char.toLower ≠ letter :: word := by
    intro same
    have isFirst := (List.cons.inj same).1
    rw [toLower_of_isDigit isDigit] at isFirst
    rw [isFirst, isLetter] at isDigit
    exact absurd isDigit (by decide)
  have signed : splitSign (if negative then '-' :: (first :: others ++ more)
      else first :: others ++ more) = (negative, first :: others ++ more) := by
    cases negative
    · exact noSign
    · rfl
  have some : (if negative then '-' :: (first :: others ++ more)
      else first :: others ++ more).isEmpty = false := by
    cases negative <;> rfl
  simp only [read, some, signed, Bool.false_eq_true, if_false, isNumber]
  rw [if_neg, if_neg]
  · exact noWord (by decide)
  · rintro (same | same)
    · exact noWord (by decide) same
    · exact noWord (by decide) same

/-- Digits are always read as a number, if perhaps one without end. -/
theorem exists_read_of_isSigned {text : List Char} (isSigned : IsSigned text) :
    ∃ x, read text = .ok x := by
  have number {plain : List Char} (isPlain : IsPlain plain) (negative : Bool) :
      ∃ x, magnitude? negative plain = some x := by
    cases isPlain with
    | whole digits nonempty all => exact ⟨_, magnitude?_whole negative nonempty all⟩
    | point digits fraction nonempty all _ fractionAll =>
        exact ⟨_, magnitude?_point negative nonempty all fractionAll⟩
  obtain ⟨plain, isPlain, rfl | rfl⟩ := isSigned
  · obtain ⟨x, isNumber⟩ := number isPlain false
    exact ⟨x, read_of_isPlain isPlain false isNumber⟩
  · obtain ⟨x, isNumber⟩ := number isPlain true
    exact ⟨x, read_of_isPlain isPlain true isNumber⟩

/-- A finite number is read back from its text. -/
theorem read_write (spelling : Spelling) {x : Binary64} (finite : x.isFinite = true) :
    read (write spelling x).toList = .ok x := by
  cases x with
  | finite negative significand exponent stored =>
      have text := read_of_isPlain (isPlain_magnitudeText significand exponent) negative
        (magnitude?_magnitudeText negative stored)
      cases negative <;> simpa [write] using text
  | _ => simp [Binary64.isFinite] at finite

end Haystack.Decimal
