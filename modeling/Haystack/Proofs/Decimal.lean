import Haystack.Calendar.Date
import Haystack.Decimal.Fixed
import Haystack.Decimal.Reader
import Mathlib.Algebra.Group.Nat.Defs

/-!
The digits that numbers are written in.

Padded digits have the value and the width that was asked for, and a finite number is written with
digits, a point among them perhaps, and a sign.
-/
namespace Haystack

open Decimal (naturalOf)

/-! ## Digits and their value -/

/-- Every character is a decimal digit. -/
def AllDigits (text : List Char) : Prop := ∀ c ∈ text, c.isDigit = true

theorem allDigits_append {first last : List Char} (firstDigits : AllDigits first)
    (lastDigits : AllDigits last) : AllDigits (first ++ last) := fun c member =>
  (List.mem_append.mp member).elim (firstDigits c) (lastDigits c)

theorem allDigits_toDigits (n : Nat) : AllDigits (Nat.toDigits 10 n) := fun _ member =>
  Nat.isDigit_of_mem_toDigits (by decide) (by decide) member

theorem allDigits_replicate (count : Nat) : AllDigits (List.replicate count '0') := by
  intro c member
  rw [List.eq_of_mem_replicate member]
  rfl

theorem naturalOf_eq (digits : List Char) : naturalOf digits = Nat.ofDigitChars 10 digits 0 :=
  Nat.ofDigitChars_eq_foldl.symm

theorem naturalOf_zeros_append (count : Nat) (digits : List Char) :
    naturalOf (List.replicate count '0' ++ digits) = naturalOf digits := by
  rw [naturalOf_eq, naturalOf_eq, Nat.ofDigitChars_append, Nat.ofDigitChars_replicate_zero,
    Nat.mul_zero]

theorem naturalOf_append_zeros (digits : List Char) (count : Nat) :
    naturalOf (digits ++ List.replicate count '0') = 10 ^ count * naturalOf digits := by
  rw [naturalOf_eq, naturalOf_eq, Nat.ofDigitChars_append, Nat.ofDigitChars_replicate_zero]

theorem naturalOf_toDigits (n : Nat) : naturalOf (Nat.toDigits 10 n) = n := by
  rw [naturalOf_eq, Nat.ofDigitChars_ten_toDigits]

/-! ## Padded numbers -/

section Padded

variable (width n : Nat)

theorem toList_padded : (padded width n).toList =
    List.replicate (width - (Nat.toDigits 10 n).length) '0' ++ Nat.toDigits 10 n := by
  simp [padded, Nat.repr_eq_ofList_toDigits]

theorem allDigits_padded : AllDigits (padded width n).toList := by
  rw [toList_padded]
  exact allDigits_append (allDigits_replicate _) (allDigits_toDigits n)

theorem naturalOf_padded : naturalOf (padded width n).toList = n := by
  rw [toList_padded, naturalOf_zeros_append, naturalOf_toDigits]

variable {width n}

theorem length_padded (positive : 0 < width) (small : n < 10 ^ width) :
    (padded width n).toList.length = width := by
  have fits := (Nat.length_toDigits_le_iff (b := 10) (by decide) positive).mpr small
  rw [toList_padded, List.length_append, List.length_replicate]
  omega

/-- Two digits. -/
theorem exists_padded_two (small : n < 100) :
    ∃ a b, (padded 2 n).toList = [a, b] ∧ a.isDigit = true ∧ b.isDigit = true := by
  have size : (padded 2 n).toList.length = 2 := length_padded (by decide) small
  have digits := allDigits_padded 2 n
  match (padded 2 n).toList, size, digits with
  | [a, b], _, digits => exact ⟨a, b, rfl, digits a (by simp), digits b (by simp)⟩

/-- Four digits. -/
theorem exists_padded_four (small : n < 10000) :
    ∃ a b c d, (padded 4 n).toList = [a, b, c, d] ∧ a.isDigit = true ∧ b.isDigit = true ∧
      c.isDigit = true ∧ d.isDigit = true := by
  have size : (padded 4 n).toList.length = 4 := length_padded (by decide) small
  have digits := allDigits_padded 4 n
  match (padded 4 n).toList, size, digits with
  | [a, b, c, d], _, digits =>
      exact ⟨a, b, c, d, rfl, digits a (by simp), digits b (by simp), digits c (by simp),
        digits d (by simp)⟩

end Padded

/-! ## Numbers -/

namespace Decimal

/-- Digits, perhaps with a point and more digits after them. -/
inductive IsPlain : List Char → Prop where
  | whole (digits : List Char) (nonempty : digits ≠ []) (all : AllDigits digits) : IsPlain digits
  | point (digits fraction : List Char) (nonempty : digits ≠ []) (all : AllDigits digits)
      (fractionNonempty : fraction ≠ []) (fractionAll : AllDigits fraction) :
      IsPlain (digits ++ '.' :: fraction)

/-- A plain number, perhaps with a minus sign in front. -/
def IsSigned (text : List Char) : Prop :=
  ∃ plain, IsPlain plain ∧ (text = plain ∨ text = '-' :: plain)

/-- A plain number starts with digits, and a point is all that may follow them in it. -/
theorem IsPlain.exists_digits {text : List Char} (isPlain : IsPlain text) :
    ∃ digits more, digits ≠ [] ∧ AllDigits digits ∧ text = digits ++ more ∧
      ∀ c ∈ more.head?, c = '.' := by
  cases isPlain with
  | whole digits nonempty all => exact ⟨_, [], nonempty, all, by simp, by simp⟩
  | point digits fraction nonempty all => exact ⟨_, _, nonempty, all, rfl, by simp⟩

theorem IsSigned.exists_cons {text : List Char} (isSigned : IsSigned text) :
    ∃ first others, text = first :: others ∧ (first.isDigit = true ∨ first = '-') := by
  obtain ⟨plain, isPlain, rfl | rfl⟩ := isSigned
  · obtain ⟨digits, more, nonempty, all, rfl, _⟩ := isPlain.exists_digits
    obtain ⟨first, others, rfl⟩ := List.exists_cons_of_ne_nil nonempty
    exact ⟨first, others ++ more, rfl, .inl (all first (by simp))⟩
  · exact ⟨'-', plain, rfl, .inr rfl⟩

/-- The characters of a number. -/
theorem IsSigned.chars {text : List Char} (isSigned : IsSigned text) :
    ∀ c ∈ text, c.isDigit = true ∨ c = '.' ∨ c = '-' := by
  have plainly {plain : List Char} (isPlain : IsPlain plain) :
      ∀ c ∈ plain, c.isDigit = true ∨ c = '.' ∨ c = '-' := by
    cases isPlain with
    | whole digits _ all => exact fun c member => .inl (all c member)
    | point digits fraction _ all _ fractionAll =>
        intro c member
        rcases List.mem_append.mp member with inDigits | member
        · exact .inl (all c inDigits)
        rcases List.mem_cons.mp member with rfl | inFraction
        · exact .inr (.inl rfl)
        · exact .inl (fractionAll c inFraction)
  obtain ⟨plain, isPlain, rfl | rfl⟩ := isSigned
  · exact plainly isPlain
  · exact List.forall_mem_cons.mpr ⟨.inr (.inr rfl), plainly isPlain⟩

/-- A number has no other characters. -/
theorem IsSigned.not_mem {text : List Char} (isSigned : IsSigned text) {c : Char}
    (other : (c.isDigit || c == '.' || c == '-') = false) : c ∉ text := by
  intro member
  rcases isSigned.chars c member with isDigit | rfl | rfl
  · simp [isDigit] at other
  · exact absurd other (by decide)
  · exact absurd other (by decide)

/-- Digits padded so that a point can stand before the last `places` of them. -/
theorem padded_split (digits : List Char) (places : Nat) (all : AllDigits digits) :
    let padded := List.replicate (places + 1 - digits.length) '0' ++ digits
    AllDigits padded ∧ padded.take (padded.length - places) ≠ [] ∧
      (padded.drop (padded.length - places)).length = places := by
  intro padded
  have long : places + 1 ≤ padded.length := by
    simp only [padded, List.length_append, List.length_replicate]
    omega
  refine ⟨allDigits_append (allDigits_replicate _) all, ?_, ?_⟩
  · refine List.ne_nil_of_length_pos ?_
    rw [List.length_take]
    omega
  · rw [List.length_drop]
    omega

theorem isPlain_positional (coefficient : Nat) (power : Int) :
    IsPlain (positional coefficient power).toList := by
  unfold positional
  split
  · rw [String.toList_ofList]
    exact .whole _ (by simp [Nat.toDigits_ne_nil])
      (allDigits_append (allDigits_toDigits _) (allDigits_replicate _))
  · obtain ⟨all, nonempty, _⟩ := padded_split (Nat.toDigits 10 coefficient) (-power).toNat
      (allDigits_toDigits _)
    simp only
    split
    · rw [String.toList_ofList]
      exact .whole _ nonempty fun c member => all c (List.mem_of_mem_take member)
    · next some =>
      rw [String.toList_ofList]
      refine .point _ _ nonempty (fun c member => all c (List.mem_of_mem_take member)) ?_ ?_
      · simpa using some
      · intro c member
        rw [List.mem_reverse] at member
        have inDrop := (List.dropWhile_sublist _).subset member
        rw [List.mem_reverse] at inDrop
        exact all c (List.mem_of_mem_drop inDrop)

theorem isPlain_fixedText (units places : Nat) (some : places ≠ 0) :
    IsPlain (fixedText units places).toList := by
  obtain ⟨all, nonempty, size⟩ := padded_split (Nat.toDigits 10 units) places (allDigits_toDigits _)
  simp only [fixedText, if_neg some, String.toList_ofList]
  refine .point _ _ nonempty (fun c member => all c (List.mem_of_mem_take member)) ?_
    fun c member => all c (List.mem_of_mem_drop member)
  refine List.ne_nil_of_length_pos ?_
  rw [size]
  omega

theorem isPlain_magnitudeText (significand : Nat) (exponent : Int) :
    IsPlain (magnitudeText significand exponent).toList := by
  unfold magnitudeText
  split
  · exact .whole ['0'] (by simp) (by simp [AllDigits])
  · exact isPlain_positional _ _

theorem isSigned_of_isPlain {text : String} (negative : Bool) (isPlain : IsPlain text.toList) :
    IsSigned ((if negative then "-" else "") ++ text).toList := by
  refine ⟨text.toList, isPlain, ?_⟩
  cases negative
  · exact .inl (by simp)
  · exact .inr (by simp)

/-- The text of a finite number has a sign, digits and perhaps decimals. -/
theorem isSigned_write (spelling : Spelling) {x : Binary64} (finite : x.isFinite = true) :
    IsSigned (write spelling x).toList := by
  cases x with
  | finite negative significand exponent stored =>
      exact isSigned_of_isPlain negative (isPlain_magnitudeText significand exponent)
  | _ => simp [Binary64.isFinite] at finite

theorem isSigned_writeFixed {places : Nat} (some : places ≠ 0) {x : Binary64}
    (finite : x.isFinite = true) : IsSigned (writeFixed places x).toList := by
  cases x with
  | finite negative significand exponent stored =>
      exact isSigned_of_isPlain negative (isPlain_fixedText _ places some)
  | _ => simp [Binary64.isFinite] at finite

end Decimal

end Haystack
