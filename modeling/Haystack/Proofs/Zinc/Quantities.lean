import Haystack.Proofs.Decimal.RoundTrip
import Haystack.Proofs.Zinc.Literals
import Haystack.Proofs.Zinc.Values

/-!
Numbers with any unit.

The digits of a number may have underscores after them, and a unit may start with underscores. Behind
digits those of the unit are taken for those of the number, in which they mean nothing. So the number
comes back as it was, and its unit without the underscores at its front.
-/
namespace Haystack.Zinc

open Phrase

variable {unit : String}

/-! ## Units behind digits -/

/-- The unit that is read behind digits. -/
def unitBehind (unit : String) : Option String :=
  match unit.toList.dropWhile (· == '_') with
  | [] => none
  | first :: others => some (String.ofList (first :: others))

theorem toList_unitBehind (unit : String) :
    ((unitBehind unit).getD "").toList = unit.toList.dropWhile (· == '_') := by
  unfold unitBehind
  split
  · next none => rw [none]; rfl
  · next first others shape => rw [shape, Option.getD_some, String.toList_ofList]

theorem isUnit_unitBehind (chars : unit.toList.all isUnitChar = true) :
    ∀ name ∈ unitBehind unit, IsUnit name := by
  intro name isName
  unfold unitBehind at isName
  split at isName
  · exact nomatch isName
  · next first others shape =>
    obtain rfl := Option.some.inj isName
    refine ⟨by simp [← String.toList_eq_nil_iff], ?_, fun head => ?_⟩
    · rw [String.toList_ofList, ← shape]
      exact List.all_eq_true.mpr fun c member =>
        List.all_eq_true.mp chars c ((List.dropWhile_sublist _).subset member)
    · have rejected := List.head?_dropWhile_not (· == '_') unit.toList
      rw [String.toList_ofList] at head
      rw [shape, head] at rejected
      exact absurd rejected (by decide)

/-- A unit comes back whole unless it starts with an underscore. -/
theorem unitBehind_eq_self_iff (nonempty : unit ≠ "") :
    unitBehind unit = some unit ↔ unit.toList.head? ≠ some '_' := by
  obtain ⟨first, others, shape⟩ := List.exists_cons_of_ne_nil fun none =>
    nonempty (String.toList_eq_nil_iff.mp none)
  rw [shape, List.head?_cons, Ne, Option.some.injEq]
  constructor
  · rintro whole rfl
    have lengths := congrArg List.length (toList_unitBehind unit)
    rw [whole, Option.getD_some, shape, List.dropWhile_cons_of_pos (by decide)] at lengths
    have shorter := (List.dropWhile_sublist (l := others) (· == '_')).length_le
    rw [List.length_cons] at lengths
    omega
  · intro differs
    rw [unitBehind, shape, List.dropWhile_cons_of_neg (by simpa using differs)]
    exact congrArg some (by rw [← shape, String.ofList_toList])

/-! ## Reading back -/

theorem isUnitText_of_readAll {name : String} (read : Zinc.unit.readAll unit.toList = .ok name) :
    name ≠ "" ∧ name.toList.all isUnitChar = true := by
  have spells : Spells Zinc.unit fun _ name _ => name ≠ "" ∧ name.toList.all isUnitChar = true := by
    refine Spells.token (spells_run1.bind fun _ _ => spells_pure ?_)
    rintro rest ⟨rfl, nonempty, chars, _⟩
    exact ⟨by rwa [Ne, ← String.toList_eq_nil_iff, String.toList_ofList], by simpa using chars⟩
  exact spells.yields.of_readAll read

theorem reads_quantity {value : Phrase (Reading Value)} {dialect : Version} {magnitude : Binary64}
    (finite : magnitude.isFinite = true) (chars : unit.toList.all isUnitChar = true) :
    Reads (valueAround value dialect) (numberText ⟨magnitude, some unit⟩).toList []
      (.ok (.number ⟨magnitude, unitBehind unit⟩)) := by
  have isSigned : Decimal.IsSigned (magnitudeText magnitude).toList :=
    Decimal.isSigned_write spelling finite
  have writable : IsWritable ⟨magnitude, unitBehind unit⟩ :=
    ⟨fun name isName => ⟨isUnit_unitBehind chars name isName, finite⟩,
      fun finite => Decimal.read_write spelling finite⟩
  rw [List.all_eq_true] at chars
  -- The underscores at the front of the unit stand where those of the number may be.
  have marks : AllUnderscores (unit.toList.takeWhile (· == '_')) :=
    fun c member => by simpa using List.mem_takeWhile_imp member
  have reads := reads_finite writable finite marks .ended
  rw [toList_unitBehind, List.append_assoc, List.takeWhile_append_dropWhile] at reads
  rw [toList_numberText, Option.getD_some]
  refine reads_value_of_number ?_ ?_ ?_ .ended reads
  · obtain ⟨first, others, front, isFirst⟩ := isSigned.exists_cons
    rw [front, List.append_assoc, List.cons_append, stops_cons]
    rcases isFirst with isDigit | rfl
    · exact isMark_of_isDigit isDigit
    · rfl
  · rw [List.mem_append]
    rintro (inDigits | inUnit)
    · exact isSigned.not_mem (by decide) inDigits
    · exact absurd (chars '(' inUnit) (by decide)
  · rw [List.append_assoc]
    refine fails_clock_of_isSigned isSigned fun c isHead => ?_
    rw [List.append_nil] at isHead
    have isUnitChar := chars c (List.mem_of_mem_head? isHead)
    obtain ⟨noDigit, _, _, noHyphen⟩ := isUnitChar_other isUnitChar
    refine ⟨noDigit, noHyphen, ?_⟩
    rintro rfl
    exact absurd isUnitChar (by decide)

/-- A finite number with any unit is read back: the number is the same, and so is the unit unless it
starts with an underscore. -/
theorem readValue_quantity {magnitude : Binary64} (finite : magnitude.isFinite = true)
    (isUnit : Zinc.unit.readAll unit.toList = .ok unit) (version dialect : Version) :
    ∃ text, writeValue (.number ⟨magnitude, some unit⟩) version = .ok text ∧
      readValue text dialect = .ok (.number ⟨magnitude, unitBehind unit⟩) ∧
      (unitBehind unit = some unit ↔ unit.toList.head? ≠ some '_') := by
  obtain ⟨nonempty, chars⟩ := isUnitText_of_readAll isUnit
  exact ⟨_, rfl, readValue_of_reads fun _ => reads_quantity finite chars,
    unitBehind_eq_self_iff nonempty⟩

theorem readValue_quantity_area : Zinc.unit.readAll "m²".toList = .ok "m²" ∧
    ∃ text, writeValue (.number ⟨.ofInt (-40), some "m²"⟩) .two = .ok text ∧
      readValue text .three = .ok (.number ⟨.ofInt (-40), some "m²"⟩) := by
  have isUnit : Zinc.unit.readAll "m²".toList = .ok "m²" := by decide +kernel
  obtain ⟨text, written, read, whole⟩ :=
    readValue_quantity (by decide +kernel : (Binary64.ofInt (-40)).isFinite = true) isUnit .two .three
  rw [whole.mpr (by decide)] at read
  exact ⟨isUnit, text, written, read⟩

/-- What is read of 5 in a unit with an underscore at its front is 5 in another unit. -/
theorem not_readValue_quantity : ¬ ∀ (magnitude : Binary64) (unit : String),
    magnitude.isFinite = true → Zinc.unit.readAll unit.toList = .ok unit → ∀ version dialect,
      ∃ text, writeValue (.number ⟨magnitude, some unit⟩) version = .ok text ∧
        readValue text dialect = .ok (.number ⟨magnitude, some unit⟩) := by
  intro back
  have finite : (Binary64.ofInt 5).isFinite = true := by decide +kernel
  obtain ⟨text, written, read⟩ := back (.ofInt 5) "_x" finite (by decide +kernel) .three .three
  obtain rfl := Except.ok.inj written
  have other : readValue (numberText ⟨.ofInt 5, some "_x"⟩) .three =
      .ok (.number ⟨.ofInt 5, some "x"⟩) :=
    readValue_of_reads fun _ => reads_quantity finite (by decide)
  rw [other] at read
  injection read with same
  injection same with same
  injection same with _ same
  exact absurd same (by decide)

end Haystack.Zinc
