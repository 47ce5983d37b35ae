import Haystack.Proofs.Decimal
import Haystack.Proofs.Zinc.Clock

/-!
Numbers and coordinates as they stand in a text.

A number ends where its unit starts, or what follows the value if it has none. A unit may start with
the letter of an exponent, but has no digits that would make it one.
-/
namespace Haystack.Zinc

open Phrase

variable {text rest : List Char} {c : Char}

/-! ## Characters of units -/

theorem isDigit_iff : c.isDigit = true ↔ 48 ≤ c.toNat ∧ c.toNat ≤ 57 := by
  simp [Char.isDigit, UInt32.le_iff_toNat_le]

/-- What holds of the ten digits holds of a character that is one. -/
@[elab_as_elim]
theorem of_isDigit {p : Char → Prop} (isDigit : c.isDigit = true)
    (each : ∀ n, 48 ≤ n → n ≤ 57 → p (Char.ofNat n)) : p c := by
  obtain ⟨low, high⟩ := isDigit_iff.mp isDigit
  have here := each c.toNat low high
  rwa [Char.ofNat_toNat] at here

theorem isAlpha_iff : c.isAlpha = true ↔
    (65 ≤ c.toNat ∧ c.toNat ≤ 90) ∨ (97 ≤ c.toNat ∧ c.toNat ≤ 122) := by
  change (decide (65 ≤ c.val ∧ c.val ≤ 90) || (decide (97 ≤ c.val) && decide (c.val ≤ 122))) = true ↔ _
  simp [UInt32.le_iff_toNat_le]

/-- The characters of a unit are not those of a number. -/
theorem isUnitChar_other (isUnit : isUnitChar c = true) :
    c.isDigit = false ∧ c ≠ '.' ∧ c ≠ '+' ∧ c ≠ '-' := by
  simp only [isUnitChar, Bool.or_eq_true, beq_iff_eq, decide_eq_true_eq] at isUnit
  rcases isUnit with ((((isLetter | rfl) | rfl) | rfl) | rfl) | large
  · rw [isAlpha_iff] at isLetter
    refine ⟨?_, ?_, ?_, ?_⟩
    · rw [← Bool.not_eq_true, isDigit_iff]
      omega
    all_goals rintro rfl; revert isLetter; decide
  · decide
  · decide
  · decide
  · decide
  · refine ⟨?_, ?_, ?_, ?_⟩
    · rw [← Bool.not_eq_true, isDigit_iff]
      omega
    all_goals rintro rfl; revert large; decide

/-! ## Digits -/

/-- No digit, point or underscore goes on with a number. -/
def isNumberChar (c : Char) : Bool := c.isDigit || c == '_' || c == '.'

/-- Underscores after the digits go with them. -/
def AllUnderscores (marks : List Char) : Prop := ∀ c ∈ marks, c = '_'

theorem allUnderscores_nil : AllUnderscores [] := fun _ member => nomatch member

theorem reads_digits {digits marks : List Char} (nonempty : digits ≠ []) (all : AllDigits digits)
    (underscores : AllUnderscores marks) (stops : Stops (fun c => c.isDigit || c == '_') rest) :
    Reads Zinc.digits (digits ++ marks) rest () := by
  match digits, nonempty with
  | first :: others, _ =>
      refine Reads.bind_cons (reads_satisfying (all first (by simp))) (Reads.last (reads_run ?_ stops) reads_pure)
      intro c member
      rcases List.mem_append.mp member with inOthers | inMarks
      · simp [all c (by simp [inOthers])]
      · simp [underscores c inMarks]

theorem fails_digits (stops : Stops Char.isDigit rest) : Fails digits rest :=
  Fails.bind (fails_satisfying stops)

/-- The exponent of a number. -/
def exponent : Phrase Unit := do
  let _ ← satisfying fun c => c == 'e' || c == 'E'
  let _ ← Phrase.optional (satisfying fun c => c == '+' || c == '-')
  digits

/-- What follows the digits of a number: no more digits, no point, and no exponent. -/
structure EndsNumber (rest : List Char) : Prop where
  stops : Stops isNumberChar rest
  exponent : Fails exponent rest

theorem reads_decimal_tail (ends : EndsNumber rest) :
    Reads (do
      let _ ← Phrase.optional exponent) [] rest () :=
  Reads.skip ends.exponent.optional reads_pure

/-- A plain number is read as a whole, with underscores after it. -/
theorem reads_decimal {marks : List Char} (isSigned : Decimal.IsSigned text)
    (underscores : AllUnderscores marks) (ends : EndsNumber rest) :
    Reads decimal (text ++ marks) rest (text ++ marks) := by
  have noPoint : rest.head? ≠ some '.' := fun head => by
    simpa [isNumberChar] using ends.stops '.' head
  have noDigit : Stops (fun c => c.isDigit || c == '_') rest := fun c head =>
    (Bool.or_eq_false_iff.mp (ends.stops c head)).1
  have unsigned {plain : List Char} (isPlain : Decimal.IsPlain plain) : Reads (do
      digits
      let _ ← Phrase.optional do
        let _ ← char '.'
        digits
      let _ ← Phrase.optional exponent) (plain ++ marks) rest () := by
    cases isPlain with
    | whole digits nonempty all =>
        refine Reads.last (reads_digits nonempty all underscores noDigit) ?_
        exact Reads.skip (Fails.optional (Fails.bind (fails_char noPoint))) (reads_decimal_tail ends)
    | point digits fraction nonempty all fractionNonempty fractionAll =>
        rw [List.append_assoc, List.cons_append, ← List.append_nil digits]
        refine Reads.bind (reads_digits nonempty all allUnderscores_nil (by simp)) ?_
        refine Reads.last (Reads.optional (a := ()) (Reads.bind_cons reads_char ?_)) (reads_decimal_tail ends)
        exact reads_digits fractionNonempty fractionAll underscores noDigit
  have signed : Reads (do
      let _ ← Phrase.optional (char '-')
      digits
      let _ ← Phrase.optional do
        let _ ← char '.'
        digits
      let _ ← Phrase.optional exponent) (text ++ marks) rest () := by
    obtain ⟨plain, isPlain, rfl | rfl⟩ := isSigned
    · refine Reads.skip (Fails.optional (fails_char ?_)) (unsigned isPlain)
      intro head
      obtain ⟨digits, more, nonempty, all, rfl, _⟩ := isPlain.exists_digits
      obtain ⟨first, others, rfl⟩ := List.exists_cons_of_ne_nil nonempty
      obtain rfl := Option.some.inj head
      exact absurd (all '-' (by simp)) (by decide)
    · change Reads _ (['-'] ++ (plain ++ marks)) rest ()
      exact Reads.bind reads_char.optional (unsigned isPlain)
  exact Takes.token signed.spanned

/-! ## Numbers -/

/-- Past a letter of an exponent there is neither a digit nor a sign. -/
theorem fails_exponent (stops : Stops (fun c => c.isDigit || c == '+' || c == '-') rest) :
    Fails exponent (c :: rest) := by
  have noDigit : Stops Char.isDigit rest := fun d head => by
    have rejected := stops d head
    simp only [Bool.or_eq_false_iff] at rejected
    exact rejected.1.1
  have noSign : Stops (fun c => c == '+' || c == '-') rest := fun d head => by
    have rejected := stops d head
    simp only [Bool.or_eq_false_iff] at rejected ⊢
    exact ⟨rejected.1.2, rejected.2⟩
  by_cases letter : (c == 'e' || c == 'E') = true
  · change Fails exponent ([c] ++ rest)
    refine Reads.bind_fails (reads_satisfying letter) (Reads.skip_fails (Fails.optional ?_) ?_)
    · exact fails_satisfying noSign
    · exact fails_digits noDigit
  · exact Fails.bind (fails_satisfying (stops_cons.mpr (by simpa using letter)))

theorem Follows.endsNumber (follows : Follows rest) : EndsNumber rest where
  stops := follows.stops_of_all (by decide)
  exponent := Fails.bind (fails_satisfying (follows.stops_of_all (by decide)))

/-- A text that can be the unit of a number. -/
structure IsUnit (unit : String) : Prop where
  nonempty : unit ≠ ""
  chars : unit.toList.all isUnitChar = true
  front : unit.toList.head? ≠ some '_'

theorem IsUnit.endsNumber {unit : String} (isUnit : IsUnit unit) (follows : Follows rest) :
    EndsNumber (unit.toList ++ rest) := by
  have all := List.all_eq_true.mp isUnit.chars
  have front := isUnit.front
  have nonempty : unit.toList ≠ [] := fun none => isUnit.nonempty (String.toList_eq_nil_iff.mp none)
  obtain ⟨first, others, shape⟩ := List.exists_cons_of_ne_nil nonempty
  rw [shape] at all front ⊢
  obtain ⟨noDigit, noPoint, _, _⟩ := isUnitChar_other (all first (by simp))
  refine ⟨?_, fails_exponent ?_⟩
  · rw [List.cons_append, stops_cons]
    have noUnderscore : first ≠ '_' := fun same => front (by simp [same])
    simp [isNumberChar, noDigit, noUnderscore, noPoint]
  · cases others with
    | nil => exact follows.stops_of_all (by decide)
    | cons second others =>
        obtain ⟨noDigit, _, noPlus, noMinus⟩ := isUnitChar_other (all second (by simp))
        simp [noDigit, noPlus, noMinus]

/-- A number whose text means it again: digits that are read as the same number, and a unit after
finite ones only. -/
structure IsWritable (n : Number) : Prop where
  unit : ∀ unit ∈ n.unit, IsUnit unit ∧ n.magnitude.isFinite = true
  digits : n.magnitude.isFinite = true →
    Decimal.read (magnitudeText n.magnitude).toList = .ok n.magnitude

theorem IsWritable.unitless {magnitude : Binary64} {unit : Option String}
    (writable : IsWritable ⟨magnitude, unit⟩) (special : ¬ magnitude.isFinite = true) : unit = none := by
  cases unit with
  | none => rfl
  | some name => exact absurd (writable.unit name rfl).2 special

/-- Underscores mean nothing in a number. -/
theorem decimalValue_underscored {marks : List Char} (isSigned : Decimal.IsSigned text)
    (underscores : AllUnderscores marks) :
    decimalValue (text ++ marks) = (Decimal.read text).mapError .number := by
  have noMark : text.filter (· != '_') = text := by
    rw [List.filter_eq_self]
    intro c member
    rcases isSigned.chars c member with isDigit | rfl | rfl
    · have noUnderscore : c ≠ '_' := by
        rintro rfl
        exact absurd isDigit (by decide)
      simpa using noUnderscore
    · decide
    · decide
  have allMarks : marks.filter (· != '_') = [] :=
    List.filter_eq_nil_iff.mpr fun c member => by simp [underscores c member]
  rw [decimalValue, List.filter_append, noMark, allMarks, List.append_nil]

theorem head?_ne_of_isPlain (isPlain : Decimal.IsPlain text) (noDigit : c.isDigit = false) :
    (text ++ rest).head? ≠ some c := by
  obtain ⟨digits, more, nonempty, all, rfl, _⟩ := isPlain.exists_digits
  obtain ⟨first, others, rfl⟩ := List.exists_cons_of_ne_nil nonempty
  intro head
  obtain rfl := Option.some.inj head
  rw [all first (by simp)] at noDigit
  exact absurd noDigit (by decide)

theorem fails_specialNumber (isSigned : Decimal.IsSigned text) :
    Fails specialNumber (text ++ rest) := by
  obtain ⟨plain, isPlain, rfl | rfl⟩ := isSigned
  · refine Fails.token (Fails.orElse (Fails.bind ?_) (Fails.orElse (Fails.bind ?_) (Fails.bind ?_)))
    · exact fails_word (c := '-') (by decide) (head?_ne_of_isPlain isPlain (by decide))
    · exact fails_word (c := 'I') (by decide) (head?_ne_of_isPlain isPlain (by decide))
    · exact fails_word (c := 'N') (by decide) (head?_ne_of_isPlain isPlain (by decide))
  · refine Fails.token (Fails.orElse (Fails.bind ?_) (Fails.orElse (Fails.bind ?_) (Fails.bind ?_)))
    · rw [Phrase.word, show "-INF".toList = ['-', 'I', 'N', 'F'] by decide]
      change Fails _ (['-'] ++ (plain ++ rest))
      refine Reads.bind_fails reads_char ?_
      exact fails_chars_cons (head?_ne_of_isPlain isPlain (by decide))
    · exact fails_word (c := 'I') (by decide) (by simp)
    · exact fails_word (c := 'N') (by decide) (by simp)

/-- The unit of a number, if it has one. -/
theorem reads_unit? {unit : Option String} (isUnit : ∀ name ∈ unit, IsUnit name)
    (follows : Follows rest) : Reads (Phrase.optional Zinc.unit) (unit.getD "").toList rest unit ∧
      EndsNumber ((unit.getD "").toList ++ rest) := by
  cases unit with
  | none =>
      have fails : Fails Zinc.unit rest :=
        Fails.token (Fails.bind (fails_run1 (follows.stops_of_all (by decide))))
      exact ⟨fails.optional, follows.endsNumber⟩
  | some name =>
      have here := isUnit name rfl
      have nonempty : name.toList ≠ [] := fun none => here.nonempty (String.toList_eq_nil_iff.mp none)
      have reads : Reads Zinc.unit name.toList rest name := by
        refine Takes.token (Reads.last (reads_run1 (List.all_eq_true.mp here.chars) nonempty
          (follows.stops_of_all (by decide))) ?_)
        rw [String.ofList_toList]
        exact reads_pure
      exact ⟨reads.optional, here.endsNumber follows⟩

/-- Underscores between the digits of a number and its unit are passed over. -/
theorem reads_finite {n : Number} {marks : List Char} (writable : IsWritable n)
    (finite : n.magnitude.isFinite = true) (underscores : AllUnderscores marks)
    (follows : Follows rest) :
    Reads number ((magnitudeText n.magnitude).toList ++ marks ++ (n.unit.getD "").toList) rest
      (.ok (.number n)) := by
  have isSigned : Decimal.IsSigned (magnitudeText n.magnitude).toList :=
    Decimal.isSigned_write spelling finite
  have value : decimalValue ((magnitudeText n.magnitude).toList ++ marks) = .ok n.magnitude := by
    rw [decimalValue_underscored isSigned underscores, writable.digits finite]
    rfl
  obtain ⟨unit, ends⟩ := reads_unit? (fun name isName => (writable.unit name isName).1) follows
  refine Takes.named (Fails.orElse_takes (Fails.bind ?_) (takes_here_bind fun offset => ?_))
  · rw [List.append_assoc, List.append_assoc]
    exact fails_specialNumber isSigned
  refine Reads.bind (reads_decimal isSigned underscores ends) (Reads.last unit ?_)
  rw [value]
  exact reads_pure

theorem toList_numberText (n : Number) : (numberText n).toList =
    (magnitudeText n.magnitude).toList ++ (n.unit.getD "").toList := by simp [numberText]

/-- How the numbers without digits are written. -/
theorem numberText_special {magnitude : Binary64} (special : ¬ magnitude.isFinite = true) :
    (numberText ⟨magnitude, none⟩ = "-INF" ∧ magnitude = .infinity true) ∨
      (numberText ⟨magnitude, none⟩ = "INF" ∧ magnitude = .infinity false) ∨
      (numberText ⟨magnitude, none⟩ = "NaN" ∧ magnitude = .nan) := by
  cases magnitude with
  | finite => exact absurd rfl special
  | nan => exact .inr (.inr ⟨by decide, rfl⟩)
  | infinity negative =>
      cases negative with
      | true => exact .inl ⟨by decide, rfl⟩
      | false => exact .inr (.inl ⟨by decide, rfl⟩)

theorem reads_specialNumber {magnitude : Binary64} (special : ¬ magnitude.isFinite = true) :
    Reads specialNumber (numberText ⟨magnitude, none⟩).toList rest magnitude := by
  refine Takes.token ?_
  rcases numberText_special special with ⟨text, rfl⟩ | ⟨text, rfl⟩ | ⟨text, rfl⟩
  · rw [text]
    exact Takes.orElse (Reads.last (reads_word "-INF") reads_pure)
  · rw [text]
    refine Fails.orElse_takes (Fails.bind (fails_word (c := '-') (by decide) (by simp))) ?_
    exact Takes.orElse (Reads.last (reads_word "INF") reads_pure)
  · rw [text]
    refine Fails.orElse_takes (Fails.bind (fails_word (c := '-') (by decide) (by simp))) ?_
    refine Fails.orElse_takes (Fails.bind (fails_word (c := 'I') (by decide) (by simp))) ?_
    exact Reads.last (reads_word "NaN") reads_pure

/-- A number is read as itself. -/
theorem reads_number {n : Number} (writable : IsWritable n) (follows : Follows rest) :
    Reads number (numberText n).toList rest (.ok (.number n)) := by
  by_cases finite : n.magnitude.isFinite = true
  · rw [toList_numberText]
    simpa using reads_finite writable finite allUnderscores_nil follows
  obtain ⟨magnitude, unit⟩ := n
  obtain rfl := writable.unitless finite
  exact Takes.named (Takes.orElse (Reads.last (reads_specialNumber finite) reads_pure))

/-- After the digits of a number come neither a hyphen nor a colon. -/
theorem stops_clock {unit : Option String} (isUnit : ∀ name ∈ unit, IsUnit name)
    (follows : Follows rest) {c : Char} (isHead : c ∈ ((unit.getD "").toList ++ rest).head?) :
    c.isDigit = false ∧ c ≠ '-' ∧ c ≠ ':' := by
  cases unit with
  | none =>
      have stops : Stops (fun c => c.isDigit || c == '-' || c == ':') rest :=
        follows.stops_of_all (by decide)
      simpa [and_assoc] using stops c isHead
  | some name =>
      have here := isUnit name rfl
      have nonempty : name.toList ≠ [] := fun none => here.nonempty (String.toList_eq_nil_iff.mp none)
      obtain ⟨first, others, shape⟩ := List.exists_cons_of_ne_nil nonempty
      have all := List.all_eq_true.mp here.chars
      rw [Option.getD_some, shape] at isHead
      obtain rfl : first = c := Option.some.inj isHead
      have isUnitChar := all first (by simp [shape])
      obtain ⟨noDigit, _, _, noHyphen⟩ := isUnitChar_other isUnitChar
      refine ⟨noDigit, noHyphen, ?_⟩
      rintro rfl
      exact absurd isUnitChar (by decide)

/-- Digits are neither a date nor a time where no hyphen and no colon comes after them. -/
theorem fails_clock_of_isSigned (isSigned : Decimal.IsSigned text)
    (ends : ∀ c ∈ rest.head?, c.isDigit = false ∧ c ≠ '-' ∧ c ≠ ':') :
    Fails dateText (text ++ rest) ∧ Fails timeText (text ++ rest) := by
  obtain ⟨plain, isPlain, rfl | rfl⟩ := isSigned
  · obtain ⟨digits, more, _, all, rfl, point⟩ := isPlain.exists_digits
    rw [List.append_assoc]
    have after : ∀ c ∈ (more ++ rest).head?, c.isDigit = false ∧ c ≠ '-' ∧ c ≠ ':' := by
      intro c isHead
      cases more with
      | nil => exact ends c isHead
      | cons d others =>
          obtain rfl : d = c := Option.some.inj isHead
          rw [point d rfl]
          decide
    refine ⟨fails_dateText all fun c isHead => ?_, fails_timeText all fun c isHead => ?_⟩
    · obtain ⟨noDigit, noHyphen, _⟩ := after c isHead
      simp [noDigit, noHyphen]
    · obtain ⟨noDigit, _, noColon⟩ := after c isHead
      simp [noDigit, noColon]
  · exact ⟨fails_twoDigits_bind (by simp), fails_twoDigits_bind (by simp)⟩

/-- A number is neither a date nor a time. -/
theorem fails_clock_of_number {n : Number} (writable : IsWritable n) (follows : Follows rest) :
    Fails dateText ((numberText n).toList ++ rest) ∧
      Fails timeText ((numberText n).toList ++ rest) := by
  by_cases finite : n.magnitude.isFinite = true
  · rw [toList_numberText, List.append_assoc]
    exact fails_clock_of_isSigned (Decimal.isSigned_write spelling finite) fun c isHead =>
      stops_clock (fun name isName => (writable.unit name isName).1) follows isHead
  · obtain ⟨magnitude, unit⟩ := n
    obtain rfl := writable.unitless finite
    rcases numberText_special finite with ⟨text, _⟩ | ⟨text, _⟩ | ⟨text, _⟩
    all_goals
      rw [text]
      exact ⟨fails_twoDigits_bind (by simp), fails_twoDigits_bind (by simp)⟩

/-- What a number is written with. -/
theorem exists_numberText {n : Number} (writable : IsWritable n) :
    ∃ first others, (numberText n).toList = first :: others ∧
      (first.isDigit = true ∨ first ∈ ['-', 'I', 'N']) ∧ '(' ∉ (numberText n).toList := by
  by_cases finite : n.magnitude.isFinite = true
  · have shape := toList_numberText n
    have isSigned : Decimal.IsSigned (magnitudeText n.magnitude).toList :=
      Decimal.isSigned_write spelling finite
    obtain ⟨first, others, front, isFirst⟩ := isSigned.exists_cons
    refine ⟨first, others ++ (n.unit.getD "").toList, by rw [shape, front]; rfl, ?_, ?_⟩
    · rcases isFirst with isDigit | rfl
      · exact .inl isDigit
      · exact .inr (by simp)
    · rw [shape, List.mem_append]
      rintro (inDigits | inUnit)
      · exact isSigned.not_mem (by decide) inDigits
      · obtain ⟨magnitude, unit⟩ := n
        cases unit with
        | none => simp at inUnit
        | some name =>
            have chars := List.all_eq_true.mp (writable.unit name rfl).1.chars
            exact absurd (chars '(' inUnit) (by decide)
  · obtain ⟨magnitude, unit⟩ := n
    obtain rfl := writable.unitless finite
    rcases numberText_special finite with ⟨text, _⟩ | ⟨text, _⟩ | ⟨text, _⟩
    · exact ⟨'-', ['I', 'N', 'F'], by rw [text]; decide, by simp, by rw [text]; decide⟩
    · exact ⟨'I', ['N', 'F'], by rw [text]; decide, by simp, by rw [text]; decide⟩
    · exact ⟨'N', ['a', 'N'], by rw [text]; decide, by simp, by rw [text]; decide⟩

/-! ## Coordinates -/

theorem reads_degrees (isSigned : Decimal.IsSigned text)
    (stops : Stops (fun c => c.isDigit || c == '.') rest) : Reads degrees text rest text := by
  have noDigit : Stops Char.isDigit rest := fun c head => (Bool.or_eq_false_iff.mp (stops c head)).1
  have noPoint : rest.head? ≠ some '.' := fun head => by simpa using stops '.' head
  have unsigned {plain : List Char} (isPlain : Decimal.IsPlain plain) : Reads (do
      let _ ← run Char.isDigit
      let _ ← Phrase.optional do
        let _ ← char '.'
        run1 Char.isDigit) plain rest () := by
    cases isPlain with
    | whole digits nonempty all =>
        refine Reads.last (reads_run all noDigit) (Reads.skip (Fails.optional ?_) reads_pure)
        exact Fails.bind (fails_char noPoint)
    | point digits fraction nonempty all fractionNonempty fractionAll =>
        refine Reads.bind (reads_run all (by simp)) ?_
        refine Reads.last (Reads.optional (a := fraction) (Reads.bind_cons reads_char ?_)) reads_pure
        exact reads_run1 fractionAll fractionNonempty noDigit
  obtain ⟨plain, isPlain, rfl | rfl⟩ := isSigned
  · refine Reads.spanned (a := ()) (Reads.skip (Fails.optional (fails_char ?_)) (unsigned isPlain))
    exact head?_ne_of_isPlain isPlain (by decide)
  · exact Reads.spanned (a := ()) (Reads.bind (reads_char (c := '-')).optional (unsigned isPlain))

theorem degreesValue_of_isSigned {x : Binary64} (isSigned : Decimal.IsSigned text)
    (isNumber : Decimal.read text = .ok x) : degreesValue text = .ok x := by
  have digits : ¬ (text = [] ∨ text = ['-']) := by
    obtain ⟨plain, isPlain, rfl | rfl⟩ := isSigned
    all_goals
      obtain ⟨digits, more, nonempty, all, rfl, _⟩ := isPlain.exists_digits
      obtain ⟨first, others, rfl⟩ := List.exists_cons_of_ne_nil nonempty
      simp
    rintro rfl
    exact absurd (all '-' (by simp)) (by decide)
  rw [degreesValue, if_neg digits, isNumber]
  rfl

theorem stops_isSpace_of_isSigned (isSigned : Decimal.IsSigned text) :
    Stops isSpace (text ++ rest) := by
  obtain ⟨first, others, rfl, isDigit | rfl⟩ := isSigned.exists_cons
  · rw [List.cons_append, stops_cons]
    exact not_isSpace_of_isValueStart (by simp [isValueStart, isIdChar, Char.isAlphanum, isDigit])
  · simp [isSpace]

/-- The text of a place. -/
def coordinateText (place : Coordinate) : String :=
  "C(" ++ degreesText place.latitude ++ "," ++ degreesText place.longitude ++ ")"

theorem reads_coordinate {place : Coordinate} {latitude longitude : Binary64}
    (finite : place.latitude.isFinite = true ∧ place.longitude.isFinite = true)
    (isLatitude : Decimal.read (degreesText place.latitude).toList = .ok latitude)
    (isLongitude : Decimal.read (degreesText place.longitude).toList = .ok longitude) :
    Reads coordinate (coordinateText place).toList rest (.ok (.coord ⟨latitude, longitude⟩)) := by
  have signedLatitude : Decimal.IsSigned (degreesText place.latitude).toList :=
    Decimal.isSigned_writeFixed (by decide) finite.1
  have signedLongitude : Decimal.IsSigned (degreesText place.longitude).toList :=
    Decimal.isSigned_writeFixed (by decide) finite.2
  have shape : (coordinateText place).toList = "C(".toList ++ ((degreesText place.latitude).toList ++
      ',' :: ((degreesText place.longitude).toList ++ [')'])) := by simp [coordinateText]
  rw [shape]
  refine Takes.named (takes_here_bind fun offset => Reads.bind (reads_word "C(") ?_)
  refine Reads.skip (reads_spaces_nil ?_) ?_
  · rw [List.append_assoc]
    exact stops_isSpace_of_isSigned signedLatitude
  refine Reads.bind (reads_degrees signedLatitude (by simp)) ?_
  refine Reads.skip (reads_spaces_nil (by simp [isSpace])) (Reads.bind_cons reads_char ?_)
  refine Reads.skip (reads_spaces_nil ?_) ?_
  · rw [List.append_assoc]
    exact stops_isSpace_of_isSigned signedLongitude
  refine Reads.bind (reads_degrees signedLongitude (by simp)) ?_
  refine Reads.skip (reads_spaces_nil (by simp [isSpace])) (Reads.last reads_char ?_)
  rw [degreesValue_of_isSigned signedLatitude isLatitude,
    degreesValue_of_isSigned signedLongitude isLongitude]
  exact reads_pure

end Haystack.Zinc
