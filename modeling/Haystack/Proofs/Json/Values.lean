import Haystack.Json.Writer
import Haystack.Proofs.Json.Text
import Haystack.Proofs.Zinc.Values
import Haystack.Text.Blank

/-!
Values without parts as JSON trees, and what these are read as.

Each kind has a letter and a colon in front of its text, so that no text is taken for one of another
kind; inside it the first space, colon or comma parts what is free from what is not.
-/
namespace Haystack.Json

open Value (KeepsKind)

/-! ## Representable values -/

/-- A number with digits that are read as the same number. -/
structure IsQuantity (n : Number) : Prop where
  unit : n.unit ≠ some ""
  digits : n.magnitude.isFinite = true →
    Decimal.read (Zinc.magnitudeText n.magnitude).toList = .ok n.magnitude

/-- Bytes that were decoded from a text in an encoding whose name has no colon. -/
structure IsEncoded (x : XStr) : Prop where
  noColon : ':' ∉ x.encoding.toList
  decoded : ∃ payload, XStr.ofText x.encoding payload = .ok x

/-- An angle with digits that are read as the same angle. -/
def IsAngle (angle : Binary64) : Prop :=
  angle.isFinite = true → Decimal.read (Decimal.write Decimal.plain angle).toList = .ok angle

/-- A grid of version 3.0 or later whose tags all have columns, and whose metadata have neither the
names that the version and the columns take nor nulls under columns. -/
structure IsTable (grid : Grid) : Prop where
  version : grid.version.IsProper
  atLeast : grid.version.IsAtLeastThree
  metadata : "ver" ∉ grid.metadata.keys
  columnMetadata : ∀ held ∈ grid.columns.values, "name" ∉ held.keys ∧ ∀ value ∈ held.values, value ≠ .null
  declared : ∀ row ∈ grid.rows, ∀ name ∈ row.keys, name ∈ grid.columns.keys

/-- Whether a value itself can be written so that it is read again; of what is in it this says
nothing. -/
def Representable : Value → Prop
  | .number n => IsQuantity n
  | .xstr x => IsEncoded x
  | .ref r => Ref.isValidName r.name = true
  | .date d => d.isValid = true ∧ d.HasFourDigits
  | .time t => t.InDay ∧ t.IsProper
  | .dateTime d => Zinc.IsMoment d
  | .coord c => IsAngle c.latitude ∧ IsAngle c.longitude
  | .dict tags => tags.Distinct ∧ ¬ ("meta" ∈ tags.keys ∧ "cols" ∈ tags.keys ∧ "rows" ∈ tags.keys)
  | .grid g => Value.Keyed (.grid g) ∧ IsTable g
  | _ => True

/-! ## Texts after a letter -/

variable {dialect : Version} {related : Value → Value → Prop}

/-- Past a letter and a colon a string is known by the letter. -/
theorem stringValue_cons {text : String} {letter : Char} {rest : List Char}
    (shape : text.toList = letter :: ':' :: rest) (known : letter ∈ ['s', 'n', 'r', 'u', 'b', 'c', 'd', 'h', 't']) :
    stringValue text dialect =
      if letter = 's' then .ok (.str (String.ofList rest))
      else if letter = 'n' then (numberOf rest).map .number
      else if letter = 'r' then (referenceOf rest).map .ref
      else if letter = 'u' then .ok (.uri (String.ofList rest))
      else if letter = 'b' then .ok (.bin (String.ofList rest))
      else if letter = 'c' then (coordinateOf text rest).map .coord
      else if letter = 'd' then typedOf rest "Date" dialect
      else if letter = 'h' then typedOf rest "Time" dialect
      else typedOf rest "DateTime" dialect := by
  simp only [List.mem_cons, List.not_mem_nil, or_false] at known
  rw [stringValue, shape]
  rcases known with rfl | rfl | rfl | rfl | rfl | rfl | rfl | rfl | rfl <;> simp

theorem stringValue_str (s : String) : stringValue ("s:" ++ s) dialect = .ok (.str s) := by
  rw [stringValue_cons (show ("s:" ++ s).toList = 's' :: ':' :: s.toList by simp) (by decide)]
  simp

theorem stringValue_uri (s : String) : stringValue ("u:" ++ s) dialect = .ok (.uri s) := by
  rw [stringValue_cons (show ("u:" ++ s).toList = 'u' :: ':' :: s.toList by simp) (by decide)]
  simp

theorem stringValue_bin (s : String) : stringValue ("b:" ++ s) dialect = .ok (.bin s) := by
  rw [stringValue_cons (show ("b:" ++ s).toList = 'b' :: ':' :: s.toList by simp) (by decide)]
  simp

theorem not_mem_magnitudeText {x : Binary64} : ' ' ∉ (Zinc.magnitudeText x).toList := by
  intro member
  cases x with
  | nan => exact absurd member (by decide)
  | infinity negative => cases negative <;> exact absurd member (by decide)
  | finite negative significand exponent stored =>
      exact (Decimal.isSigned_write Zinc.spelling rfl).not_mem (by decide) member

/-- Digits and signs are none of the words for what is not finite. -/
theorem magnitudeText_ne {x : Binary64} (finite : x.isFinite = true) {word : String}
    (letters : (word.toList.any fun c => !(c.isDigit || c == '.' || c == '-')) = true) :
    (Zinc.magnitudeText x).toList ≠ word.toList := by
  intro same
  obtain ⟨c, member, other⟩ := List.any_eq_true.mp letters
  rw [← same] at member
  exact (Decimal.isSigned_write Zinc.spelling finite).not_mem (by simpa using other) member

theorem numberOf_cut {text digits unit : List Char} {magnitude : Binary64}
    (cut : (Text.cutFirst? (· == ' ') text).getD (text, []) = (digits, unit))
    (isDigits : digits = (Zinc.magnitudeText magnitude).toList)
    (read : magnitude.isFinite = true → Decimal.read (Zinc.magnitudeText magnitude).toList = .ok magnitude) :
    numberOf text = .ok (.quantity magnitude (String.ofList unit)) := by
  rw [numberOf, cut]
  subst isDigits
  cases magnitude with
  | nan => rfl
  | infinity negative => cases negative <;> rfl
  | finite negative significand exponent stored =>
      simp only
      rw [if_neg (magnitudeText_ne rfl (by decide)), if_neg (magnitudeText_ne rfl (by decide)),
        if_neg (magnitudeText_ne rfl (by decide)), read rfl]

theorem stringValue_number {n : Number} (isQuantity : IsQuantity n) :
    stringValue (numberText n) dialect = .ok (.number n) := by
  obtain ⟨magnitude, unit⟩ := n
  have clean : ∀ c ∈ (Zinc.magnitudeText magnitude).toList, (c == ' ') = false := fun c member => by
    have other : c ≠ ' ' := fun same => not_mem_magnitudeText (same ▸ member)
    simpa using other
  cases unit with
  | none =>
      have shape : (numberText ⟨magnitude, none⟩).toList =
          'n' :: ':' :: (Zinc.magnitudeText magnitude).toList := by simp [numberText]
      have cut : (Text.cutFirst? (· == ' ') (Zinc.magnitudeText magnitude).toList).getD
          ((Zinc.magnitudeText magnitude).toList, []) = ((Zinc.magnitudeText magnitude).toList, []) := by
        rw [Text.cutFirst?_clean clean]
        rfl
      rw [stringValue_cons shape (by decide), numberOf_cut cut rfl isQuantity.digits]
      rfl
  | some unit =>
      have shape : (numberText ⟨magnitude, some unit⟩).toList =
          'n' :: ':' :: ((Zinc.magnitudeText magnitude).toList ++ ' ' :: unit.toList) := by
        simp [numberText]
      have cut : (Text.cutFirst? (· == ' ') ((Zinc.magnitudeText magnitude).toList ++ ' ' :: unit.toList)).getD
          ((Zinc.magnitudeText magnitude).toList ++ ' ' :: unit.toList, []) =
          ((Zinc.magnitudeText magnitude).toList, unit.toList) := by
        rw [Text.cutFirst?_append_cons clean (by decide)]
        rfl
      have some : unit.isEmpty = false := by
        rw [String.isEmpty_eq_false_iff]
        exact fun none => isQuantity.unit (by rw [none])
      rw [stringValue_cons shape (by decide), numberOf_cut cut rfl isQuantity.digits,
        String.ofList_toList]
      simp [Number.quantity, some, Except.map]

theorem stringValue_ref {r : Ref} (valid : Ref.isValidName r.name = true) :
    stringValue (referenceText r) dialect = .ok (.ref r) := by
  obtain ⟨name, display⟩ := r
  have clean : ∀ c ∈ name.toList, (c == ' ') = false := by
    intro c member
    by_contra space
    obtain rfl : c = ' ' := by simpa using space
    rw [Ref.isValidName, Bool.and_eq_true, List.all_eq_true] at valid
    exact absurd (valid.2 ' ' member) (by decide)
  cases display with
  | none =>
      have shape : (referenceText ⟨name, none⟩).toList = 'r' :: ':' :: name.toList := by
        simp [referenceText]
      rw [stringValue_cons shape (by decide), referenceOf, Text.cutFirst?_clean clean]
      simp [Ref.checked, valid, Except.mapError, Except.map]
  | some display =>
      have shape : (referenceText ⟨name, some display⟩).toList =
          'r' :: ':' :: (name.toList ++ ' ' :: display.toList) := by simp [referenceText]
      rw [stringValue_cons shape (by decide), referenceOf,
        Text.cutFirst?_append_cons clean (by decide)]
      simp [Ref.checked, valid, Except.mapError, Except.map]

theorem stringValue_xstr {x : XStr} (isEncoded : IsEncoded x) :
    stringValue ("x:" ++ x.encoding ++ ":" ++ x.text) dialect = .ok (.xstr x) := by
  obtain ⟨noColon, payload, made⟩ := isEncoded
  have shape : ("x:" ++ x.encoding ++ ":" ++ x.text).toList =
      'x' :: ':' :: (x.encoding.toList ++ ':' :: x.text.toList) := by simp
  have clean : ∀ c ∈ x.encoding.toList, (c == ':') = false := fun c member => by
    have other : c ≠ ':' := fun same => noColon (same ▸ member)
    simpa using other
  rw [stringValue, shape]
  simp only [encodedOf, Text.cutFirst?_append_cons clean (show (':' == ':') = true from rfl),
    String.ofList_toList, XStr.ofText_text made]
  simp [Except.mapError, Except.map]

/-- The characters of an angle are neither blank nor a comma. -/
theorem chars_of_angle {x : Binary64} : ∀ c ∈ (Decimal.write Decimal.plain x).toList,
    Text.isBlank c = false ∧ (c == ',') = false := by
  intro c member
  have clean (unbounded : x.isFinite = false) :
      ((Decimal.write Decimal.plain x).toList.all fun c => !Text.isBlank c && !(c == ',')) = true := by
    cases x with
    | nan => decide
    | infinity negative => cases negative <;> decide
    | finite negative significand exponent stored => exact nomatch unbounded
  cases x with
  | nan => simpa using List.all_eq_true.mp (clean rfl) c member
  | infinity negative => simpa using List.all_eq_true.mp (clean rfl) c member
  | finite negative significand exponent stored =>
      rcases (Decimal.isSigned_write Decimal.plain rfl).chars c member with isDigit | rfl | rfl
      · exact Zinc.of_isDigit isDigit (by decide)
      · decide
      · decide

theorem angleOf_write {x : Binary64} (isAngle : IsAngle x) :
    angleOf (Decimal.write Decimal.plain x).toList = .ok x := by
  have read : Decimal.read (Decimal.write Decimal.plain x).toList = .ok x := by
    cases x with
    | nan => decide
    | infinity negative => cases negative <;> decide
    | finite negative significand exponent stored => exact isAngle rfl
  rw [angleOf, Text.trim_eq_self fun c member => (chars_of_angle c member).1, read]

theorem stringValue_coord {place : Coordinate} (isLatitude : IsAngle place.latitude)
    (isLongitude : IsAngle place.longitude) :
    stringValue (coordinateText place) dialect = .ok (.coord place) := by
  have shape : (coordinateText place).toList =
      'c' :: ':' :: ((Decimal.write Decimal.plain place.latitude).toList ++
        ',' :: (Decimal.write Decimal.plain place.longitude).toList) := by simp [coordinateText]
  rw [stringValue_cons shape (by decide), coordinateOf,
    Text.cutFirst?_append_cons (fun c member => (chars_of_angle c member).2) (by decide)]
  simp [angleOf_write isLatitude, angleOf_write isLongitude, bind, Except.bind, pure, Except.pure,
    Except.map]

/-! ## What is written as in the Zinc encoding -/

/-- The letters of the kinds that are written as in the Zinc encoding. -/
def zincLetters : List (Char × String) := [('d', "Date"), ('h', "Time"), ('t', "DateTime")]

/-- A Zinc text is read as a value of its kind after the letter of that. -/
theorem exists_stringValue_typed {letter : Char} {value : Value} {whole text : String} {version : Version}
    (keeps : KeepsKind related) (isLetter : (letter, value.kind) ∈ zincLetters)
    (shape : whole.toList = letter :: ':' :: text.toList)
    (rereads : Zinc.Rereads related .three version value)
    (written : Zinc.writeValue value version = .ok text) :
    ∃ back, stringValue whole .three = .ok back ∧ related back value := by
  obtain ⟨other, back, isWritten, relates, readable⟩ := rereads
  obtain rfl : text = other := Except.ok.inj (written.symm.trans isWritten)
  have read : typedOf text.toList value.kind .three = .ok back := by
    rw [typedOf, String.ofList_toList, Zinc.readValue_of_readable readable Zinc.compare_three_three]
    simp [bind, Except.bind, keeps back value relates, pure, Except.pure]
  refine ⟨back, ?_, relates⟩
  simp only [zincLetters, List.mem_cons, Prod.mk.injEq, List.not_mem_nil, or_false] at isLetter
  rcases isLetter with ⟨rfl, kind⟩ | ⟨rfl, kind⟩ | ⟨rfl, kind⟩
  all_goals
    rw [kind] at read
    rw [stringValue_cons shape (by decide)]
    exact read

/-! ## Values without parts -/

/-- In each version from 3.0 on the value has a tree that is read as one related to the value. -/
def Rereads (related : Value → Value → Prop) (value : Value) : Prop :=
  ∀ version : Version, version.IsAtLeastThree →
    ∃ tree back, treeOf value version = .ok tree ∧ tree.IsTextual ∧
      valueOf tree .three = .ok back ∧ related back value

theorem Rereads.mono {weaker : Value → Value → Prop} {value : Value} (rereads : Rereads related value)
    (implies : ∀ back, related back value → weaker back value) : Rereads weaker value := by
  intro version atLeast
  obtain ⟨tree, back, made, textual, read, relates⟩ := rereads version atLeast
  exact ⟨tree, back, made, textual, read, implies back relates⟩

/-- Whether what a value without parts is written as after its letter is read again. -/
def Legible (related : Value → Value → Prop) : Value → Prop
  | .number n => IsQuantity n
  | .xstr x => IsEncoded x
  | .ref r => Ref.isValidName r.name = true
  | .date d => ∀ version, version.IsAtLeastThree → Zinc.Rereads related .three version (.date d)
  | .time t => ∀ version, version.IsAtLeastThree → Zinc.Rereads related .three version (.time t)
  | .dateTime d => ∀ version, version.IsAtLeastThree → Zinc.Rereads related .three version (.dateTime d)
  | .coord c => IsAngle c.latitude ∧ IsAngle c.longitude
  | _ => True

theorem rereads_of_leaf {value : Value} (keeps : KeepsKind related) (same : related value value)
    (leaf : value.IsLeaf) (legible : Legible related value) : Rereads related value := by
  intro version atLeast
  have fits : value.ensureFits version = .ok () :=
    if_pos (Zinc.fits_of_isAtLeastThree atLeast value)
  cases value with
  | null => exact ⟨_, _, rfl, .null, rfl, same⟩
  | marker => exact ⟨_, _, rfl, .string _, rfl, same⟩
  | na => exact ⟨.string "z:", .na, by rw [treeOf, fits]; rfl, .string _, rfl, same⟩
  | remove =>
      refine ⟨.string (removeText version), .remove, rfl, .string _, ?_, same⟩
      rw [removeText, if_neg fun less => atLeast (beq_iff_eq.mp less)]
      rfl
  | bool b => exact ⟨_, _, rfl, .bool b, rfl, same⟩
  | number n => exact ⟨_, _, rfl, .string _, stringValue_number legible, same⟩
  | str s => exact ⟨_, _, rfl, .string _, stringValue_str s, same⟩
  | uri s => exact ⟨_, _, rfl, .string _, stringValue_uri s, same⟩
  | bin mime => exact ⟨_, _, rfl, .string _, stringValue_bin mime, same⟩
  | xstr x => exact ⟨_, _, rfl, .string _, stringValue_xstr legible, same⟩
  | ref r => exact ⟨_, _, rfl, .string _, stringValue_ref legible, same⟩
  | date d =>
      have shape : ("d:" ++ d.text).toList = 'd' :: ':' :: d.text.toList := by simp
      obtain ⟨back, read, relates⟩ := exists_stringValue_typed keeps (by simp [zincLetters, Value.kind])
        shape (legible version atLeast) rfl
      exact ⟨_, back, rfl, .string _, read, relates⟩
  | time t =>
      have shape : ("h:" ++ t.text).toList = 'h' :: ':' :: t.text.toList := by simp
      obtain ⟨back, read, relates⟩ := exists_stringValue_typed keeps (by simp [zincLetters, Value.kind])
        shape (legible version atLeast) rfl
      exact ⟨_, back, rfl, .string _, read, relates⟩
  | dateTime d =>
      have shape : ("t:" ++ Zinc.dateTimeText d).toList = 't' :: ':' :: (Zinc.dateTimeText d).toList := by simp
      obtain ⟨back, read, relates⟩ := exists_stringValue_typed keeps (by simp [zincLetters, Value.kind])
        shape (legible version atLeast) rfl
      exact ⟨_, back, rfl, .string _, read, relates⟩
  | coord place =>
      exact ⟨_, _, rfl, .string _, stringValue_coord legible.1 legible.2, same⟩
  | list items => exact leaf.elim
  | dict tags => exact leaf.elim
  | grid g => exact leaf.elim

end Haystack.Json
