import Haystack.Zinc.Quoted
import Mathlib.Data.List.Basic

/-!
The pieces of what stands between quotes.

A body is a row of pieces: characters, escapes of one letter, and character numbers in four
hexadecimal digits. Each is taken and resolved by itself, and only the number of a surrogate is no
character. No piece is the beginning of another one, so a body is a row of pieces in one way.
-/
namespace Haystack.Zinc

/-! ## Pieces -/

/-- What stands between quotes. -/
inductive Piece where
  /-- A character that is no backslash. -/
  | plain (c : Char)
  /-- A backslash and a character. -/
  | escape (letter : Char)
  /-- A backslash, `u` in either case, and four hexadecimal digits. -/
  | number (mark a b c d : Char)

/-- The mark on both sides of a quoted text, or of a URI. -/
def quoteMark (uri : Bool) : Char := if uri then '\x60' else '"'

namespace Piece

def text : Piece → List Char
  | .plain c => [c]
  | .escape letter => ['\\', letter]
  | .number mark a b c d => ['\\', mark, a, b, c, d]

/-- The pieces of a quoted text, or of a URI. -/
def Allowed (uri : Bool) : Piece → Prop
  | .plain c => c ≠ '\\' ∧ c ≠ quoteMark uri ∧ isControl c = false
  | .escape letter => if uri then ¬ (letter = 'u' ∨ letter = 'U') else letter ∈ escapeLetters
  | .number mark a b c d => startsUnicodeEscape [mark, a, b, c, d] = true

/-- The number that hexadecimal digits are. -/
def hexNumber (digits : List Char) : Nat :=
  digits.foldl (fun total c => 16 * total + (Text.Hex.digitValue? c).getD 0) 0

/-- Whether the piece is the number of a surrogate. -/
def IsSurrogate : Piece → Prop
  | .number _ a b c d => 0xd800 ≤ hexNumber [a, b, c, d] ∧ hexNumber [a, b, c, d] ≤ 0xdfff
  | _ => False

/-- What the piece stands for. In a URI an escape is kept as written, unless it is that of the mark or
of the backslash. -/
def meaning (uri : Bool) : Piece → List Char
  | .plain c => [c]
  | .escape letter =>
      if uri then if letter = '\x60' ∨ letter = '\\' then [letter] else ['\\', letter]
      else (escapedChar? letter).toList
  | .number _ a b c d => [Char.ofNat (hexNumber [a, b, c, d])]

end Piece

/-- The text of a row of pieces. -/
def spelled (pieces : List Piece) : List Char := pieces.flatMap Piece.text

variable {uri : Bool} {letter : Char} {piece other : Piece} {pieces others : List Piece}
  {text more rest : List Char} {unit? : List Char → Option Nat}

theorem Piece.text_ne_nil (piece : Piece) : piece.text ≠ [] := by
  cases piece <;> exact List.cons_ne_nil _ _

/-! ## Numbers of characters -/

theorem startsUnicodeEscape_iff {mark a b c d : Char} :
    startsUnicodeEscape (mark :: a :: b :: c :: d :: rest) = true ↔
      (mark = 'u' ∨ mark = 'U') ∧ ∀ digit ∈ [a, b, c, d], isHexDigit digit = true := by
  simp [startsUnicodeEscape, and_assoc]

theorem exists_digits_of_startsUnicodeEscape (starts : startsUnicodeEscape text = true) :
    ∃ mark a b c d rest, text = mark :: a :: b :: c :: d :: rest := by
  rcases text with _ | ⟨mark, _ | ⟨a, _ | ⟨b, _ | ⟨c, _ | ⟨d, rest⟩⟩⟩⟩⟩
  case cons.cons.cons.cons.cons => exact ⟨mark, a, b, c, d, rest, rfl⟩
  all_goals exact nomatch starts

theorem startsUnicodeEscape_longer (starts : startsUnicodeEscape text = true) (more : List Char) :
    startsUnicodeEscape (text ++ more) = true := by
  obtain ⟨mark, a, b, c, d, rest, rfl⟩ := exists_digits_of_startsUnicodeEscape starts
  exact starts

theorem exists_digitValue {c : Char} (isHex : isHexDigit c = true) :
    ∃ value, Text.Hex.digitValue? c = some value ∧ value < 16 := by
  obtain ⟨value, isValue⟩ := Option.isSome_iff_exists.mp isHex
  refine ⟨value, isValue, ?_⟩
  have digits : ('0' : Char).toNat = 48 ∧ ('9' : Char).toNat = 57 := ⟨rfl, rfl⟩
  have lower : ('a' : Char).toNat = 97 ∧ ('f' : Char).toNat = 102 := ⟨rfl, rfl⟩
  have upper : ('A' : Char).toNat = 65 ∧ ('F' : Char).toNat = 70 := ⟨rfl, rfl⟩
  unfold Text.Hex.digitValue? at isValue
  simp only [Char.le_def, UInt32.le_iff_toNat_le, Char.toNat_val] at isValue
  split at isValue
  · obtain rfl := Option.some.inj isValue
    omega
  split at isValue
  · obtain rfl := Option.some.inj isValue
    omega
  split at isValue
  · obtain rfl := Option.some.inj isValue
    omega
  · exact nomatch isValue

theorem hexValue?_eq {a b c d : Char} (all : ∀ digit ∈ [a, b, c, d], isHexDigit digit = true) :
    hexValue? [a, b, c, d] = some (Piece.hexNumber [a, b, c, d]) ∧
      Piece.hexNumber [a, b, c, d] < 0x10000 := by
  have noSign : ([a, b, c, d].head? == some '+') = false := by
    by_contra same
    obtain rfl : a = '+' := by simpa using same
    exact absurd (all '+' (by simp)) (by decide)
  obtain ⟨first, isFirst, _⟩ := exists_digitValue (all a (by simp))
  obtain ⟨second, isSecond, _⟩ := exists_digitValue (all b (by simp))
  obtain ⟨third, isThird, _⟩ := exists_digitValue (all c (by simp))
  obtain ⟨fourth, isFourth, _⟩ := exists_digitValue (all d (by simp))
  constructor
  · simp only [hexValue?, noSign, Bool.false_eq_true, if_false]
    simp [Piece.hexNumber, isFirst, isSecond, isThird, isFourth]
  · simp only [Piece.hexNumber, List.foldl_cons, List.foldl_nil, isFirst, isSecond, isThird, isFourth,
      Option.getD_some]
    omega

theorem unicodeChar_eq {mark a b c d : Char} (all : ∀ digit ∈ [a, b, c, d], isHexDigit digit = true) :
    (Piece.IsSurrogate (.number mark a b c d) →
      unicodeChar [a, b, c, d] = .error (.notACharacter (String.ofList [a, b, c, d]))) ∧
    (¬ Piece.IsSurrogate (.number mark a b c d) →
      unicodeChar [a, b, c, d] = .ok (Char.ofNat (Piece.hexNumber [a, b, c, d]))) := by
  obtain ⟨value, small⟩ := hexValue?_eq all
  have isChar : (Piece.hexNumber [a, b, c, d]).isValidChar ↔
      ¬ Piece.IsSurrogate (.number mark a b c d) := by
    simp only [Nat.isValidChar, Piece.IsSurrogate]
    omega
  refine ⟨fun surrogate => ?_, fun character => ?_⟩
  · have invalid := mt isChar.mp (not_not.mpr surrogate)
    simp only [unicodeChar, value, charOfNumber?, if_neg invalid]
  · simp only [unicodeChar, value, charOfNumber?, if_pos (isChar.mpr character)]

/-! ## Resolving -/

theorem unescapeFrom_unicodeEscape {uri : Bool} {letter a b d e c : Char} {more : List Char}
    (isUnicode : letter = 'u' ∨ letter = 'U') (meaning : unicodeChar [a, b, d, e] = .ok c) :
    unescapeFrom uri 0 ('\\' :: letter :: a :: b :: d :: e :: more) =
      (unescapeFrom uri 0 more).map (c :: ·) := by
  simp only [unescapeFrom, if_true, if_pos isUnicode, List.take_succ_cons, List.take_zero, meaning]
  cases unescapeFrom uri 0 more <;> rfl

theorem unescapeFrom_plain {uri : Bool} {c : Char} {more : List Char} (plain : c ≠ '\\') :
    unescapeFrom uri 0 (c :: more) = (unescapeFrom uri 0 more).map (c :: ·) := by
  simp only [unescapeFrom, if_neg plain]
  cases unescapeFrom uri 0 more <;> rfl

theorem unescapeFrom_escape {uri : Bool} {letter : Char} {meaning more : List Char}
    (notUnicode : ¬ (letter = 'u' ∨ letter = 'U')) (isMeaning : escapeMeaning uri letter = .ok meaning) :
    unescapeFrom uri 0 ('\\' :: letter :: more) = (unescapeFrom uri 0 more).map (meaning ++ ·) := by
  simp only [unescapeFrom, if_true, if_neg notUnicode, isMeaning]
  cases unescapeFrom uri 0 more <;> rfl

theorem escapeMeaning_eq {letter : Char} (allowed : Piece.Allowed uri (.escape letter)) :
    ¬ (letter = 'u' ∨ letter = 'U') ∧
      escapeMeaning uri letter = .ok (Piece.meaning uri (.escape letter)) := by
  cases uri with
  | true =>
      refine ⟨allowed, ?_⟩
      simp only [escapeMeaning, Piece.meaning, if_true]
      split <;> rfl
  | false =>
      have each : (escapeLetters.all fun letter =>
          decide (¬ (letter = 'u' ∨ letter = 'U') ∧ (escapedChar? letter).isSome = true)) = true := by decide
      obtain ⟨notUnicode, isSome⟩ := of_decide_eq_true (List.all_eq_true.mp each letter allowed)
      obtain ⟨c, means⟩ := Option.isSome_iff_exists.mp isSome
      exact ⟨notUnicode, by simp [escapeMeaning, Piece.meaning, means]⟩

/-- A piece that is no surrogate is resolved by itself. -/
theorem unescapeFrom_piece (allowed : piece.Allowed uri) (character : ¬ piece.IsSurrogate)
    (more : List Char) :
    unescapeFrom uri 0 (piece.text ++ more) = (unescapeFrom uri 0 more).map (piece.meaning uri ++ ·) := by
  cases piece with
  | plain c => exact unescapeFrom_plain allowed.1
  | escape letter =>
      obtain ⟨notUnicode, means⟩ := escapeMeaning_eq allowed
      exact unescapeFrom_escape notUnicode means
  | number mark a b c d =>
      obtain ⟨isMark, all⟩ := startsUnicodeEscape_iff.mp allowed
      exact unescapeFrom_unicodeEscape isMark ((unicodeChar_eq all).2 character)

theorem unescapeFrom_surrogate (allowed : piece.Allowed uri) (surrogate : piece.IsSurrogate)
    (more : List Char) : ∃ cause, unescapeFrom uri 0 (piece.text ++ more) = .error cause := by
  cases piece with
  | plain c => exact surrogate.elim
  | escape letter => exact surrogate.elim
  | number mark a b c d =>
      obtain ⟨isMark, all⟩ := startsUnicodeEscape_iff.mp allowed
      refine ⟨.notACharacter (String.ofList [a, b, c, d]), ?_⟩
      change unescapeFrom uri 0 ('\\' :: mark :: a :: b :: c :: d :: more) = _
      simp only [unescapeFrom, if_true, if_pos isMark, List.take_succ_cons, List.take_zero,
        (unicodeChar_eq all).1 surrogate]
      rfl

theorem unescape_spelled (allowed : ∀ piece ∈ pieces, piece.Allowed uri)
    (characters : ∀ piece ∈ pieces, ¬ piece.IsSurrogate) :
    unescape uri (spelled pieces) = .ok (pieces.flatMap (Piece.meaning uri)) := by
  unfold unescape spelled
  induction pieces with
  | nil => rfl
  | cons piece others ih =>
      rw [List.forall_mem_cons] at allowed characters
      rw [List.flatMap_cons, unescapeFrom_piece allowed.1 characters.1, ih allowed.2 characters.2]
      rfl

theorem unescape_spelled_surrogate (allowed : ∀ piece ∈ pieces, piece.Allowed uri)
    (surrogate : ∃ piece ∈ pieces, piece.IsSurrogate) :
    ∃ cause, unescape uri (spelled pieces) = .error cause := by
  unfold unescape spelled
  induction pieces with
  | nil =>
      obtain ⟨_, member, _⟩ := surrogate
      exact nomatch member
  | cons piece others ih =>
      rw [List.forall_mem_cons] at allowed
      rw [List.flatMap_cons]
      by_cases here : piece.IsSurrogate
      · exact unescapeFrom_surrogate allowed.1 here _
      · obtain ⟨_, member, isSurrogate⟩ := surrogate
        obtain rfl | inOthers := List.mem_cons.mp member
        · exact absurd isSurrogate here
        · obtain ⟨cause, refused⟩ := ih allowed.2 ⟨_, inOthers, isSurrogate⟩
          rw [unescapeFrom_piece allowed.1 here, refused]
          exact ⟨cause, rfl⟩

/-! ## Taking -/

theorem Piece.not_mark_of_allowed (allowed : Piece.Allowed uri (.escape letter)) :
    ¬ (letter = 'u' ∨ letter = 'U') :=
  (escapeMeaning_eq allowed).1

theorem stringUnit?_piece (allowed : piece.Allowed false) (more : List Char) :
    stringUnit? (piece.text ++ more) = some piece.text.length := by
  cases piece with
  | plain c =>
      obtain ⟨noBackslash, noMark, noControl⟩ : c ≠ '\\' ∧ c ≠ '"' ∧ isControl c = false := allowed
      simp [Piece.text, stringUnit?, noBackslash, noMark, noControl]
  | escape letter =>
      have isLetter : letter ∈ escapeLetters := allowed
      simp [Piece.text, stringUnit?, isLetter]
  | number mark a b c d =>
      have noLetter : mark ∉ escapeLetters := by
        obtain rfl | rfl := (startsUnicodeEscape_iff.mp allowed).1 <;> decide
      have starts : startsUnicodeEscape (mark :: a :: b :: c :: d :: more) = true := allowed
      simp [Piece.text, stringUnit?, noLetter, starts]

theorem uriUnit?_piece (allowed : piece.Allowed true) (more : List Char) :
    uriUnit? (piece.text ++ more) = some piece.text.length := by
  cases piece with
  | plain c =>
      obtain ⟨noBackslash, noMark, noControl⟩ : c ≠ '\\' ∧ c ≠ '\x60' ∧ isControl c = false := allowed
      simp [Piece.text, uriUnit?, noBackslash, noMark, noControl]
  | escape letter =>
      have noNumber : startsUnicodeEscape (letter :: more) = false := by
        by_contra starts
        obtain ⟨mark, a, b, c, d, rest, shape⟩ :=
          exists_digits_of_startsUnicodeEscape (by simpa using starts)
        rw [shape, Bool.not_eq_false, startsUnicodeEscape_iff] at starts
        exact Piece.not_mark_of_allowed allowed ((List.cons.inj shape).1 ▸ starts.1)
      simp [Piece.text, uriUnit?, noNumber]
  | number mark a b c d =>
      have starts : startsUnicodeEscape (mark :: a :: b :: c :: d :: more) = true := allowed
      simp [Piece.text, uriUnit?, starts]

theorem unitsLength_skip (unit? : List Char → Option Nat) (front more : List Char) :
    unitsLength unit? front.length (front ++ more) = front.length + unitsLength unit? 0 more := by
  induction front with
  | nil => simp
  | cons c rest ih =>
      simp only [List.length_cons, List.cons_append, unitsLength, ih]
      omega

theorem unitsLength_unit {front more : List Char}
    (unit : unit? (front ++ more) = some front.length) (nonempty : front ≠ []) :
    unitsLength unit? 0 (front ++ more) = front.length + unitsLength unit? 0 more := by
  cases front with
  | nil => exact absurd rfl nonempty
  | cons c rest =>
      have skipped := unitsLength_skip unit? rest more
      simp only [List.cons_append] at unit
      simp only [List.cons_append, unitsLength, unit, List.length_cons, Nat.add_sub_cancel, skipped]
      omega

/-- A row of pieces that are units ends where no unit is. -/
theorem unitsLength_spelled {closing : List Char}
    (units : ∀ piece ∈ pieces, ∀ more, unit? (piece.text ++ more) = some piece.text.length)
    (closed : unit? closing = none) :
    unitsLength unit? 0 (spelled pieces ++ closing) = (spelled pieces).length := by
  unfold spelled
  induction pieces with
  | nil =>
      cases closing with
      | nil => rfl
      | cons c rest => simp [unitsLength, closed]
  | cons piece others ih =>
      rw [List.forall_mem_cons] at units
      rw [List.flatMap_cons, List.append_assoc, unitsLength_unit (units.1 _) piece.text_ne_nil, ih units.2,
        List.length_append]

/-! ## One way to divide a body -/

/-- No piece is the beginning of another one. -/
theorem Piece.eq_of_text_append (allowed : piece.Allowed uri) (otherAllowed : other.Allowed uri)
    (same : piece.text ++ more = other.text ++ rest) : piece = other ∧ more = rest := by
  cases piece with
  | plain c =>
      cases other with
      | plain d =>
          obtain ⟨rfl, behind⟩ := List.cons.inj same
          exact ⟨rfl, behind⟩
      | escape letter => exact absurd (List.cons.inj same).1 allowed.1
      | number mark a b d e => exact absurd (List.cons.inj same).1 allowed.1
  | escape letter =>
      cases other with
      | plain d => exact absurd (List.cons.inj same).1.symm otherAllowed.1
      | escape second =>
          obtain ⟨rfl, behind⟩ := List.cons.inj (List.cons.inj same).2
          exact ⟨rfl, behind⟩
      | number mark a b d e =>
          obtain ⟨isMark, _⟩ := List.cons.inj (List.cons.inj same).2
          exact absurd (isMark ▸ (startsUnicodeEscape_iff.mp otherAllowed).1)
            (Piece.not_mark_of_allowed allowed)
  | number mark a b d e =>
      cases other with
      | plain f => exact absurd (List.cons.inj same).1.symm otherAllowed.1
      | escape letter =>
          obtain ⟨isMark, _⟩ := List.cons.inj (List.cons.inj same).2
          exact absurd (isMark ▸ (startsUnicodeEscape_iff.mp allowed).1)
            (Piece.not_mark_of_allowed otherAllowed)
      | number second f g h i =>
          simp only [Piece.text, List.cons_append, List.nil_append, List.cons.injEq, true_and] at same
          obtain ⟨rfl, rfl, rfl, rfl, rfl, behind⟩ := same
          exact ⟨rfl, behind⟩

/-- A text is a row of pieces in one way. -/
theorem spelled_injective (allowed : ∀ piece ∈ pieces, piece.Allowed uri)
    (othersAllowed : ∀ piece ∈ others, piece.Allowed uri) (same : spelled pieces = spelled others) :
    pieces = others := by
  have nonempty : ∀ (piece : Piece) (behind : List Piece), spelled (piece :: behind) ≠ [] := by
    rintro (_ | _ | _) behind <;> exact List.cons_ne_nil _ _
  induction pieces generalizing others with
  | nil =>
      cases others with
      | nil => rfl
      | cons other behind => exact absurd same.symm (nonempty other behind)
  | cons piece behind ih =>
      cases others with
      | nil => exact absurd same (nonempty piece behind)
      | cons other otherBehind =>
          rw [List.forall_mem_cons] at allowed othersAllowed
          obtain ⟨rfl, left⟩ := Piece.eq_of_text_append allowed.1 othersAllowed.1 same
          rw [ih allowed.2 othersAllowed.2 left]

end Haystack.Zinc
