import Haystack.Proofs.Phrase
import Haystack.Proofs.Zinc.Pieces
import Haystack.Zinc.Literal

/-!
Quoted texts and URIs read back.

Each character is written as one piece, which the grammar lets stand between the quotes and which
means that character again. No control character is written.
-/
namespace Haystack.Zinc

open Phrase

/-! ## Characters as pieces -/

/-- A piece that may stand between the marks means one character. -/
structure Piece.StandsFor (uri : Bool) (c : Char) (piece : Piece) : Prop where
  allowed : piece.Allowed uri
  character : ¬ piece.IsSurrogate
  meaning : piece.meaning uri = [c]

/-- Each piece of a row stands for a character of a text. -/
structure StandFor (uri : Bool) (text : List Char) (pieces : List Piece) : Prop where
  allowed : ∀ piece ∈ pieces, piece.Allowed uri
  characters : ∀ piece ∈ pieces, ¬ piece.IsSurrogate
  meanings : pieces.map (Piece.meaning uri) = text.map fun c => [c]

variable {uri : Bool} {c : Char} {text rest : List Char} {pieces : List Piece}

/-- It is enough that each character is written as a piece that stands for it. -/
theorem exists_standFor {written : Char → List Char}
    (each : ∀ c, ∃ piece : Piece, piece.text = written c ∧ piece.StandsFor uri c) (text : List Char) :
    ∃ pieces, spelled pieces = text.flatMap written ∧ StandFor uri text pieces := by
  choose pieceOf isText stands using each
  refine ⟨text.map pieceOf, ?_, ?_, ?_, ?_⟩
  · simp only [spelled, List.flatMap_map, isText]
  · exact List.forall_mem_map.mpr fun c _ => (stands c).allowed
  · exact List.forall_mem_map.mpr fun c _ => (stands c).character
  · simp [(stands _).meaning]

theorem StandFor.unescape (standFor : StandFor uri text pieces) :
    unescape uri (spelled pieces) = .ok text := by
  rw [unescape_spelled standFor.allowed standFor.characters, List.flatMap_def, standFor.meanings,
    ← List.flatMap_def, List.flatMap_singleton']

theorem standsFor_plain (noBackslash : c ≠ '\\') (noMark : c ≠ quoteMark uri)
    (noControl : isControl c = false) : Piece.StandsFor uri c (.plain c) where
  allowed := ⟨noBackslash, noMark, noControl⟩
  character := id
  meaning := rfl

/-- A row of pieces between two marks is taken as a whole, and means the text that it stands for. -/
theorem StandFor.reads {α : Type} {unit? : List Char → Option Nat} {mark : Char} {value : List Char → α}
    (standFor : StandFor uri text pieces)
    (units : ∀ piece : Piece, piece.Allowed uri → ∀ more,
      unit? (piece.text ++ more) = some piece.text.length)
    (closed : unit? (mark :: rest) = none) :
    Reads (named do
      let offset ← here
      let _ ← char mark
      let body ← Phrase.take (unitsLength unit? 0)
      let _ ← char mark
      pure (Reading.blame offset ((Zinc.unescape uri body).map value)))
      (mark :: (spelled pieces ++ [mark])) rest (.ok (value text)) := by
  have measured : unitsLength unit? 0 (spelled pieces ++ mark :: rest) = (spelled pieces).length :=
    unitsLength_spelled (fun piece member => units piece (standFor.allowed piece member)) closed
  refine Takes.named (takes_here_bind fun offset => Reads.bind_cons reads_char ?_)
  refine Reads.bind (reads_take measured) (Reads.last reads_char ?_)
  rw [standFor.unescape]
  exact reads_pure

theorem not_isControl_of_mem_flatMap {written : Char → List Char}
    (each : ∀ c, ∀ d ∈ written c, isControl d = false) (text : List Char) :
    ∀ d ∈ text.flatMap written, isControl d = false := by
  intro d member
  obtain ⟨c, _, inWritten⟩ := List.mem_flatMap.mp member
  exact each c d inWritten

/-! ## Escapes of control characters -/

/-- What holds of the characters below the space holds of a character that is one. -/
@[elab_as_elim]
theorem of_isControl {p : Char → Prop} {c : Char} (control : isControl c = true)
    (each : ∀ n < 0x20, p (Char.ofNat n)) : p c := by
  have here := each c.toNat (by simpa [isControl] using control)
  rwa [Char.ofNat_toNat] at here

/-- The two hexadecimal digits of a control character. -/
def controlDigits (n : Nat) : List Char := ['0', '0', Nat.digitChar (n / 16), Nat.digitChar (n % 16)]

theorem control_escape : ∀ n < 0x20,
    unicodeEscape (Char.ofNat n) = '\\' :: 'u' :: controlDigits n ∧
      (controlDigits n).all isHexDigit = true ∧ hexValue? (controlDigits n) = some n ∧
      charOfNumber? n = some (Char.ofNat n) := by
  decide

/-- A control character has an escape of six characters, which means it. -/
theorem unicodeEscape_of_isControl {c : Char} (control : isControl c = true) :
    ∃ a b d e, unicodeEscape c = ['\\', 'u', a, b, d, e] ∧
      (isHexDigit a && isHexDigit b && isHexDigit d && isHexDigit e) = true ∧
      unicodeChar [a, b, d, e] = .ok c := by
  have small : c.toNat < 0x20 := by simpa [isControl] using control
  obtain ⟨escape, hex, value, isChar⟩ := control_escape c.toNat small
  rw [Char.ofNat_toNat] at escape isChar
  refine ⟨_, _, _, _, escape, by simpa [controlDigits, and_assoc] using hex, ?_⟩
  change unicodeChar (controlDigits c.toNat) = .ok c
  simp only [unicodeChar, value, isChar]

/-- No control character is in an escape of one. -/
theorem not_isControl_of_mem_unicodeEscape {c : Char} (control : isControl c = true) :
    ∀ d ∈ unicodeEscape c, isControl d = false := by
  have each : (unicodeEscape c).all (fun d => !isControl d) = true := of_isControl control (by decide)
  simpa using each

/-- A control character is written as its number. -/
theorem exists_piece_of_isControl (uri : Bool) (control : isControl c = true) :
    ∃ piece : Piece, piece.text = unicodeEscape c ∧ piece.StandsFor uri c := by
  obtain ⟨a, b, d, e, escape, hex, isChar⟩ := unicodeEscape_of_isControl control
  have all : ∀ digit ∈ [a, b, d, e], isHexDigit digit = true := by simpa [and_assoc] using hex
  obtain ⟨refused, read⟩ := @unicodeChar_eq 'u' a b d e all
  have character : ¬ Piece.IsSurrogate (.number 'u' a b d e) := fun surrogate =>
    nomatch (refused surrogate).symm.trans isChar
  have same : Char.ofNat (Piece.hexNumber [a, b, d, e]) = c :=
    Except.ok.inj ((read character).symm.trans isChar)
  exact ⟨.number 'u' a b d e, escape.symm, startsUnicodeEscape_iff.mpr ⟨.inl rfl, all⟩, character,
    congrArg (fun c => [c]) same⟩

/-! ## Quoted texts -/

/-- The ways in which a character may be written between double quotes. -/
theorem quoteChar_cases (c : Char) :
    (∃ letter ∈ escapeLetters, quoteChar c = ['\\', letter] ∧
      ¬ (letter = 'u' ∨ letter = 'U') ∧ escapeMeaning false letter = .ok [c]) ∨
    (isControl c = true ∧ quoteChar c = unicodeEscape c) ∨
    (quoteChar c = [c] ∧ c ≠ '\\' ∧ c ≠ '"' ∧ isControl c = false) := by
  unfold quoteChar
  split
  · next same => exact .inl ⟨'"', by decide, rfl, by decide, by rw [same]; rfl⟩
  split
  · next same => exact .inl ⟨'\\', by decide, rfl, by decide, by rw [same]; rfl⟩
  split
  · next same => exact .inl ⟨'n', by decide, rfl, by decide, by rw [same]; rfl⟩
  split
  · next same => exact .inl ⟨'r', by decide, rfl, by decide, by rw [same]; rfl⟩
  split
  · next same => exact .inl ⟨'t', by decide, rfl, by decide, by rw [same]; rfl⟩
  split
  · next same => exact .inl ⟨'b', by decide, rfl, by decide, by rw [same]; rfl⟩
  split
  · next same => exact .inl ⟨'f', by decide, rfl, by decide, by rw [same]; rfl⟩
  split
  · next control => exact .inr (.inl ⟨control, rfl⟩)
  · next noQuote noBackslash _ _ _ _ _ noControl =>
    exact .inr (.inr ⟨rfl, noBackslash, noQuote, by simpa using noControl⟩)

theorem exists_piece_quoteChar (c : Char) :
    ∃ piece : Piece, piece.text = quoteChar c ∧ piece.StandsFor false c := by
  obtain ⟨letter, isLetter, written, _, meaning⟩ | ⟨control, written⟩ |
    ⟨written, noBackslash, noQuote, noControl⟩ := quoteChar_cases c
  · have same := (@escapeMeaning_eq false letter isLetter).2.symm.trans meaning
    exact ⟨.escape letter, written.symm, isLetter, id, Except.ok.inj same⟩
  · rw [written]
    exact exists_piece_of_isControl false control
  · exact ⟨.plain c, written.symm, standsFor_plain noBackslash noQuote noControl⟩

theorem not_isControl_of_mem_quoteChar (c : Char) : ∀ d ∈ quoteChar c, isControl d = false := by
  rcases quoteChar_cases c with ⟨letter, isLetter, written, _⟩ | ⟨control, written⟩ |
    ⟨written, _, _, noControl⟩
  · have each : escapeLetters.all (fun letter => !isControl letter) = true := by decide
    rw [List.all_eq_true] at each
    rw [written, List.forall_mem_cons, List.forall_mem_singleton]
    exact ⟨rfl, by simpa using each letter isLetter⟩
  · rw [written]
    exact not_isControl_of_mem_unicodeEscape control
  · rw [written, List.forall_mem_singleton]
    exact noControl

/-- No control character stands between the quotes. -/
theorem not_isControl_of_mem_quoteBody (text : List Char) : ∀ d ∈ quoteBody text, isControl d = false :=
  not_isControl_of_mem_flatMap not_isControl_of_mem_quoteChar text

theorem quote_toList (text : String) :
    (quote text).toList = '"' :: (quoteBody text.toList ++ ['"']) := by
  rw [quote, String.toList_ofList]
  rfl

theorem not_isControl_of_mem_quote (text : String) : ∀ d ∈ (quote text).toList, isControl d = false := by
  rw [quote_toList, List.forall_mem_cons, List.forall_mem_append, List.forall_mem_singleton]
  exact ⟨rfl, not_isControl_of_mem_quoteBody text.toList, rfl⟩

/-- A quoted text is read as itself, whatever follows it. -/
theorem reads_quoted (text : String) (rest : List Char) :
    Reads quoted (quote text).toList rest (.ok text) := by
  obtain ⟨pieces, isSpelled, standFor⟩ := exists_standFor exists_piece_quoteChar text.toList
  rw [quote_toList, quoteBody, ← isSpelled]
  have reads : Reads quoted ('"' :: (spelled pieces ++ ['"'])) rest (.ok (String.ofList text.toList)) :=
    standFor.reads (fun _ => stringUnit?_piece) (by simp [stringUnit?])
  rwa [String.ofList_toList] at reads

theorem fails_quoted {text : List Char} (differs : text.head? ≠ some '"') : Fails quoted text :=
  Fails.named (fails_here_bind fun _ => Fails.bind (fails_char differs))

/-! ## URIs -/

/-- The ways in which a character may be written between backquotes. -/
theorem uriChar_cases (c : Char) :
    ((c = '\x60' ∨ c = '\\') ∧ uriChar c = ['\\', c]) ∨
    (isControl c = true ∧ uriChar c = unicodeEscape c) ∨
    (uriChar c = [c] ∧ c ≠ '\\' ∧ c ≠ '\x60' ∧ isControl c = false) := by
  unfold uriChar
  split
  · next same => exact .inl ⟨.inl same, by rw [same]⟩
  split
  · next same => exact .inl ⟨.inr same, by rw [same]⟩
  split
  · next control => exact .inr (.inl ⟨control, rfl⟩)
  · next noQuote noBackslash noControl =>
    exact .inr (.inr ⟨rfl, noBackslash, noQuote, by simpa using noControl⟩)

theorem exists_piece_uriChar (c : Char) :
    ∃ piece : Piece, piece.text = uriChar c ∧ piece.StandsFor true c := by
  obtain ⟨special, written⟩ | ⟨control, written⟩ | ⟨written, noBackslash, noMark, noControl⟩ :=
    uriChar_cases c
  · have allowed : Piece.Allowed true (.escape c) := by
      rintro (rfl | rfl) <;> exact absurd special (by decide)
    exact ⟨.escape c, written.symm, allowed, id, by simp [Piece.meaning, special]⟩
  · rw [written]
    exact exists_piece_of_isControl true control
  · exact ⟨.plain c, written.symm, standsFor_plain noBackslash noMark noControl⟩

theorem not_isControl_of_mem_uriChar (c : Char) : ∀ d ∈ uriChar c, isControl d = false := by
  rcases uriChar_cases c with ⟨special, written⟩ | ⟨control, written⟩ | ⟨written, _, _, noControl⟩
  · rw [written, List.forall_mem_cons, List.forall_mem_singleton]
    exact ⟨rfl, by rcases special with rfl | rfl <;> rfl⟩
  · rw [written]
    exact not_isControl_of_mem_unicodeEscape control
  · rw [written, List.forall_mem_singleton]
    exact noControl

theorem quoteUri_toList (text : String) :
    (quoteUri text).toList = '\x60' :: (uriBody text.toList ++ ['\x60']) := by
  rw [quoteUri, String.toList_ofList]
  rfl

theorem not_isControl_of_mem_quoteUri (text : String) :
    ∀ d ∈ (quoteUri text).toList, isControl d = false := by
  rw [quoteUri_toList, List.forall_mem_cons, List.forall_mem_append, List.forall_mem_singleton]
  exact ⟨rfl, not_isControl_of_mem_flatMap not_isControl_of_mem_uriChar text.toList, rfl⟩

/-- A URI is read as itself, whatever follows it. -/
theorem reads_uri (text : String) (rest : List Char) :
    Reads Zinc.uri (quoteUri text).toList rest (.ok (.uri text)) := by
  obtain ⟨pieces, isSpelled, standFor⟩ := exists_standFor exists_piece_uriChar text.toList
  rw [quoteUri_toList, uriBody, ← isSpelled]
  have reads : Reads Zinc.uri ('\x60' :: (spelled pieces ++ ['\x60'])) rest
      (.ok (.uri (String.ofList text.toList))) :=
    standFor.reads (fun _ => uriUnit?_piece) (by simp [uriUnit?])
  rwa [String.ofList_toList] at reads

theorem fails_uri {text : List Char} (differs : text.head? ≠ some '\x60') : Fails Zinc.uri text :=
  Fails.named (fails_here_bind fun _ => Fails.bind (fails_char differs))

end Haystack.Zinc
