import Haystack.Proofs.Zinc.Quoted

/-!
Texts between the marks that are written around them.

Each character is written as a piece that stands for it, and what is written is divided into pieces in
this way only: characters that stand side by side are never taken for an escape, and the mark at the end
is the first that is no part of a piece.
-/
namespace Haystack.Zinc

open Phrase

/-- What stands between the first and the last character of what is written. -/
def between (written : String) : List Char := written.toList.tail.dropLast

/-- A text is written between two marks, and read back from there. -/
structure Encloses {α : Type} (uri : Bool) (rule : Phrase (Reading α)) (value : String → α)
    (text written : String) : Prop where
  marked : written.toList = quoteMark uri :: (between written ++ [quoteMark uri])
  /-- The rule takes it up to its own closing mark, wherever it stands and whatever follows. -/
  found : ∀ offset following, (rule ⟨offset, written.toList ++ following⟩).found =
    some (.ok (value text), ⟨offset + written.length, following⟩)
  noControl : ∀ c ∈ written.toList, 0x20 ≤ c.toNat
  resolved : unescape uri (between written) = .ok text.toList
  /-- There is one way to divide it into pieces, and each of them stands for a character of the text. -/
  divided : ∃ pieces, pieces.map (Piece.meaning uri) = text.toList.map (fun c => [c]) ∧
    ∀ others : List Piece,
      (∀ piece ∈ others, piece.Allowed uri) ∧ spelled others = between written ↔ others = pieces

/-- It is enough that each character is written as a piece that stands for it. -/
theorem encloses_of_pieces {α : Type} {uri : Bool} {rule : Phrase (Reading α)} {value : String → α}
    {text written : String} {writeChar : Char → List Char}
    (each : ∀ c, ∃ piece : Piece, piece.text = writeChar c ∧ piece.StandsFor uri c)
    (shape : written.toList = quoteMark uri :: (text.toList.flatMap writeChar ++ [quoteMark uri]))
    (noControl : ∀ c ∈ written.toList, isControl c = false)
    (reads : ∀ following, Reads rule written.toList following (.ok (value text))) :
    Encloses uri rule value text written := by
  obtain ⟨pieces, isSpelled, standFor⟩ := exists_standFor each text.toList
  have body : between written = spelled pieces := by
    rw [between, shape, List.tail_cons, List.dropLast_concat, isSpelled]
  refine ⟨?marked, ?found, ?noControl, ?resolved, pieces, standFor.meanings, ?unique⟩
  case marked => rw [body, shape, isSpelled]
  case found =>
    intro offset following
    rw [(reads following).found offset, String.length_toList]
  case noControl => simpa [isControl] using noControl
  case resolved => rw [body, standFor.unescape]
  case unique =>
    refine fun others => ⟨?_, ?_⟩
    · rintro ⟨othersAllowed, same⟩
      exact spelled_injective othersAllowed standFor.allowed (same.trans body)
    · rintro rfl
      exact ⟨standFor.allowed, body.symm⟩

/-- Every text is enclosed between quotation marks, and between those of a URI. -/
theorem encloses_quote_and_quoteUri (text : String) :
    Encloses false quoted id text (quote text) ∧
      Encloses true Zinc.uri Value.uri text (quoteUri text) := by
  constructor
  · exact encloses_of_pieces exists_piece_quoteChar (quote_toList text) (not_isControl_of_mem_quote text)
      (reads_quoted text)
  · exact encloses_of_pieces exists_piece_uriChar (quoteUri_toList text)
      (not_isControl_of_mem_quoteUri text) (reads_uri text)

/-- A backslash before `u` is doubled, and what follows it stays as it is. -/
example : (quote "\\u0041\"$\x01").toList =
    ['"', '\\', '\\', 'u', '0', '0', '4', '1', '\\', '"', '$', '\\', 'u', '0', '0', '0', '1', '"'] := rfl

end Haystack.Zinc
