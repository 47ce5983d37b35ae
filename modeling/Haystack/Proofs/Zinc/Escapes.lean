import Haystack.Proofs.Phrase.Spelling
import Haystack.Proofs.Zinc.Pieces
import Haystack.Zinc.Literal

/-!
What the grammar lets stand between quotes, and what that is resolved to.

A body is a row of pieces, and what is read of it is what the pieces stand for. In a URI the grammar
also takes `u` for a letter like others where no four digits follow it; what resolves escapes does not.
-/
namespace Haystack.Zinc

open Phrase

/-- A backslash and `u` start no character number. -/
def StartsBare (text : List Char) : Prop :=
  ∃ letter rest, text = '\\' :: letter :: rest ∧ (letter = 'u' ∨ letter = 'U') ∧
    startsUnicodeEscape (letter :: rest) = false

variable {uri : Bool} {piece : Piece} {pieces : List Piece} {text more rest : List Char} {size : Nat}

/-! ## What the grammar takes -/

theorem exists_number_of_starts (starts : startsUnicodeEscape text = true) :
    ∃ mark a b c d rest, Piece.Allowed uri (.number mark a b c d) ∧
      '\\' :: text = (Piece.number mark a b c d).text ++ rest := by
  obtain ⟨mark, a, b, c, d, rest, rfl⟩ := exists_digits_of_startsUnicodeEscape starts
  exact ⟨mark, a, b, c, d, rest, starts, rfl⟩

/-- What a quoted text may hold next is a piece. -/
theorem exists_piece_of_stringUnit? (unit : stringUnit? text = some size) :
    ∃ piece : Piece, piece.Allowed false ∧ size = piece.text.length ∧ ∃ rest, text = piece.text ++ rest := by
  unfold stringUnit? at unit
  split at unit
  · exact nomatch unit
  · next c rest =>
    split at unit
    · next isBackslash =>
      subst isBackslash
      split at unit
      · exact nomatch unit
      · next letter after =>
        split at unit
        · next isLetter =>
          obtain rfl := Option.some.inj unit
          exact ⟨.escape letter, isLetter, rfl, after, rfl⟩
        split at unit
        · next starts =>
          obtain rfl := Option.some.inj unit
          obtain ⟨mark, a, b, c, d, rest, allowed, shape⟩ := exists_number_of_starts starts
          exact ⟨_, allowed, rfl, rest, shape⟩
        · exact nomatch unit
    · next noBackslash =>
      split at unit
      · exact nomatch unit
      · next plain =>
        obtain rfl := Option.some.inj unit
        obtain ⟨noMark, noControl⟩ : c ≠ '"' ∧ isControl c = false := by simpa using plain
        exact ⟨.plain c, ⟨noBackslash, noMark, noControl⟩, rfl, rest, rfl⟩

/-- What a URI may hold next is a piece, or `u` behind a backslash without a number. -/
theorem exists_piece_of_uriUnit? (unit : uriUnit? text = some size) :
    (∃ piece : Piece, piece.Allowed true ∧ size = piece.text.length ∧ ∃ rest, text = piece.text ++ rest) ∨
      (StartsBare text ∧ size = 2) := by
  unfold uriUnit? at unit
  split at unit
  · exact nomatch unit
  · next c rest =>
    split at unit
    · next isBackslash =>
      subst isBackslash
      split at unit
      · next starts =>
        obtain rfl := Option.some.inj unit
        obtain ⟨mark, a, b, c, d, rest, allowed, shape⟩ := exists_number_of_starts starts
        exact .inl ⟨_, allowed, rfl, rest, shape⟩
      · next noNumber =>
        split at unit
        · exact nomatch unit
        · next some =>
          obtain rfl := Option.some.inj unit
          obtain ⟨letter, after, rfl⟩ := List.exists_cons_of_ne_nil (by simpa using some)
          by_cases isMark : letter = 'u' ∨ letter = 'U'
          · exact .inr ⟨⟨letter, after, rfl, isMark, by simpa using noNumber⟩, rfl⟩
          · exact .inl ⟨.escape letter, isMark, rfl, after, rfl⟩
    · next noBackslash =>
      split at unit
      · exact nomatch unit
      · next plain =>
        obtain rfl := Option.some.inj unit
        obtain ⟨noMark, noControl⟩ : c ≠ '\x60' ∧ isControl c = false := by simpa using plain
        exact .inl ⟨.plain c, ⟨noBackslash, noMark, noControl⟩, rfl, rest, rfl⟩

section Bodies

variable {unit? : List Char → Option Nat} {bare : List Char → Prop} {mark : Char} {body : List Char}

/-- The unit at the front of a body is in it, and what is left is again a body. -/
theorem exists_rest_of_unit {front tail : List Char}
    (unit : unit? (body ++ mark :: rest) = some front.length) (nonempty : front ≠ [])
    (shape : body ++ mark :: rest = front ++ tail)
    (measured : unitsLength unit? 0 (body ++ mark :: rest) = body.length) :
    ∃ inner, body = front ++ inner ∧ unitsLength unit? 0 (inner ++ mark :: rest) = inner.length := by
  rw [shape] at unit
  rw [shape, unitsLength_unit unit nonempty] at measured
  obtain ⟨inner, rfl⟩ : front <+: body := by
    refine List.prefix_of_prefix_length_le ⟨tail, shape.symm⟩ (List.prefix_append body (mark :: rest)) ?_
    exact measured ▸ Nat.le_add_right _ _
  rw [List.append_assoc, List.append_cancel_left_eq] at shape
  rw [List.length_append, Nat.add_left_cancel_iff, ← shape] at measured
  exact ⟨inner, rfl, measured⟩

/-- A body is a row of pieces, or it is one up to a place that is bare, where no piece starts. -/
theorem exists_pieces
    (next : ∀ {text size}, unit? text = some size →
      (∃ piece : Piece, piece.Allowed uri ∧ size = piece.text.length ∧ ∃ rest, text = piece.text ++ rest) ∨
        (bare text ∧ size = 2))
    (measured : unitsLength unit? 0 (body ++ mark :: rest) = body.length) :
    (∃ pieces, (∀ piece ∈ pieces, piece.Allowed uri) ∧ body = spelled pieces) ∨
      ∃ pieces more, (∀ piece ∈ pieces, piece.Allowed uri) ∧ body = spelled pieces ++ more ∧
        2 ≤ more.length ∧ bare (more ++ mark :: rest) := by
  induction size : body.length using Nat.strongRecOn generalizing body with
  | ind n ih =>
    cases body with
    | nil => exact .inl ⟨[], by simp, rfl⟩
    | cons c others =>
        cases isUnit : unit? (c :: (others ++ mark :: rest)) with
        | none => simp [unitsLength, isUnit] at measured
        | some count =>
            obtain ⟨piece, allowed, rfl, tail, shape⟩ | ⟨isBare, rfl⟩ := next isUnit
            · have nonempty : piece.text ≠ [] := by cases piece <;> simp [Piece.text]
              obtain ⟨inner, isBody, innerMeasured⟩ := exists_rest_of_unit isUnit nonempty shape measured
              have smaller : inner.length < n := by
                rw [← size, isBody, List.length_append]
                exact Nat.lt_add_of_pos_left (List.length_pos_iff.mpr piece.text_ne_nil)
              rw [isBody]
              obtain ⟨pieces, all, rfl⟩ | ⟨pieces, more, all, rfl, long, here⟩ :=
                ih _ smaller innerMeasured rfl
              · exact .inl ⟨piece :: pieces, List.forall_mem_cons.mpr ⟨allowed, all⟩, rfl⟩
              · refine .inr ⟨piece :: pieces, more, List.forall_mem_cons.mpr ⟨allowed, all⟩, ?_, long, here⟩
                simp [spelled]
            · refine .inr ⟨[], c :: others, by simp, rfl, ?_, isBare⟩
              cases others with
              | nil =>
                  rw [List.nil_append] at isUnit
                  simp [unitsLength, isUnit] at measured
              | cons second others => simp

end Bodies

/-! ## Tokens -/

/-- What is found between two marks. -/
theorem of_found_between {α : Type} {unit? : List Char → Option Nat} {mark : Char}
    {outcome : Nat → List Char → α} {cursor after : Cursor} {a : α}
    (found : ((named do
      let offset ← here
      let _ ← char mark
      let body ← Phrase.take (unitsLength unit? 0)
      let _ ← char mark
      pure (outcome offset body)) cursor).found = some (a, after)) :
    ∃ body, cursor.rest = mark :: (body ++ mark :: after.rest) ∧
      unitsLength unit? 0 (body ++ mark :: after.rest) = body.length ∧ a = outcome cursor.offset body := by
  obtain ⟨offset, text⟩ := cursor
  simp only [found_named, found_bind, Option.bind_eq_some_iff, Prod.exists] at found
  obtain ⟨_, _, isHere, _, opened, isMark, body, middle, isBody, _, closed, isClosing, isPure⟩ := found
  obtain ⟨rfl, rfl⟩ := Prod.mk.inj (Option.some.inj isHere)
  obtain ⟨rfl, rfl⟩ := Prod.mk.inj (Option.some.inj isBody)
  obtain ⟨rfl, rfl⟩ := Prod.mk.inj (Option.some.inj isPure)
  obtain ⟨_, opening, _, rfl⟩ := spells_char mark _ _ _ isMark
  obtain ⟨_, closing, _, rfl⟩ := spells_char mark _ _ _ isClosing
  obtain ⟨inner, isInner⟩ : ∃ inner, inner = opened.rest := ⟨_, rfl⟩
  have shape : opened.rest = opened.rest.take (unitsLength unit? 0 opened.rest) ++ mark :: closed.rest := by
    rw [← List.singleton_append, ← closing, List.take_append_drop]
  refine ⟨_, by rw [opening, ← shape]; rfl, ?_, rfl⟩
  rw [← shape]
  refine (List.length_take_of_le (Nat.le_of_lt (Nat.lt_of_not_le fun beyond => ?_))).symm
  exact absurd ((List.drop_eq_nil_of_le beyond).symm.trans closing) (by simp)

/-- What is read of a row of pieces: what they stand for, one after the other, unless one of them is the
number of a surrogate. -/
structure Resolves {α : Type} (uri : Bool) (value : List Char → α) (pieces : List Piece)
    (reading : Reading α) : Prop where
  allowed : ∀ piece ∈ pieces, piece.Allowed uri
  read : (∀ piece ∈ pieces, ¬ piece.IsSurrogate) →
    reading = .ok (value (pieces.flatMap (Piece.meaning uri)))
  refused : (∃ piece ∈ pieces, piece.IsSurrogate) → ∃ refusal, reading = .error refusal

theorem resolves_blame {α : Type} {value : List Char → α} (offset : Nat)
    (allowed : ∀ piece ∈ pieces, piece.Allowed uri) :
    Resolves uri value pieces (Reading.blame offset ((unescape uri (spelled pieces)).map value)) where
  allowed := allowed
  read characters := by
    rw [unescape_spelled allowed characters]
    rfl
  refused surrogate := by
    obtain ⟨cause, refused⟩ := unescape_spelled_surrogate allowed surrogate
    rw [refused]
    exact ⟨_, rfl⟩

/-- Behind some pieces of the body of a URI a backslash and `u` start no character number. -/
def HoldsBare (body : List Char) : Prop :=
  ∃ pieces more, (∀ piece ∈ pieces, Piece.Allowed true piece) ∧ body = spelled pieces ++ more ∧
    StartsBare more

theorem startsBare_of_append (long : 2 ≤ text.length) (bare : StartsBare (text ++ more)) :
    StartsBare text := by
  obtain ⟨letter, after, shape, isMark, noNumber⟩ := bare
  rcases text with _ | ⟨first, _ | ⟨second, others⟩⟩
  case cons.cons =>
    obtain ⟨rfl, behind⟩ := List.cons.inj shape
    obtain ⟨rfl, rfl⟩ := List.cons.inj behind
    refine ⟨second, others, rfl, isMark, ?_⟩
    by_contra starts
    have longer : startsUnicodeEscape (second :: others ++ more) = true :=
      startsUnicodeEscape_longer (by simpa using starts) more
    exact Bool.noConfusion (longer.symm.trans noNumber)
  all_goals exact absurd long (by simp)

/-- Every quoted text that is found is a row of pieces, and so is every URI, unless `u` stands behind a
backslash without a number. What is read is what the pieces stand for, if none is a surrogate. -/
theorem resolves_of_found (cursor after : Cursor) :
    (∀ reading, (quoted cursor).found = some (reading, after) →
      ∃ pieces, cursor.rest = '"' :: (spelled pieces ++ '"' :: after.rest) ∧
        Resolves false String.ofList pieces reading) ∧
    (∀ reading, (Zinc.uri cursor).found = some (reading, after) →
      ∃ body, cursor.rest = '\x60' :: (body ++ '\x60' :: after.rest) ∧
        ((∃ pieces, body = spelled pieces ∧
          Resolves true (fun text => Value.uri (String.ofList text)) pieces reading) ∨
        HoldsBare body)) := by
  constructor
  · intro reading found
    obtain ⟨body, shape, measured, rfl⟩ := of_found_between found
    obtain ⟨pieces, allowed, rfl⟩ | ⟨_, _, _, _, _, none⟩ := @exists_pieces false _ _ (fun _ => False) _ _
      (fun unit => .inl (exists_piece_of_stringUnit? unit)) measured
    · exact ⟨pieces, shape, resolves_blame _ allowed⟩
    · exact none.elim
  · intro reading found
    obtain ⟨body, shape, measured, rfl⟩ := of_found_between found
    refine ⟨body, shape, ?_⟩
    obtain ⟨pieces, allowed, rfl⟩ | ⟨pieces, more, allowed, isBody, long, bare⟩ :=
      exists_pieces exists_piece_of_uriUnit? measured
    · exact .inl ⟨pieces, rfl, resolves_blame _ allowed⟩
    · exact .inr ⟨pieces, more, allowed, isBody, startsBare_of_append long bare⟩

theorem mem_of_holdsBare {body : List Char} (bare : HoldsBare body) : 'u' ∈ body ∨ 'U' ∈ body := by
  obtain ⟨pieces, more, _, rfl, letter, rest, rfl, rfl | rfl, _⟩ := bare
  · exact .inl (by simp)
  · exact .inr (by simp)

/-- A quoted text, and a URI with an escape that is kept. -/
theorem resolves_of_found_pair :
    (quoted (.start ['"', '\\', 'u', '0', '0', 'e', '9', '\\', 'n', '"'])).found =
      some (.ok "é\n", ⟨10, []⟩) ∧
    (Zinc.uri (.start ['\x60', '\\', 'z', '\\', '\x60', '\x60'])).found =
      some (.ok (.uri "\\z\x60"), ⟨6, []⟩) ∧
    (∃ pieces, Resolves false String.ofList pieces (.ok "é\n")) ∧
    ∃ pieces, Resolves true (fun text => Value.uri (String.ofList text)) pieces (.ok (.uri "\\z\x60")) := by
  have text : (quoted (.start ['"', '\\', 'u', '0', '0', 'e', '9', '\\', 'n', '"'])).found =
      some (.ok "é\n", ⟨10, []⟩) := rfl
  have place : (Zinc.uri (.start ['\x60', '\\', 'z', '\\', '\x60', '\x60'])).found =
      some (.ok (.uri "\\z\x60"), ⟨6, []⟩) := rfl
  obtain ⟨pieces, _, resolved⟩ := (resolves_of_found _ _).1 _ text
  obtain ⟨body, shape, ⟨others, _, resolvedToo⟩ | bare⟩ := (resolves_of_found _ _).2 _ place
  · exact ⟨text, place, ⟨pieces, resolved⟩, others, resolvedToo⟩
  · have within : ∀ c ∈ body, c ∈ ['\x60', '\\', 'z', '\\', '\x60', '\x60'] := fun c member => by
      change c ∈ (Cursor.start ['\x60', '\\', 'z', '\\', '\x60', '\x60']).rest
      rw [shape]
      simp [member]
    rcases mem_of_holdsBare bare with member | member
    · exact absurd (within _ member) (by decide)
    · exact absurd (within _ member) (by decide)

/-- A URI may be found that no number is in and that has no meaning. -/
theorem not_resolves_of_found : ¬ ∀ (text : List Char) (after : Cursor) (reading : Reading Value),
    (Zinc.uri (.start text)).found = some (reading, after) →
      (∃ value, reading = .ok value) ∨ ∃ mark a b c d front rest,
        text = front ++ ['\\', mark, a, b, c, d] ++ rest ∧ Piece.IsSurrogate (.number mark a b c d) ∧
          startsUnicodeEscape [mark, a, b, c, d] = true := by
  intro resolved
  have found : (Zinc.uri (.start ['\x60', '\\', 'u', 'z', 'z', '\x60'])).found =
      some (.error (.at 0 (.wrongEscape "uzz")), ⟨6, []⟩) := rfl
  obtain ⟨value, read⟩ | ⟨mark, a, b, c, d, front, rest, shape, _⟩ := resolved _ _ _ found
  · exact nomatch read
  · have lengths := congrArg List.length shape
    simp only [List.length_append, List.length_cons, List.length_nil] at lengths
    obtain rfl : front = [] := List.length_eq_zero_iff.mp (by omega)
    exact absurd (List.cons.inj shape).1 (by decide)

end Haystack.Zinc
