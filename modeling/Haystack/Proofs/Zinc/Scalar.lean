import Haystack.Proofs.Text.Bytes
import Haystack.Proofs.Zinc.Number
import Haystack.Proofs.Zinc.Quoted
import Haystack.Zinc.Document
import Mathlib.Data.List.TakeWhile

/-!
Values without parts, and how the phrases for values are told apart.

Each phrase is refused by its first characters: quoted values have marks of their own, encoded bytes
a parenthesis after a word, and what is left starts with a digit, a letter or a bracket.
-/
namespace Haystack.Zinc

open Phrase

variable {text rest : List Char}

/-! ## References and bytes -/

theorem fails_reference (differs : text.head? ≠ some '@') : Fails reference text :=
  Fails.named (Fails.bind (fails_char differs))

/-- What follows a value is no display name of a reference. -/
theorem Follows.fails_display (follows : Follows rest) :
    Fails (do
      let _ ← run1 (· == ' ')
      quoted) rest := by
  cases follows with
  | ended => exact Fails.bind (fails_run1 stops_nil)
  | separator c rest separates =>
      refine Fails.bind (fails_run1 (stops_cons.mpr ?_))
      rcases isSeparator_cases separates with rfl | rfl | rfl | rfl | rfl <;> rfl
  | tag c rest isName =>
      have noSpace : (c == ' ') = false := by
        by_contra space
        obtain rfl : c = ' ' := by simpa using space
        exact absurd isName (by decide)
      have noQuote : (c :: rest).head? ≠ some '"' := fun head => by
        obtain rfl := Option.some.inj head
        exact absurd isName (by decide)
      change Fails _ ([' '] ++ c :: rest)
      exact Reads.bind_fails (reads_run1 (by simp) (by simp) (stops_cons.mpr noSpace))
        (fails_quoted noQuote)

theorem reads_reference {r : Ref} (chars : r.name.toList.all isRefChar = true)
    (follows : Follows rest) : Reads reference (referenceText r).toList rest (.ok (.ref r)) := by
  rw [List.all_eq_true] at chars
  obtain ⟨name, display⟩ := r
  refine Takes.named ?_
  cases display with
  | none =>
      have shape : (referenceText ⟨name, none⟩).toList = '@' :: name.toList := by
        simp [referenceText]
      rw [shape]
      refine Reads.bind_cons reads_char ?_
      refine Reads.last (reads_run chars (follows.stops_of_all (by decide))) ?_
      refine Reads.skip follows.fails_display.optional ?_
      rw [String.ofList_toList]
      exact reads_pure
  | some display =>
      have shape : (referenceText ⟨name, some display⟩).toList =
          '@' :: (name.toList ++ ' ' :: (quote display).toList) := by simp [referenceText]
      have named : Reads (do
          let _ ← run1 (· == ' ')
          quoted) (' ' :: (quote display).toList) rest (.ok display) := by
        change Reads _ ([' '] ++ (quote display).toList) rest _
        refine Reads.bind (reads_run1 (by simp) (by simp) ?_) (reads_quoted display rest)
        rw [quote_toList]
        exact stops_cons.mpr (by decide)
      rw [shape]
      refine Reads.bind_cons reads_char (Reads.bind (reads_run chars (stops_cons.mpr (by decide))) ?_)
      refine Reads.last named.optional ?_
      rw [String.ofList_toList]
      exact reads_pure

theorem reads_bin (mime : String) {version : Version} (atLeast : compare version .three ≠ .lt) :
    Reads bin (binText mime version).toList rest (.ok (.bin mime)) := by
  have shape : (binText mime version).toList = "Bin(".toList ++ ((quote mime).toList ++ [')']) := by
    rw [binText, if_pos (by simpa using atLeast)]
    simp
  rw [shape]
  refine Takes.named (Reads.bind (reads_word "Bin(") (Reads.bind (Takes.orElse (reads_quoted mime _)) ?_))
  exact Reads.last reads_char reads_pure

/-- A word without a parenthesis after it is no encoding. -/
theorem fails_encoded (other : (text.dropWhile isIdChar).head? ≠ some '(') : Fails encoded text := by
  refine Fails.named (fails_here_bind fun offset => ?_)
  rw [← List.takeWhile_append_dropWhile (p := isIdChar) (l := text)]
  have stops : Stops isIdChar (text.dropWhile isIdChar) := fun c head => by
    have rejected := List.head?_dropWhile_not isIdChar text
    rwa [Option.mem_def.mp head] at rejected
  by_cases none : text.takeWhile isIdChar = []
  · rw [none]
    exact Fails.bind (Fails.token (fails_run1 stops))
  · refine Reads.bind_fails (Takes.token (reads_run1 ?_ none stops)) (Fails.bind (fails_char other))
    intro c member
    exact List.mem_takeWhile_imp member

theorem fails_encoded_of_front {front : List Char} {c : Char} (word : ∀ d ∈ front, isIdChar d = true)
    (ends : isIdChar c = false) (other : c ≠ '(') : Fails encoded (front ++ c :: rest) := by
  refine fails_encoded ?_
  rw [List.dropWhile_append_of_pos word, List.dropWhile_cons_of_neg (by simp [ends])]
  simpa using other

/-- A written value without parentheses is no encoded text. -/
theorem fails_encoded_of_absent (absent : '(' ∉ text) (follows : Follows rest) :
    Fails encoded (text ++ rest) := by
  refine fails_encoded fun head => ?_
  have stops : Stops isIdChar rest := follows.stops_of_all (by decide)
  rw [List.dropWhile_append] at head
  split at head
  · rw [dropWhile_of_stops stops] at head
    exact follows.head?_ne (by decide) (by decide) head
  · next more =>
    obtain ⟨first, others, shape⟩ := List.exists_cons_of_ne_nil (l := text.dropWhile isIdChar)
      (by simpa using more)
    rw [shape] at head
    obtain rfl : first = '(' := Option.some.inj head
    exact absent ((List.dropWhile_sublist _).subset (by rw [shape]; simp))

/-- The text of encoded bytes. -/
def encodedText (x : XStr) : String := x.encoding ++ "(" ++ quote x.text ++ ")"

theorem reads_encoded {x : XStr} {payload : String} (word : x.encoding.toList.all isIdChar = true)
    (nonempty : x.encoding ≠ "") (made : XStr.ofText x.encoding payload = .ok x) :
    Reads encoded (encodedText x).toList rest (.ok (.xstr x)) := by
  have shape : (encodedText x).toList =
      x.encoding.toList ++ '(' :: ((quote x.text).toList ++ [')']) := by simp [encodedText]
  have chars : x.encoding.toList ≠ [] := fun none => nonempty (String.toList_eq_nil_iff.mp none)
  rw [shape]
  refine Takes.named (takes_here_bind fun offset => ?_)
  refine Reads.bind (Takes.token (reads_run1 (List.all_eq_true.mp word) chars ?_)) ?_
  · exact stops_cons.mpr (by decide)
  refine Reads.bind_cons reads_char (Reads.bind (reads_quoted x.text _) (Reads.last reads_char ?_))
  rw [String.ofList_toList]
  simp only [bind, Except.bind, XStr.ofText_text made]
  exact reads_pure

end Haystack.Zinc
