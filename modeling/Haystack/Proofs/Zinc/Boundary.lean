import Haystack.Proofs.Phrase
import Haystack.Zinc.Literal

/-!
Where values start and end in a text.

What follows a written value is the end of the text, a separator or a closing bracket, or a space with
the name of the next tag after it; none of these goes on with what a value is written in.
-/
namespace Haystack.Zinc

open Phrase

/-! ## Classes of characters -/

/-- The characters that a name starts with. -/
def isNameStart (c : Char) : Bool := c.isAlpha || c == '_'

/-- The characters that end a value, a cell, a collection or a condition in parentheses. -/
def isSeparator (c : Char) : Bool :=
  c == ',' || c == ']' || c == '\x7d' || c == '\n' || c == ')'

/-- The characters that a written value starts with. -/
def isValueStart (c : Char) : Bool :=
  isIdChar c || c == '-' || c == '@' || c == '"' || c == '\x60' || c == '[' || c == '\x7b' || c == '<'

/-- What may come after a value in a text. -/
inductive Follows : List Char → Prop where
  | ended : Follows []
  | separator (c : Char) (rest : List Char) (isSeparator : isSeparator c = true) : Follows (c :: rest)
  | tag (c : Char) (rest : List Char) (isNameStart : isNameStart c = true) : Follows (' ' :: c :: rest)

/-- The front of a written value. -/
def Starts (text : List Char) : Prop := ∃ c ∈ text.head?, isValueStart c = true

variable {text rest : List Char} {accepts : Char → Bool} {c : Char}

/-- A class of characters that goes on with none of what comes after a value. -/
theorem Follows.stops (follows : Follows rest)
    (none : ∀ c, isSeparator c = true ∨ c = ' ' → accepts c = false) : Stops accepts rest := by
  cases follows with
  | ended => exact stops_nil
  | separator c rest isSeparator => exact stops_cons.mpr (none c (.inl isSeparator))
  | tag c rest isNameStart => exact stops_cons.mpr (none ' ' (.inr rfl))

theorem isSeparator_cases (separates : isSeparator c = true) :
    c = ',' ∨ c = ']' ∨ c = '\x7d' ∨ c = '\n' ∨ c = ')' := by
  simpa [isSeparator, or_assoc] using separates

/-- A class is settled on separators and spaces by its values there. -/
theorem rejects_separators (none : [',', ']', '\x7d', '\n', ')', ' '].all (!accepts ·) = true) (c : Char)
    (separates : isSeparator c = true ∨ c = ' ') : accepts c = false := by
  simp only [List.all_cons, List.all_nil, Bool.and_true, Bool.and_eq_true, Bool.not_eq_true'] at none
  obtain ⟨comma, bracket, brace, feed, parenthesis, space⟩ := none
  rcases separates with separates | rfl
  · rcases isSeparator_cases separates with rfl | rfl | rfl | rfl | rfl <;> assumption
  · exact space

theorem Follows.stops_of_all (follows : Follows rest)
    (none : [',', ']', '\x7d', '\n', ')', ' '].all (!accepts ·) = true) : Stops accepts rest :=
  follows.stops (rejects_separators none)

theorem Follows.head?_ne (follows : Follows rest) (other : isSeparator c = false) (noSpace : c ≠ ' ') :
    rest.head? ≠ some c := by
  cases follows with
  | ended => simp
  | separator d rest isSeparator =>
      intro same
      obtain rfl := Option.some.inj same
      simp [isSeparator] at other
  | tag d rest isNameStart =>
      intro same
      exact noSpace (Option.some.inj same).symm

theorem Starts.append (starts : Starts text) : Starts (text ++ rest) := by
  obtain ⟨c, head, isStart⟩ := starts
  cases text with
  | nil => simp at head
  | cons d text => exact ⟨c, head, isStart⟩

theorem Starts.ne_nil (starts : Starts text) : text ≠ [] := by
  obtain ⟨c, head, _⟩ := starts
  intro none
  rw [none] at head
  simp at head

/-- A class that no value starts with stops at the front of one. -/
theorem Starts.stops (starts : Starts text) (none : ∀ c, isValueStart c = true → accepts c = false) :
    Stops accepts text := by
  obtain ⟨d, isHead, isStart⟩ := starts
  intro c head
  obtain rfl : d = c := Option.mem_unique isHead head
  exact none d isStart

theorem not_isSpace_of_isValueStart (isStart : isValueStart c = true) : isSpace c = false := by
  by_contra space
  simp only [isSpace, Bool.not_eq_false, Bool.or_eq_true, beq_iff_eq] at space
  rcases space with rfl | rfl <;> revert isStart <;> decide

/-! ## Spaces -/

theorem reads_spaces_nil (stops : Stops isSpace rest) : Reads spaces [] rest () :=
  Reads.skip (reads_run_nil stops) reads_pure

theorem Starts.reads_spaces (starts : Starts text) : Reads spaces [] text () :=
  reads_spaces_nil (starts.stops fun _ => not_isSpace_of_isValueStart)

theorem reads_spaces_one (stops : Stops isSpace rest) : Reads spaces [' '] rest () := by
  refine Reads.last (reads_run ?_ stops) reads_pure
  intro c member
  rw [List.mem_singleton.mp member]
  rfl

theorem reads_spaces1_one (stops : Stops isSpace rest) : Reads spaces1 [' '] rest () := by
  refine Reads.last (reads_run1 ?_ (by simp) stops) reads_pure
  intro c member
  rw [List.mem_singleton.mp member]
  rfl

theorem fails_spaces1 (stops : Stops isSpace rest) : Fails spaces1 rest :=
  Fails.bind (fails_run1 stops)

theorem reads_newline : Reads newline ['\n'] rest () :=
  Reads.skip (Fails.optional (fails_char (by simp))) (Reads.last reads_char reads_pure)

/-! ## Words and names -/

theorem reads_keyword (word : String) (stops : Stops isIdChar rest) :
    Reads (keyword word) word.toList rest () :=
  Reads.last (reads_word word) (reads_notAhead stops)

theorem reads_singleton (word : String) (value : Value) (stops : Stops isIdChar rest) :
    Reads (singleton word value) word.toList rest value :=
  Takes.token (Reads.last (reads_keyword word stops) reads_pure)

/-- A name of the form that tags and columns have. -/
def isTagName (name : String) : Bool :=
  match name.toList with
  | [] => false
  | first :: others => isNameStart first && others.all isIdChar

theorem isIdChar_of_isNameStart {c : Char} (isName : isNameStart c = true) : isIdChar c = true := by
  simp only [isNameStart, Bool.or_eq_true] at isName
  simp only [isIdChar, Char.isAlphanum, Bool.or_eq_true]
  tauto

theorem exists_of_isTagName {name : String} (isName : isTagName name = true) :
    ∃ first others, name.toList = first :: others ∧ isNameStart first = true ∧
      ∀ c ∈ others, isIdChar c = true := by
  unfold isTagName at isName
  split at isName
  · simp at isName
  · next first others shape =>
    rw [Bool.and_eq_true, List.all_eq_true] at isName
    exact ⟨first, others, shape, isName.1, isName.2⟩

theorem reads_tagName {name : String} (isName : isTagName name = true) (stops : Stops isIdChar rest) :
    Reads tagName name.toList rest name := by
  obtain ⟨first, others, shape, isFirst, areOthers⟩ := exists_of_isTagName isName
  rw [shape]
  refine Takes.token (Reads.bind (reads_satisfying isFirst) (Reads.last (reads_run areOthers stops) ?_))
  rw [← shape, String.ofList_toList]
  exact reads_pure

theorem fails_tagName (stops : Stops isNameStart rest) : Fails tagName rest :=
  Fails.token (Fails.bind (fails_satisfying stops))

end Haystack.Zinc
