import Haystack.Sql.Piece

/-!
The skeleton of a statement: what is left when its first line goes, which is a remark, and when each
literal between single quotes becomes a mark.

Quotes within a literal come in pairs, so that its content has no part in the skeleton: a script has
that of its shape, where nothing is between the quotes.
-/
namespace Haystack.Sql

inductive Mark where
  | plain (c : Char)
  | literal
deriving DecidableEq

/-- Where a reader of a statement is. A quote in a literal ends it unless another quote follows. -/
inductive Quoting where
  | outside
  | inside
  | ended
deriving DecidableEq

namespace Quoting

def isInside : Quoting → Bool
  | .inside => true
  | _ => false

def next (place : Quoting) (c : Char) : Quoting :=
  match place, c == '\'' with
  | .outside, true => .inside
  | .inside, true => .ended
  | .ended, true => .inside
  | .inside, false => .inside
  | _, false => .outside

/-- What a character adds to the skeleton. -/
def mark? (place : Quoting) (c : Char) : Option Mark :=
  match place, c == '\'' with
  | .outside, true => some .literal
  | .inside, _ => none
  | .ended, true => none
  | _, false => some (.plain c)

def after (place : Quoting) (text : List Char) : Quoting := text.foldl next place

def marks : Quoting → List Char → List Mark
  | _, [] => []
  | place, c :: rest => (place.mark? c).toList ++ marks (place.next c) rest

end Quoting

/-- The text without its first line. -/
def withoutRemark (statement : List Char) : List Char := (statement.dropWhile (· != '\n')).tail

/-- The skeleton of a statement, unless a literal in it is left open. -/
def skeleton? (statement : String) : Option (List Mark) :=
  let body := withoutRemark statement.toList
  if (Quoting.outside.after body).isInside then none else some (Quoting.outside.marks body)

/-- Quotes come in pairs. -/
def IsPaired (text : List Char) : Prop := text.count '\'' % 2 = 0

instance (text : List Char) : Decidable (IsPaired text) := inferInstanceAs (Decidable (_ = _))

theorem isPaired_of_not_mem {text : List Char} (quoteless : '\'' ∉ text) : IsPaired text := by
  rw [IsPaired, List.count_eq_zero_of_not_mem quoteless]

/-! ## Reading -/

namespace Quoting

variable {place : Quoting} {text : List Char}

theorem after_append (place : Quoting) (first second : List Char) :
    place.after (first ++ second) = (place.after first).after second :=
  List.foldl_append

theorem marks_append (place : Quoting) (first second : List Char) :
    place.marks (first ++ second) = place.marks first ++ (place.after first).marks second := by
  induction first generalizing place with
  | nil => rfl
  | cons c first ih => simp only [List.cons_append, marks, ih, List.append_assoc, after, List.foldl_cons]

/-- Each quote leads into a literal or out of one. -/
theorem isInside_after (place : Quoting) (text : List Char) :
    (place.after text).isInside = (place.isInside ^^ text.count '\'' % 2 == 1) := by
  induction text generalizing place with
  | nil => cases place <;> rfl
  | cons c text ih =>
      have step : (place.next c).isInside = (place.isInside ^^ c == '\'') := by
        cases place <;> cases isQuote : c == '\'' <;> simp [next, isInside, isQuote]
      change ((place.next c).after text).isInside = _
      rw [ih, step, List.count_cons]
      rcases Nat.mod_two_eq_zero_or_one (text.count '\'') with parity | parity <;>
        cases isQuote : c == '\'' <;> simp [parity, Nat.add_mod]

theorem isInside_after_of_isPaired (paired : IsPaired text) : (place.after text).isInside = place.isInside := by
  rw [isInside_after, paired]
  exact Bool.xor_false _

/-- The content of a literal, its quotes written twice, leads nowhere and leaves no mark. -/
theorem inside_escape (content : List Char) :
    inside.after (escape content) = .inside ∧ inside.marks (escape content) = [] := by
  induction content with
  | nil => exact ⟨rfl, rfl⟩
  | cons c content ih =>
      rw [escape, List.flatMap_cons, ← escape]
      by_cases isQuote : c = '\''
      · rw [if_pos isQuote]
        exact ih
      · have other : (c == '\'') = false := beq_false_of_ne isQuote
        simpa [isQuote, after, marks, next, mark?, other] using ih

/-- A literal leaves the same marks whatever its content is. -/
theorem literal_eq (isOutside : place.isInside = false) (content : String) :
    place.after (Piece.quoted content).text.toList = .ended ∧
      place.marks (Piece.quoted content).text.toList = (place.mark? '\'').toList := by
  have opens : place.next '\'' = .inside := by
    cases place with
    | inside => exact nomatch isOutside
    | _ => rfl
  have text : (Piece.quoted content).text.toList = ['\''] ++ (escape content.toList ++ ['\'']) := by
    simp [Piece.text]
  obtain ⟨stays, silent⟩ := inside_escape content.toList
  have opened : place.after ['\''] = .inside := opens
  rw [text, after_append, marks_append, opened, after_append, marks_append, stays, silent]
  cases place with
  | _ => exact ⟨rfl, by simp [marks, mark?]⟩

end Quoting

/-! ## Shapes -/

/-- The piece with nothing between the quotes of a literal. -/
@[simp] def Piece.shape : Piece → Piece
  | .quoted _ => .quoted ""
  | piece => piece

namespace Script

variable {first second script : Script} {place : Quoting}

def shape (script : Script) : Script := script.map Piece.shape

/-- The quotes of each piece come in pairs. -/
def IsPaired (script : Script) : Prop := ∀ piece ∈ script, Sql.IsPaired piece.text.toList

@[simp] theorem shape_append : (first ++ second).shape = first.shape ++ second.shape := List.map_append

@[simp] theorem shape_cons (piece : Piece) : Script.shape (piece :: script) = piece.shape :: script.shape := rfl

@[simp] theorem shape_code (text : String) : (code text).shape = code text := rfl

@[simp] theorem shape_quoted (content : String) : (quoted content).shape = quoted "" := rfl

@[simp] theorem shape_tag (name : String) : (tag name).shape = tag name := rfl

theorem toList_text_cons (piece : Piece) (script : Script) :
    (Script.text (piece :: script)).toList = piece.text.toList ++ script.text.toList := by
  simp [Script.text]

/-- Outside a literal, a script is read as its shape is. -/
theorem reads_shape (isOutside : place.isInside = false) (paired : script.IsPaired) :
    place.marks script.text.toList = place.marks script.shape.text.toList ∧
      (place.after script.text.toList).isInside = false := by
  induction script generalizing place with
  | nil => exact ⟨rfl, isOutside⟩
  | cons piece script ih =>
      obtain ⟨here, rest⟩ := List.forall_mem_cons.mp paired
      have stays : (place.after piece.text.toList).isInside = false :=
        (Quoting.isInside_after_of_isPaired here).trans isOutside
      obtain ⟨marks, ends⟩ := ih stays rest
      have same : place.marks piece.text.toList = place.marks piece.shape.text.toList ∧
          place.after piece.text.toList = place.after piece.shape.text.toList := by
        cases piece with
        | quoted content =>
            obtain ⟨leads, leaves⟩ := Quoting.literal_eq isOutside content
            obtain ⟨leadsBare, leavesBare⟩ := Quoting.literal_eq isOutside ""
            exact ⟨leaves.trans leavesBare.symm, leads.trans leadsBare.symm⟩
        | _ => exact ⟨rfl, rfl⟩
      rw [shape, List.map_cons, ← shape, toList_text_cons, toList_text_cons, Quoting.marks_append,
        Quoting.marks_append, Quoting.after_append, marks, same.1, ← same.2]
      exact ⟨rfl, ends⟩

/-! ## Pairs of quotes -/

theorem IsPaired.append (left : first.IsPaired) (right : second.IsPaired) : (first ++ second).IsPaired :=
  List.forall_mem_append.mpr ⟨left, right⟩

@[simp] theorem isPaired_nil : IsPaired [] := fun _ member => nomatch member

@[simp] theorem isPaired_append : (first ++ second).IsPaired ↔ first.IsPaired ∧ second.IsPaired :=
  List.forall_mem_append

@[simp] theorem isPaired_code {text : String} : (code text).IsPaired ↔ Sql.IsPaired text.toList :=
  List.forall_mem_singleton

theorem count_escape (content : List Char) : (escape content).count '\'' = 2 * content.count '\'' := by
  induction content with
  | nil => rfl
  | cons c content ih =>
      rw [escape, List.flatMap_cons, ← escape, List.count_append, ih, List.count_cons]
      by_cases isQuote : c = '\''
      · simp [isQuote]
        omega
      · simp [isQuote]

@[simp] theorem isPaired_quoted (content : String) : (quoted content).IsPaired := by
  refine List.forall_mem_singleton.mpr ?_
  have text : (Piece.quoted content).text.toList = '\'' :: (escape content.toList ++ ['\'']) := by
    simp [Piece.text]
  rw [text, Sql.IsPaired, List.count_cons_self, List.count_append, count_escape, List.count_singleton_self]
  omega

theorem isPaired_tag {name : String} (quoteless : '\'' ∉ name.toList) : (tag name).IsPaired := by
  refine List.forall_mem_singleton.mpr ?_
  have text : (Piece.tag name).text.toList = '\'' :: (name.toList ++ ['\'']) := by simp [Piece.text]
  rw [text, Sql.IsPaired, List.count_cons_self, List.count_append, List.count_eq_zero_of_not_mem quoteless,
    List.count_singleton_self]

theorem not_mem_rowName (number : Nat) : '\'' ∉ (rowName number).toList := by
  intro member
  simp only [rowName, String.toList_append, List.mem_append, Nat.toList_repr] at member
  rcases member with isLetter | isDigit
  · revert isLetter
    decide
  · exact absurd (Nat.isDigit_of_mem_toDigits (by omega) (by omega) isDigit) (by decide)

@[simp] theorem isPaired_row (number : Nat) : IsPaired (.row number :: script) ↔ script.IsPaired :=
  List.forall_mem_cons.trans (and_iff_right (isPaired_of_not_mem (not_mem_rowName number)))

@[simp] theorem isPaired_newRow (number : Nat) : IsPaired (.newRow number :: script) ↔ script.IsPaired :=
  List.forall_mem_cons.trans (and_iff_right (isPaired_of_not_mem (not_mem_rowName number)))

end Script

end Haystack.Sql
