import Haystack.Filter.Basic
import Haystack.Zinc.Document

/-!
Filters from their texts.

`and` binds tighter than `or`, both group to the left, and a term is a filter in parentheses, a test
that a path leads to nothing, a comparison of a path with a literal, or a path that has to lead
somewhere. Literals are those of the newest Zinc notation, besides `true` and `false`.
-/
namespace Haystack.Filter

open Phrase Zinc

def isGap (c : Char) : Bool := c == ' ' || c == '\t' || c == '\r' || c == '\n'

/-- Blanks and line breaks, perhaps none. -/
def gap : Phrase Unit := do let _ ← run isGap

def pathPhrase : Phrase Path := named do
  let first ← identifier
  let others ← many do
    word "->"
    identifier
  pure ⟨first :: others⟩

def comparison : Phrase Comparison := named (
  (do word "=="; pure .eq) <|> (do word "!="; pure .ne) <|>
  (do word "<="; pure .le) <|> (do word ">="; pure .ge) <|>
  (do word "<"; pure .lt) <|> (do word ">"; pure .gt))

def truthValue : Phrase Bool := token (
  (do keyword "true"; pure true) <|> (do keyword "false"; pure false))

def literal : Phrase (Reading Value) :=
  (do let b ← truthValue; pure (.ok (.bool b))) <|> Zinc.value .latest

/-- A test that a path leads to nothing. -/
def missingTest : Phrase Filter := named do
  keyword "not"
  gap
  let path ← pathPhrase
  pure (.missing (.path path))

def comparisonTest : Phrase (Reading Filter) := named do
  let path ← pathPhrase
  gap
  let comparison ← comparison
  gap
  let value ← literal
  pure (value.map fun value => .compare comparison (.path path) (.value value))

def hasTest : Phrase Filter := named do
  let path ← pathPhrase
  pure (.has (.path path))

/-- Operands joined from the left. -/
def joined (join : Filter → Filter → Filter) (first : Reading Filter)
    (others : List (Reading Filter)) : Reading Filter :=
  others.foldlM (fun left next => next.map (join left)) =<< first

section Conditions

variable (condition : Phrase (Reading Filter))

def parenthesised : Phrase (Reading Filter) := named do
  let _ ← char '('
  gap
  let inner ← condition
  gap
  let _ ← char ')'
  pure inner

def term : Phrase (Reading Filter) :=
  parenthesised condition <|> (do let test ← missingTest; pure (.ok test)) <|> comparisonTest <|>
    (do let test ← hasTest; pure (.ok test))

/-- Operands with a word between them. -/
def chain (connective : String) (join : Filter → Filter → Filter)
    (operand : Phrase (Reading Filter)) : Phrase (Reading Filter) := named do
  let first ← operand
  let others ← many do
    gap
    keyword connective
    gap
    operand
  pure (joined join first others)

def alternatives : Phrase (Reading Filter) := chain "or" .or (chain "and" .and (term condition))

end Conditions

/-- A filter whose parentheses are nested less than `depth` deep. -/
def conditionWithin : Nat → Phrase (Reading Filter)
  | 0 => never
  | depth + 1 => alternatives (conditionWithin depth)

/-- A filter. No more parentheses can be nested in a text than it has characters. -/
def phrase : Phrase (Reading Filter) := fun c => conditionWithin (c.rest.length + 1) c

def whole : Phrase (Reading Filter) := do
  gap
  let filter ← phrase
  gap
  pure filter

/-- The filter that a text denotes. A text of another form is refused with the number of bytes
before the fault, and a literal that names no value as in the Zinc notation. -/
def read (text : String) : Except Error Filter :=
  match whole.readAll text.toList with
  | .error offset => .error (.filterSyntax (Text.byteOffset text.toList offset))
  | .ok (.error refusal) => .error (refusal.error text.toList)
  | .ok (.ok filter) => .ok filter

end Haystack.Filter
