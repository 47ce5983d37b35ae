import Haystack.Json.Numeral
import Haystack.Text.Hex
import Haystack.Decimal.Shortest

/-!
Reading and printing JSON texts.
-/
namespace Haystack.Json

open Phrase

/-! ## Reading -/

def isBlank (c : Char) : Bool := c == ' ' || c == '\n' || c == '\t' || c == '\r'

def blanks : Phrase Unit := do let _ ← run isBlank

def hexDigit : Phrase Nat := do
  let c ← satisfying fun c => (Text.Hex.digitValue? c).isSome
  pure ((Text.Hex.digitValue? c).getD 0)

/-- The number of four hexadecimal digits. -/
def fourDigits : Phrase Nat := do
  let a ← hexDigit
  let b ← hexDigit
  let c ← hexDigit
  let d ← hexDigit
  pure (((a * 16 + b) * 16 + c) * 16 + d)

/-- The character of a unicode escape after its `u`. A character beyond the first plane is written
as two escapes, which are nothing without each other. -/
def unicodeEscape : Phrase Char := do
  let high ← fourDigits
  if high < 0xD800 ∨ 0xDFFF < high then pure (Char.ofNat high)
  else if 0xDC00 ≤ high then never
  else
    let _ ← char '\\'
    let _ ← char 'u'
    let low ← fourDigits
    if low < 0xDC00 ∨ 0xDFFF < low then never
    else pure (Char.ofNat (0x10000 + (high - 0xD800) * 0x400 + (low - 0xDC00)))

/-- What a letter after a backslash stands for. -/
def escapeOf? (letter : Char) : Option Char :=
  if letter = '"' ∨ letter = '\\' ∨ letter = '/' then some letter
  else if letter = 'b' then some '\x08'
  else if letter = 'f' then some '\x0c'
  else if letter = 'n' then some '\n'
  else if letter = 'r' then some '\r'
  else if letter = 't' then some '\t'
  else none

def stringChar : Phrase Char :=
  satisfying (fun c => c != '"' && c != '\\' && 0x20 ≤ c.toNat) <|>
  (do
    let _ ← char '\\'
    let letter ← satisfying fun _ => true
    if letter = 'u' then unicodeEscape
    else match escapeOf? letter with
      | some c => pure c
      | none => never)

def string : Phrase String := do
  let _ ← char '"'
  let body ← many stringChar
  let _ ← char '"'
  pure (String.ofList body)

/-- Items between brackets, with commas between them. -/
def bracketed {α : Type} (opening closing : Char) (item : Phrase α) : Phrase (List α) := do
  let _ ← char opening
  blanks
  let items ← Phrase.optional do
    let first ← item
    blanks
    let others ← many do
      let _ ← char ','
      blanks
      let next ← item
      blanks
      pure next
    pure (first :: others)
  let _ ← char closing
  pure (items.getD [])

def member (value : Phrase Tree) : Phrase (String × Tree) := do
  let name ← string
  blanks
  let _ ← char ':'
  blanks
  let tree ← value
  pure (name, tree)

def atom : Phrase Tree :=
  (do word "null"; pure .null) <|> (do word "true"; pure (.bool true)) <|>
    (do word "false"; pure (.bool false)) <|> (do let s ← string; pure (.string s)) <|> number

/-- A value whose arrays and objects are nested at most `depth` deep. -/
def valueWithin : Nat → Phrase Tree
  | 0 => atom
  | depth + 1 =>
      atom <|>
      (do
        let items ← bracketed '[' ']' (valueWithin depth)
        pure (.array items)) <|>
      (do
        let members ← bracketed '\x7b' '\x7d' (member (valueWithin depth))
        pure (.object (.ofList members)))

/-- How deep arrays and objects may be nested. -/
def depthLimit : Nat := 127

/-- The tree of a text, if it is JSON. -/
def read? (text : String) : Option Tree :=
  (readAll (do blanks; let tree ← valueWithin depthLimit; blanks; pure tree) text.toList).toOption

/-! ## Printing -/

def escapeChar (c : Char) : List Char :=
  if c = '"' then ['\\', '"']
  else if c = '\\' then ['\\', '\\']
  else if c = '\x08' then ['\\', 'b']
  else if c = '\x0c' then ['\\', 'f']
  else if c = '\n' then ['\\', 'n']
  else if c = '\r' then ['\\', 'r']
  else if c = '\t' then ['\\', 't']
  else if c.toNat < 0x20 then
    ['\\', 'u', '0', '0', Text.Hex.digit (c.toNat / 16), Text.Hex.digit (c.toNat % 16)]
  else [c]

def quote (s : String) : String :=
  String.ofList ('"' :: s.toList.flatMap escapeChar ++ ['"'])

mutual

/-- A tree without any blanks. -/
def Tree.print : Tree → String
  | .null => "null"
  | .bool b => if b then "true" else "false"
  | .integer i => toString i
  | .decimal x => Decimal.write Decimal.plain x
  | .string s => quote s
  | .array items => "[" ++ String.intercalate "," (printItems items) ++ "]"
  | .object members => "\x7b" ++ String.intercalate "," (printMembers members) ++ "\x7d"
termination_by structural tree => tree

def Tree.printItems : List Tree → List String
  | [] => []
  | item :: rest => item.print :: printItems rest
termination_by structural items => items

def Tree.printMembers : OrderedMap Tree → List String
  | ⟨items⟩ => printMemberItems items
termination_by structural members => members

def Tree.printMemberItems : List (String × Tree) → List String
  | [] => []
  | (name, tree) :: rest => (quote name ++ ":" ++ tree.print) :: printMemberItems rest
termination_by structural items => items

end

end Haystack.Json
