/-!
Statements as sequences of pieces, which keep apart what is code and what is quoted.
-/
namespace Haystack.Sql

inductive Piece where
  | code (text : String)
  /-- A literal between single quotes. -/
  | quoted (content : String)
  /-- A literal that names a tag, as it is between single quotes. No tag of a filter has a quote in its
  name. -/
  | tag (name : String)
  /-- The name of a numbered row where it is introduced. -/
  | newRow (number : Nat)
  /-- The name of a numbered row where it is used. -/
  | row (number : Nat)
deriving DecidableEq

/-- The characters between the quotes of a literal: a quote in it is written twice. -/
def escape (content : List Char) : List Char :=
  content.flatMap fun c => if c = '\'' then ['\'', '\''] else [c]

/-- The name that a numbered row has in a statement. -/
def rowName (number : Nat) : String := "t" ++ Nat.repr number

def Piece.text : Piece → String
  | .code text => text
  | .quoted content => String.ofList ('\'' :: escape content.toList ++ ['\''])
  | .tag name => String.ofList ('\'' :: name.toList ++ ['\''])
  | .newRow number => rowName number
  | .row number => rowName number

/-- Pieces in the order in which they are written. -/
abbrev Script : Type := List Piece

namespace Script

def text (script : Script) : String := String.join (script.map Piece.text)

def code (text : String) : Script := [.code text]

def quoted (content : String) : Script := [.quoted content]

def tag (name : String) : Script := [.tag name]

/-- Scripts with a text between them. -/
def separated (separator : String) : List Script → Script
  | [] => []
  | [script] => script
  | script :: rest => script ++ code separator ++ separated separator rest

end Script

end Haystack.Sql
