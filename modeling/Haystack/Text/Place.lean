import Haystack.Text.Pieces

/-!
Places in a text, as messages point at them.
-/
namespace Haystack.Text

/-- A line and a column, both counted from one. -/
structure Place where
  line : Nat
  column : Nat
deriving DecidableEq, Repr

/-- The place after the first `offset` characters. Lines end with a line feed. -/
def placeAt (text : List Char) (offset : Nat) : Place :=
  let before := text.take offset
  { line := before.count '\n' + 1
    column := (before.reverse.takeWhile (· != '\n')).length + 1 }

/-- The UTF-8 length of the first `offset` characters. -/
def byteOffset (text : List Char) (offset : Nat) : Nat :=
  (text.take offset).foldl (fun total c => total + c.utf8Size) 0

/-- A number right-aligned in four columns. -/
def lineLabel (n : Nat) : String :=
  let digits := Nat.repr n
  String.ofList (List.replicate (4 - digits.length) ' ') ++ digits

def labelledLines : Nat → List (List Char) → String
  | _, [] => ""
  | number, line :: rest =>
      lineLabel number ++ " | " ++ String.ofList line ++ "\n" ++ labelledLines (number + 1) rest

/-- The line of a place and at most two before it, with their numbers, and below them a pointer to
the column. -/
def excerpt (text : List Char) (place : Place) : String :=
  let skipped := place.line - 3
  labelledLines (skipped + 1) (((lines text).drop skipped).take (place.line - skipped)) ++
    "     | " ++ String.ofList (List.replicate (place.column - 1) ' ') ++ "^"

end Haystack.Text
