/-!
Cutting texts at separators.
-/
namespace Haystack.Text

/-- The parts before and after the first separator. -/
def cutFirst? (isSeparator : Char → Bool) : List Char → Option (List Char × List Char)
  | [] => none
  | c :: rest =>
      if isSeparator c then some ([], rest)
      else (cutFirst? isSeparator rest).map fun (before, after) => (c :: before, after)

/-- The parts between separators; always at least one, and one more than there are separators. -/
def pieces (isSeparator : Char → Bool) : List Char → List (List Char)
  | [] => [[]]
  | c :: rest =>
      if isSeparator c then [] :: pieces isSeparator rest
      else match pieces isSeparator rest with
        | [] => [[c]]
        | first :: others => (c :: first) :: others

/-- The lines of a text, without the line feeds that end them and a carriage return before those. A
text that ends with a line feed has no empty line after it. -/
def lines (text : List Char) : List (List Char) :=
  let parts := pieces (· == '\n') text
  let count := parts.length - 1
  let ended := (parts.take count).map fun line =>
    if line.getLast? == some '\r' then line.dropLast else line
  let rest := parts.drop count
  ended ++ rest.filter (!·.isEmpty)

end Haystack.Text
