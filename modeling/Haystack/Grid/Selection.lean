import Haystack.Filter.Condition
import Haystack.Filter.Reader

/-!
Grids with some of the rows or columns of another, and grids with their rows sorted.
-/
namespace Haystack

/-- An end of a range of rows. -/
inductive Bound where
  | including (index : Nat)
  | excluding (index : Nat)
deriving DecidableEq

namespace GridOf

/-! ## Rows -/

/-- The index of the first row of a range. -/
def firstIndex : Option Bound → Nat
  | none => 0
  | some (.including index) => index
  | some (.excluding index) => index + 1

/-- The index after the last row of a range, in a grid with `count` rows. -/
def endIndex (count : Nat) : Option Bound → Nat
  | none => count
  | some (.including index) => index + 1
  | some (.excluding index) => index

/-- The rows between two bounds, as far as there are any. -/
def slice (grid : Grid) (lower upper : Option Bound) : Grid :=
  grid.withRows ((grid.rows.take (endIndex grid.rows.length upper)).drop (firstIndex lower))

/-- So many elements from the front, or all of them. -/
def limited {α : Type} (limit : Option Nat) (rows : List α) : List α :=
  match limit with
  | some count => rows.take count
  | none => rows

/-- The rows to keep, from the front and up to a limit. No row is tested once there are enough. -/
def firstKept (keep : Entity → Bool) : Option Nat → List Entity → List Entity
  | _, [] => []
  | some 0, _ :: _ => []
  | limit, row :: rest =>
      if keep row then row :: firstKept keep (limit.map (· - 1)) rest else firstKept keep limit rest

/-- The first rows that a condition holds of. -/
def satisfying (grid : Grid) (condition : Condition) (limit : Option Nat) : Grid :=
  grid.withRows (firstKept (condition.holds grid) limit grid.rows)

/-- The first rows that a filter keeps, given how its text becomes a condition. A blank filter keeps
all rows. -/
def filterBy {m : Type → Type} [Monad m] (grid : Grid) (text : String) (limit : Option Nat)
    (compile : String → m Condition) : m Grid :=
  if Text.isAllBlank text.toList then pure (grid.withRows (limited limit grid.rows))
  else do
    let condition ← compile text
    pure (grid.satisfying condition limit)

end GridOf

/-- The condition that a text denotes. -/
def Condition.read (text : String) : Except Error Condition := do
  let filter ← Filter.read text
  filter.condition

namespace GridOf

def filter (grid : Grid) (text : String) (limit : Option Nat) : Except Error Grid :=
  grid.filterBy text limit Condition.read

/-! ## Columns -/

/-- The names of a selection, between commas and spaces. -/
def selectedNames (text : List Char) : List (List Char) :=
  ((Text.pieces (fun c => c == ',' || c == ' ') text).map Text.trim).filter (!·.isEmpty)

def isNegative (name : List Char) : Bool := name.head? == some '!'

/-- The named columns, in the order of the names. A column that the grid lacks has no metadata. -/
def columnsNamed (columns : Columns) (names : List String) : Columns :=
  .ofList (names.map fun name => (name, (columns.get? name).getD .empty))

/-- Keep the columns that are named, or drop those named after `!`. Nothing and `*` keep all. The
rows stay as they are. -/
def select (grid : Grid) (selection : String) : Except Error Grid :=
  let text := Text.trim selection.toList
  let names := selectedNames text
  if text = [] ∨ text = ['*'] then .ok grid
  else if names.any isNegative then
    if names.all isNegative then
      let dropped := names.map fun name => String.ofList (name.drop 1)
      .ok { grid with columns := dropped.foldl OrderedMap.erase grid.columns }
    else .error (.invalidValue .mixedSelection)
  else .ok { grid with columns := columnsNamed grid.columns (names.map String.ofList) }

/-! ## Order -/

/-- Rows without the tag come first. -/
def compareByTag (tag : String) (a b : Entity) : Ordering :=
  match a.get? tag, b.get? tag with
  | some x, some y => x.sortCompare y
  | none, some _ => .lt
  | some _, none => .gt
  | none, none => .eq

/-- Sort the rows by a tag; rows that are equal in it keep their order. -/
def sortByTag (grid : Grid) (tag : String) : Grid :=
  grid.withRows (grid.rows.mergeSort fun a b => compareByTag tag a b != .gt)

end GridOf

end Haystack
