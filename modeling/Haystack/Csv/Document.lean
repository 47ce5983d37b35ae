import Haystack.Csv.Cell
import Haystack.Csv.Record

/-!
Grids as comma-separated records: the names of the columns, then the rows. Metadata are left out.
-/
namespace Haystack.Csv

/-! ## Reading -/

def addColumns : List String → Edit Unit
  | [] => pure ()
  | name :: rest => do
      GridOf.addColumn name .empty
      addColumns rest

/-- The row of a record; fields without a column are ignored. -/
def rowOf (names fields : List String) : Entity :=
  .ofList ((names.zip fields).filterMap fun (name, field) =>
    (readCell? field).map fun value => (name, value))

/-- The first record names the columns, and the grid has version 3.0. -/
def readGrid (text : String) : Except Error Grid :=
  let records := readRecords text.toList
  let names := records.head?.getD []
  let edit : Edit Unit := do
    addColumns names
    GridOf.extend ((records.drop 1).map (rowOf names))
  match edit.apply (.withVersion .three) with
  | (.ok _, grid) => .ok grid
  | (.error error, _) => .error error

/-! ## Writing -/

def rowFields (grid : Grid) (row : Entity) : Except Error (List String) :=
  grid.columns.keys.mapM fun name =>
    match row.get? name with
    | some value => writeValue value grid.version
    | none => .ok ""

def writeGrid (grid : Grid) : Except Error String := do
  let header := if grid.columns.isEmpty then "" else writeRecord grid.columns.keys
  let records ← grid.rows.mapM (rowFields grid)
  pure (header ++ String.join (records.map writeRecord))

end Haystack.Csv
