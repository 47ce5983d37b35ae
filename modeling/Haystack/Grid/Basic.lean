import Haystack.Value.Near

/-!
Grids and the changes made to them.

A grid that was created without a version starts as 2.0 and moves to 3.0 with the first value that
needs it; a grid whose version is pinned refuses such a value. A change that is refused leaves the
rest of the grid alone, but not always the version: values are admitted one after the other.
-/
namespace Haystack

/-- A change of a grid that may be refused. What was done before the refusal stays done. -/
abbrev Edit (α : Type) : Type := ExceptT Error (StateM Grid) α

/-- The outcome of a change and the grid after it. -/
def Edit.apply {α : Type} (edit : Edit α) (grid : Grid) : Except Error α × Grid := edit grid

namespace GridOf

/-- A grid without version, columns and rows. -/
def new : Grid := ⟨.two, false, .empty, .empty, []⟩

instance : Inhabited Grid := ⟨new⟩

/-- A grid with a fixed version. -/
def withVersion (version : Version) : Grid := { new with version, pinned := true }

/-- A grid with the same version, metadata and columns, and other rows. -/
def withRows (grid : Grid) (rows : List Entity) : Grid := { grid with rows }

def emptyLike (grid : Grid) : Grid := grid.withRows []

def setVersion (grid : Grid) (version : Version) (pinned : Bool) : Grid :=
  { grid with version, pinned }

/-! ## Admission of values -/

/-- The version of a grid once it holds a value, or the refusal of it. -/
def admitted (version : Version) (pinned : Bool) (value : Value) : Except Error Version :=
  if value.fits version then .ok version
  else if pinned then .error (.featureGate value.kind version)
  else .ok (value.requiredVersion.getD version)

/-- Check a value against the version, which moves up if it is not pinned. -/
def check (value : Value) : Edit Unit := do
  let grid ← get
  let version ← admitted grid.version grid.pinned value
  set { grid with version }

def checkAll : List Value → Edit Unit
  | [] => pure ()
  | value :: rest => do
      check value
      checkAll rest

/-! ## Metadata and columns -/

def setMeta (key : String) (value : Value) : Edit Unit := do
  check value
  modify fun grid => { grid with metadata := grid.metadata.insert key value }

def removeMeta (grid : Grid) (key : String) : Grid :=
  { grid with metadata := grid.metadata.erase key }

def setMetadata (metadata : Metadata) : Edit Unit := do
  checkAll metadata.values
  modify fun grid => { grid with metadata }

def addColumnAt (name : String) (metadata : Metadata) (position : Position) : Edit Unit := do
  checkAll metadata.values
  let grid ← get
  let columns ← grid.columns.addItem name metadata position false
  set { grid with columns }

/-- Add a column after the others. -/
def addColumn (name : String) (metadata : Metadata) : Edit Unit := addColumnAt name metadata .last

def setColumnMeta (column key : String) (value : Value) : Edit Unit := do
  check value
  let grid ← get
  match grid.columns.get? column with
  | none => throw (.keyNotFound column)
  | some metadata =>
      set { grid with columns := grid.columns.insert column (metadata.insert key value) }

def removeColumn (grid : Grid) (name : String) : Grid :=
  { grid with columns := grid.columns.erase name }

def setColumns (columns : Columns) : Edit Unit := do
  checkAll (columns.values.flatMap (·.values))
  modify fun grid => { grid with columns }

/-! ## Rows -/

def append (row : Entity) : Edit Unit := do
  checkAll row.values
  modify fun grid => { grid with rows := grid.rows ++ [row] }

def extend : List Entity → Edit Unit
  | [] => pure ()
  | row :: rest => do
      append row
      extend rest

def insertRow (index : Nat) (row : Entity) : Edit Unit := do
  let grid ← get
  if grid.rows.length < index then throw (.invalidValue (.rowIndex index))
  checkAll row.values
  modify fun grid =>
    { grid with rows := grid.rows.take index ++ row :: grid.rows.drop index }

/-- Replace a row. -/
def setRow (index : Nat) (row : Entity) : Edit Unit := do
  let grid ← get
  if grid.rows.length ≤ index then throw (.invalidValue (.rowIndex index))
  checkAll row.values
  modify fun grid => { grid with rows := grid.rows.set index row }

def removeRow (grid : Grid) (index : Nat) : Grid :=
  grid.withRows (grid.rows.eraseIdx index)

/-- Change a row where it is, unchecked. -/
def changeRow (grid : Grid) (index : Nat) (change : Entity → Entity) : Grid :=
  grid.withRows (grid.rows.modify index change)

/-! ## Rows by id -/

/-- The last row with an id. -/
def positionOf? (grid : Grid) (id : Ref) : Option Nat := lastWithId? id.name grid.rows

def rowOf? (grid : Grid) (id : Ref) : Option Entity :=
  (grid.positionOf? id).bind (grid.rows[·]?)

def ids (grid : Grid) : List Ref := grid.rows.filterMap Entity.id?

/-! ## Columns from rows and rows from columns -/

/-- Drop the columns that no row has a tag for. -/
def packColumns (grid : Grid) : Grid :=
  { grid with columns := grid.columns.filter fun name _ => grid.rows.any (·.contains name) }

/-- Declare a column without metadata unless there is one. -/
def declare (columns : Columns) (name : String) : Columns :=
  if columns.contains name then columns else columns.insert name .empty

/-- Declare a column for every tag of a row. -/
def extendColumns (grid : Grid) : Grid :=
  { grid with columns := (grid.rows.flatMap (·.keys)).foldl declare grid.columns }

/-- Drop the tags that no column declares. -/
def purge (grid : Grid) : Grid :=
  grid.withRows (grid.rows.map fun row => row.filter fun name _ => grid.columns.contains name)

end GridOf

end Haystack
