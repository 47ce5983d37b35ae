import Haystack.Grid.Selection
import Std.Data.HashMap

/-!
Grids that remember where the rows of their ids are.

The index is made by the first look-up and kept until a change could put it out of date; rows that
are appended are added to it. `GridOf.positionOf?` says what it has to answer.
-/
namespace Haystack

/-- The last row of each id. -/
abbrev IdIndex : Type := Std.HashMap String Nat

namespace IdIndex

/-- Let the id of a row, if it has one, lead to that row. -/
def add (index : IdIndex) (row : Entity) (position : Nat) : IdIndex :=
  match row.id? with
  | some id => index.insert id.name position
  | none => index

def ofRows (rows : List Entity) : IdIndex :=
  rows.zipIdx.foldl (fun index row => index.add row.1 row.2) ∅

end IdIndex

structure IndexedGrid where
  grid : Grid
  index : Option IdIndex

namespace IndexedGrid

/-- A grid whose index is yet to be made. -/
def ofGrid (grid : Grid) : IndexedGrid := ⟨grid, none⟩

instance : Inhabited IndexedGrid := ⟨ofGrid .new⟩

/-! ## Look-up -/

/-- Look up an id in the index, which is made if need be. -/
def positionOf? (id : Ref) : StateM IndexedGrid (Option Nat) := fun g =>
  let index := g.index.getD (IdIndex.ofRows g.grid.rows)
  (index[id.name]?, { g with index := some index })

def rowOf? (id : Ref) : StateM IndexedGrid (Option Entity) := do
  let position ← positionOf? id
  let g ← get
  pure (position.bind (g.grid.rows[·]?))

def containsId (id : Ref) : StateM IndexedGrid Bool := do
  let position ← positionOf? id
  pure position.isSome

/-- Forget the index. -/
def reindex (g : IndexedGrid) : IndexedGrid := { g with index := none }

/-! ## Changes -/

/-- A change that moves no row and changes none. -/
def editHeader {α : Type} (edit : Edit α) : ExceptT Error (StateM IndexedGrid) α := fun g =>
  let (outcome, grid) := edit.apply g.grid
  (outcome, { g with grid })

/-- A change of rows. Where it is refused, the rows are as they were. -/
def editRows (edit : Edit Unit) : ExceptT Error (StateM IndexedGrid) Unit := fun g =>
  match edit.apply g.grid with
  | (.ok _, grid) => (.ok (), ⟨grid, none⟩)
  | (.error refusal, grid) => (.error refusal, { g with grid })

def append (row : Entity) : ExceptT Error (StateM IndexedGrid) Unit := fun g =>
  match (GridOf.append row).apply g.grid with
  | (.ok _, grid) => (.ok (), ⟨grid, g.index.map (·.add row g.grid.rows.length)⟩)
  | (.error refusal, grid) => (.error refusal, { g with grid })

def extend : List Entity → ExceptT Error (StateM IndexedGrid) Unit
  | [] => pure ()
  | row :: rest => do
      append row
      extend rest

def insertRow (index : Nat) (row : Entity) : ExceptT Error (StateM IndexedGrid) Unit :=
  editRows (GridOf.insertRow index row)

def setRow (index : Nat) (row : Entity) : ExceptT Error (StateM IndexedGrid) Unit :=
  editRows (GridOf.setRow index row)

/-- Take out a row, if there is one at the position. -/
def removeRow? (position : Nat) : StateM IndexedGrid (Option Entity) := fun g =>
  match g.grid.rows[position]? with
  | none => (none, g)
  | some row => (some row, ofGrid (g.grid.removeRow position))

/-- Take out the row of an id. -/
def removeId? (id : Ref) : StateM IndexedGrid (Option Entity) := do
  match ← positionOf? id with
  | none => pure none
  | some position => removeRow? position

def clearRows (g : IndexedGrid) : IndexedGrid := ofGrid (g.grid.withRows [])

/-- Change a row where it is, unchecked, and tell whether there is one. -/
def changeRow (position : Nat) (change : Entity → Entity) : StateM IndexedGrid Bool := fun g =>
  (decide (position < g.grid.rows.length), ofGrid (g.grid.changeRow position change))

/-- Change the row of an id, and tell whether there is one. -/
def changeId (id : Ref) (change : Entity → Entity) : StateM IndexedGrid Bool := do
  match ← positionOf? id with
  | none => pure false
  | some position => changeRow position change

def sortByTag (g : IndexedGrid) (tag : String) : IndexedGrid := ofGrid (g.grid.sortByTag tag)

/-- A change of everything but the rows. -/
def mapHeader (g : IndexedGrid) (change : Grid → Grid) : IndexedGrid :=
  { g with grid := (change g.grid).withRows g.grid.rows }

/-! ## Grids made of others -/

def emptyLike (g : IndexedGrid) : IndexedGrid := ofGrid g.grid.emptyLike

def slice (g : IndexedGrid) (lower upper : Option Bound) : IndexedGrid :=
  ofGrid (g.grid.slice lower upper)

def satisfying (g : IndexedGrid) (condition : Condition) (limit : Option Nat) : IndexedGrid :=
  ofGrid (g.grid.satisfying condition limit)

/-- The rows that a filter keeps. Where nothing is left out the index is kept too. -/
def filter (g : IndexedGrid) (text : String) (limit : Option Nat) : Except Error IndexedGrid :=
  if Text.isAllBlank text.toList && limit.isNone then .ok g
  else (g.grid.filter text limit).map ofGrid

/-- The rows are those of the grid, and so is their index. -/
def select (g : IndexedGrid) (selection : String) : Except Error IndexedGrid :=
  (g.grid.select selection).map fun grid => { g with grid }

def purge (g : IndexedGrid) : IndexedGrid := ofGrid g.grid.purge

end IndexedGrid

end Haystack
