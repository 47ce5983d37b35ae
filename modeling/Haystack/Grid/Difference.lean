import Haystack.Grid.Basic

/-!
Differences of grids, which are grids themselves.

The metadata of a difference hold a mark and, like the metadata of its columns, what was changed or
added, and a removal for what is gone. A row with an id holds the tags that changed; a row without
one is a row to add. Rows and columns that are gone have a removal under a key of their own; such a
row without an id is found by its value.
-/
namespace Haystack

/-- The metadata key that marks a difference. -/
def differenceKey : String := "diff_"

/-- The key that marks a row or a column that is gone. -/
def removalKey : String := "remove_"

namespace OrderedMap

/-- Whether a key has a value near to one. -/
def holdsNear (m : OrderedMap Value) (key : String) (value : Value) : Bool :=
  (m.get? key).any (·.near value)

/-- The values on the right that differ from those on the left, and removals for the keys that the
right lacks. -/
def changes (left right : OrderedMap Value) : OrderedMap Value :=
  .ofList (right.items.filter (fun item => !left.holdsNear item.1 item.2) ++
    (left.keys.filter fun key => !right.contains key).map fun key => (key, .remove))

/-- Make one change: a removal erases a key. -/
def applyChange (m : OrderedMap Value) (change : String × Value) : OrderedMap Value :=
  if change.2.isRemove then m.erase change.1 else m.insert change.1 change.2

def applyChanges (m changes : OrderedMap Value) : OrderedMap Value :=
  changes.items.foldl applyChange m

end OrderedMap

namespace GridOf

def isDifference (grid : Grid) : Bool := grid.metadata.contains differenceKey

/-! ## Taking the difference -/

def differenceMetadata (left right : Metadata) : Metadata :=
  .ofList ((differenceKey, .marker) :: (left.changes right).items)

/-- The columns on the right with what changed in their metadata, and after them those that are
gone. -/
def differenceColumns (left right : Columns) : Columns :=
  let kept := right.items.map fun item =>
    (item.1, match left.get? item.1 with
      | some old => old.changes item.2
      | none => item.2)
  let gone := (left.keys.filter fun name => !right.contains name).map fun name =>
    (name, OrderedMap.ofList [(removalKey, .remove)])
  .ofList (kept ++ gone)

/-- The rows on the right that already stand for one on the left, by position. -/
abbrev Paired : Type := List Nat

/-- The first row on the right that has no id, stands for no row yet and is near to a row. -/
def partnerOf? (right : List Entity) (paired : Paired) (row : Entity) : Option Nat :=
  (right.zipIdx.find? fun other =>
    !paired.contains other.2 && !other.1.contains "id" && row.near other.1).map (·.2)

/-- The rows of the difference that a row on the left gives, and the rows paired after it. -/
def differenceOfRow (right : Grid) (paired : Paired) (row : Entity) : List Entity × Paired :=
  match row.id? with
  | some id =>
      match right.positionOf? id with
      | some position =>
          let changes := row.changes (right.rows[position]?.getD .empty)
          (if changes.isEmpty then [] else [changes.insert "id" (.ref id)], position :: paired)
      | none => ([.ofList [("id", .ref id), (removalKey, .remove)]], paired)
  | none =>
      match partnerOf? right.rows paired row with
      | some position => ([], position :: paired)
      | none => ([row.insert removalKey .remove], paired)

def differenceOfRows (right : Grid) (paired : Paired) : List Entity → List Entity × Paired
  | [] => ([], paired)
  | row :: rest =>
      let (rows, paired) := differenceOfRow right paired row
      let (others, paired) := differenceOfRows right paired rest
      (rows ++ others, paired)

/-- The rows that stand for none on the left. -/
def unpaired (right : List Entity) (paired : Paired) : List Entity :=
  (right.zipIdx.filter fun row => !paired.contains row.2).map (·.1)

/-- A column for the removals of rows, if there are any. -/
def declareRemovals (columns : Columns) (rows : List Entity) : Columns :=
  if rows.any (·.contains removalKey) then declare columns removalKey else columns

/-- The changes that turn one grid into another. -/
def difference (left right : Grid) : Grid :=
  let (changed, paired) := differenceOfRows right [] left.rows
  let rows := changed ++ unpaired right.rows paired
  { version := right.version
    pinned := right.pinned
    metadata := differenceMetadata left.metadata right.metadata
    columns := declareRemovals (differenceColumns left.columns right.columns) rows
    rows }

/-! ## Applying a difference -/

def patchMetadata (metadata : Metadata) (changes : Metadata) : Metadata :=
  metadata.applyChanges (changes.filter fun key _ => key != differenceKey)

/-- The columns of the difference that are not gone, with their metadata changed. -/
def patchColumns (columns changes : Columns) : Columns :=
  .ofList ((changes.items.filter fun item =>
      item.1 != removalKey && !item.2.contains removalKey).map fun item =>
    (item.1, ((columns.get? item.1).getD .empty).applyChanges item.2))

/-- Take out the first row that is near to one. -/
def removeNear (grid : Grid) (row : Entity) : Grid :=
  match grid.rows.findIdx? (Entity.near · row) with
  | some position => grid.removeRow position
  | none => grid

/-- Apply a row of a difference. -/
def patchRow (change : Entity) : Edit Unit := do
  let grid ← get
  let removal := change.contains removalKey
  match change.id? with
  | some id =>
      match grid.positionOf? id with
      | some position =>
          if removal then set (grid.removeRow position)
          else setRow position ((grid.rows[position]?.getD .empty).applyChanges change)
      | none => if removal then pure () else append change
  | none => if removal then set (grid.removeNear (change.erase removalKey)) else append change

def patchRows : List Entity → Edit Unit
  | [] => pure ()
  | change :: rest => do
      patchRow change
      patchRows rest

/-- Apply a difference to a grid. The outcome has the version of the difference. -/
def patch (grid difference : Grid) : Except Error Grid :=
  let edit : Edit Unit := do
    setMetadata (patchMetadata grid.metadata difference.metadata)
    setColumns (patchColumns grid.columns difference.columns)
    patchRows difference.rows
  match edit.apply (grid.setVersion difference.version difference.pinned) with
  | (.ok _, patched) => .ok patched
  | (.error refusal, _) => .error refusal

end GridOf

end Haystack
