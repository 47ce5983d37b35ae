import Haystack.Json.Reader
import Haystack.Zinc.Writer

/-!
JSON trees of values and grids, as `Json.Reader` reads them.

A value that the version cannot hold is refused. Of a row only the tags that columns declare are
written.
-/
namespace Haystack.Json

/-- What is to be removed has another letter since version 3.0. -/
def removeText (version : Version) : String := if compare version .three == .lt then "x:" else "-:"

def numberText (n : Number) : String :=
  match n.unit with
  | some unit => "n:" ++ Zinc.magnitudeText n.magnitude ++ " " ++ unit
  | none => "n:" ++ Zinc.magnitudeText n.magnitude

def referenceText (r : Ref) : String :=
  match r.display with
  | some display => "r:" ++ r.name ++ " " ++ display
  | none => "r:" ++ r.name

def coordinateText (c : Coordinate) : String :=
  "c:" ++ Decimal.write Decimal.plain c.latitude ++ "," ++ Decimal.write Decimal.plain c.longitude

/-- The tags of a row that columns declare, in the order of the columns. -/
def rowTree (columns : List String) (tags : List (String × Except Error Tree)) :
    Except Error Tree := do
  let members ← (columns.filter fun name => (tags.lookup name).isSome).mapM fun name => do
    let tree ← (tags.lookup name).getD (.ok .null)
    pure (name, tree)
  pure (.object (.ofList members))

mutual

def treeOf (value : Value) (version : Version) : Except Error Tree :=
  match value with
  | .null => .ok .null
  | .marker => .ok (.string "m:")
  | .na => (Value.ensureFits .na version).map fun _ => .string "z:"
  | .remove => .ok (.string (removeText version))
  | .bool b => .ok (.bool b)
  | .number n => .ok (.string (numberText n))
  | .str s => .ok (.string ("s:" ++ s))
  | .uri s => .ok (.string ("u:" ++ s))
  | .bin mime => .ok (.string ("b:" ++ mime))
  | .xstr x => .ok (.string ("x:" ++ x.encoding ++ ":" ++ x.text))
  | .ref r => .ok (.string (referenceText r))
  | .date d => .ok (.string ("d:" ++ d.text))
  | .time t => .ok (.string ("h:" ++ t.text))
  | .dateTime d => .ok (.string ("t:" ++ Zinc.dateTimeText d))
  | .coord c => .ok (.string (coordinateText c))
  | .list items => do
      Value.ensureFits (.list items) version
      let trees ← treesOf items version
      pure (.array trees)
  | .dict tags => do
      Value.ensureFits (.dict tags) version
      let members ← membersOf tags version
      pure (.object (.ofList members))
  | .grid g => do
      Value.ensureFits (.grid g) version
      treeOfGrid g
termination_by structural value

def treesOf (items : List Value) (version : Version) : Except Error (List Tree) :=
  match items with
  | [] => .ok []
  | item :: rest => do
      let tree ← treeOf item version
      let others ← treesOf rest version
      pure (tree :: others)
termination_by structural items

def membersOf (tags : OrderedMap Value) (version : Version) :
    Except Error (List (String × Tree)) :=
  match tags with
  | ⟨items⟩ => memberItemsOf items version
termination_by structural tags

def memberItemsOf (items : List (String × Value)) (version : Version) :
    Except Error (List (String × Tree)) :=
  match items with
  | [] => .ok []
  | (name, value) :: rest => do
      let tree ← treeOf value version
      let others ← memberItemsOf rest version
      pure ((name, tree) :: others)
termination_by structural items

def columnTrees (columns : Columns) (version : Version) : Except Error (List Tree) :=
  match columns with
  | ⟨items⟩ => columnItemTrees items version
termination_by structural columns

def columnItemTrees (items : List (String × Metadata)) (version : Version) :
    Except Error (List Tree) :=
  match items with
  | [] => .ok []
  | (name, metadata) :: rest => do
      let members ← membersOf metadata version
      let others ← columnItemTrees rest version
      pure (.object (.ofList (("name", .string name) :: members)) :: others)
termination_by structural items

/-- The tree of each tag of each row, or why it has none. -/
def rowTrees (rows : List Entity) (version : Version) :
    List (List (String × Except Error Tree)) :=
  match rows with
  | [] => []
  | ⟨items⟩ :: rest => cellTrees items version :: rowTrees rest version
termination_by structural rows

def cellTrees (items : List (String × Value)) (version : Version) :
    List (String × Except Error Tree) :=
  match items with
  | [] => []
  | (name, value) :: rest => (name, treeOf value version) :: cellTrees rest version
termination_by structural items

/-- The version stands among the metadata. -/
def treeOfGrid (grid : Grid) : Except Error Tree :=
  match grid with
  | ⟨version, _, metadata, columns, rows⟩ => do
      let header ← membersOf metadata version
      let columnMembers ← columnTrees columns version
      let lines ← (rowTrees rows version).mapM (rowTree columns.keys)
      pure (.object ⟨[("meta", .object (.ofList (("ver", .string version.text) :: header))),
        ("cols", .array columnMembers), ("rows", .array lines)]⟩)
termination_by structural grid

end

def writeGrid (grid : Grid) : Except Error String := (treeOfGrid grid).map (·.print)

/-- Several grids as an array. -/
def writeGrids (grids : List Grid) : Except Error String :=
  (grids.mapM treeOfGrid).map fun trees => (Tree.array trees).print

def writeValue (value : Value) (version : Version) : Except Error String :=
  (treeOf value version).map (·.print)

/-- A row as the object that is stored for an entity. -/
def writeEntity (entity : Entity) (version : Version) : Except Error String :=
  (membersOf entity version).map fun members => (Tree.object (.ofList members)).print

end Haystack.Json
