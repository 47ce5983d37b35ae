import Haystack.Json.Text
import Haystack.Text.Blank
import Haystack.Zinc.Document

/-!
Values and grids from JSON trees.

What JSON has no form for is a string with a letter and a colon in front; a string without a known
letter stands for itself. Dates and times are written as in the Zinc encoding.
-/
namespace Haystack.Json

def refused {α : Type} (cause : Unreadable) : Except Error α := .error (.unplaced cause)

/-- The value of digits and a unit, with a space between. -/
def numberOf (text : List Char) : Except Error Number :=
  let (digits, unit) := (Text.cutFirst? (· == ' ') text).getD (text, [])
  let unit := String.ofList unit
  if digits = "INF".toList then .ok (.quantity (.infinity false) unit)
  else if digits = "-INF".toList then .ok (.quantity (.infinity true) unit)
  else if digits = "NaN".toList then .ok (.quantity .nan unit)
  else match Decimal.read digits with
    | .ok magnitude => .ok (.quantity magnitude unit)
    | .error fault => refused (.jsonNumber (String.ofList text) fault)

/-- A name, and after a space a display name. -/
def referenceOf (text : List Char) : Except Error Ref :=
  let checked := match Text.cutFirst? (· == ' ') text with
    | some (name, display) => Ref.checked (String.ofList name) (some (String.ofList display))
    | none => Ref.checked (String.ofList text) none
  checked.mapError .invalidValue

def angleOf (text : List Char) : Except Error Binary64 :=
  match Decimal.read (Text.trim text) with
  | .ok angle => .ok angle
  | .error fault => refused (.jsonCoordinate fault)

def coordinateOf (whole : String) (text : List Char) : Except Error Coordinate :=
  match Text.cutFirst? (· == ',') text with
  | none => refused (.notACoordinate whole)
  | some (latitude, longitude) => do
      let latitude ← angleOf latitude
      let longitude ← angleOf longitude
      pure ⟨latitude, longitude⟩

def encodedOf (whole : String) (text : List Char) : Except Error XStr :=
  match Text.cutFirst? (· == ':') text with
  | none => refused (.notAnXStr whole)
  | some (encoding, data) =>
      (XStr.ofText (String.ofList encoding) (String.ofList data)).mapError .invalidValue

/-- A value of one kind in Zinc notation. -/
def typedOf (text : List Char) (kind : String) (dialect : Version) : Except Error Value := do
  let value ← Zinc.readValue (String.ofList text) dialect
  if value.kind == kind then pure value else refused (.wrongKind (String.ofList text) kind)

/-- The value of a string. -/
def stringValue (text : String) (dialect : Version) : Except Error Value :=
  match text.toList with
  | letter :: ':' :: rest =>
      if letter = 'm' ∧ rest = [] then .ok .marker
      else if letter = 'z' ∧ rest = [] then .ok .na
      else if (letter = '-' ∨ letter = 'x') ∧ rest = [] then .ok .remove
      else if letter = 's' then .ok (.str (String.ofList rest))
      else if letter = 'n' then (numberOf rest).map .number
      else if letter = 'r' then (referenceOf rest).map .ref
      else if letter = 'u' then .ok (.uri (String.ofList rest))
      else if letter = 'b' then .ok (.bin (String.ofList rest))
      else if letter = 'x' then (encodedOf text rest).map .xstr
      else if letter = 'c' then (coordinateOf text rest).map .coord
      else if letter = 'd' then typedOf rest "Date" dialect
      else if letter = 'h' then typedOf rest "Time" dialect
      else if letter = 't' then typedOf rest "DateTime" dialect
      else .ok (.str text)
  | _ => .ok (.str text)

/-- Refuse what the dialect does not have. -/
def requireThree (dialect : Version) (feature : String) : Except Error Unit :=
  if compare dialect .three == .lt then refused (.gated feature dialect) else .ok ()

/-- An object with these three members is a grid. -/
def isGrid (members : List (String × Tree)) : Bool :=
  ["meta", "cols", "rows"].all fun name => (members.lookup name).isSome

/-- The version of a grid, from the object under `meta`. -/
def versionOf (members : List (String × Tree)) : Except Error Version :=
  match members.lookup "meta" with
  | some (.object header) =>
      match header.get? "ver" with
      | some (.string text) => Version.read text
      | _ => refused .noVer
  | _ => refused .noMeta

def columnName (members : OrderedMap Tree) : Except Error String :=
  match members.get? "name" with
  | some (.string name) => .ok name
  | _ => refused .columnWithoutName

/-- The tags that are not null. -/
def withoutNulls (tags : List (String × Value)) : OrderedMap Value :=
  .ofList (tags.filter fun tag => !tag.2.isNull)

def edited (grid : Grid) (edit : Edit Unit) : Except Error Grid :=
  match edit.apply grid with
  | (.ok _, grid) => .ok grid
  | (.error error, _) => .error error

def addColumns (grid : Grid) : List (Except Error (String × Metadata)) → Except Error Grid
  | [] => .ok grid
  | column :: rest => do
      let (name, metadata) ← column
      let grid ← edited grid (GridOf.addColumn name metadata)
      addColumns grid rest

def addRows (grid : Grid) : List (Except Error Entity) → Except Error Grid
  | [] => .ok grid
  | row :: rest => do
      let row ← row
      let grid ← edited grid (GridOf.append row)
      addRows grid rest

/-- The grid of an object. Its version fixes the dialect of the metadata, columns and rows. -/
def makeGrid (members : List (String × Tree))
    (metadata : Version → Except Error (List (String × Value)))
    (columns : Version → Except Error (List (Except Error (String × Metadata))))
    (rows : Version → Except Error (List (Except Error Entity))) : Except Error Grid := do
  let version ← versionOf members
  let dialect := version.nearest
  let metadata ← metadata dialect
  let grid ← edited (.withVersion version) (GridOf.setMetadata (.ofList metadata))
  let columns ← columns dialect
  let grid ← addColumns grid columns
  let rows ← rows dialect
  addRows grid rows

mutual

def valueOf (tree : Tree) (dialect : Version) : Except Error Value :=
  match tree with
  | .null => .ok .null
  | .bool b => .ok (.bool b)
  | .integer i => .ok (.number (.plain (.ofInt i)))
  | .decimal x => .ok (.number (.plain x))
  | .string s => stringValue s dialect
  | .array items => do
      requireThree dialect "List"
      let values ← valuesOf items dialect
      pure (.list values)
  | .object ⟨members⟩ => do
      requireThree dialect "Dict"
      if isGrid members then do
        let grid ← makeGrid members (fun dialect => metadataOf members dialect)
          (fun dialect => columnsOf members dialect) (fun dialect => rowsOf members dialect)
        pure (.grid grid)
      else do
        let tags ← tagsOf none members dialect
        pure (.dict (.ofList tags))
termination_by structural tree

def valuesOf (items : List Tree) (dialect : Version) : Except Error (List Value) :=
  match items with
  | [] => .ok []
  | item :: rest => do
      let value ← valueOf item dialect
      let others ← valuesOf rest dialect
      pure (value :: others)
termination_by structural items

/-- The tags of an object, but for the member that is something else. -/
def tagsOf (other : Option String) (members : List (String × Tree)) (dialect : Version) :
    Except Error (List (String × Value)) :=
  match members with
  | [] => .ok []
  | (name, tree) :: rest =>
      if other = some name then tagsOf other rest dialect
      else do
        let value ← valueOf tree dialect
        let others ← tagsOf other rest dialect
        pure ((name, value) :: others)
termination_by structural members

/-- The metadata of a grid, from the object under `meta`. -/
def metadataOf (members : List (String × Tree)) (dialect : Version) :
    Except Error (List (String × Value)) :=
  match members with
  | [] => .ok []
  | (name, tree) :: rest =>
      if name = "meta" then objectTags (some "ver") tree dialect else metadataOf rest dialect
termination_by structural members

def objectTags (other : Option String) (tree : Tree) (dialect : Version) :
    Except Error (List (String × Value)) :=
  match tree with
  | .object ⟨members⟩ => tagsOf other members dialect
  | _ => .ok []
termination_by structural tree

/-- The columns of a grid, each with what is wrong with it. -/
def columnsOf (members : List (String × Tree)) (dialect : Version) :
    Except Error (List (Except Error (String × Metadata))) :=
  match members with
  | [] => .ok []
  | (name, tree) :: rest =>
      if name = "cols" then columnArray tree dialect else columnsOf rest dialect
termination_by structural members

def columnArray (tree : Tree) (dialect : Version) :
    Except Error (List (Except Error (String × Metadata))) :=
  match tree with
  | .array items => .ok (columnItems items dialect)
  | _ => refused .columnsNotArray
termination_by structural tree

def columnItems (items : List Tree) (dialect : Version) :
    List (Except Error (String × Metadata)) :=
  match items with
  | [] => []
  | item :: rest => columnOf item dialect :: columnItems rest dialect
termination_by structural items

def columnOf (tree : Tree) (dialect : Version) : Except Error (String × Metadata) :=
  match tree with
  | .object ⟨members⟩ => do
      let name ← columnName ⟨members⟩
      let tags ← tagsOf (some "name") members dialect
      pure (name, withoutNulls tags)
  | _ => refused .columnNotObject
termination_by structural tree

/-- The rows of a grid, each with what is wrong with it. -/
def rowsOf (members : List (String × Tree)) (dialect : Version) :
    Except Error (List (Except Error Entity)) :=
  match members with
  | [] => .ok []
  | (name, tree) :: rest =>
      if name = "rows" then rowArray tree dialect else rowsOf rest dialect
termination_by structural members

def rowArray (tree : Tree) (dialect : Version) : Except Error (List (Except Error Entity)) :=
  match tree with
  | .array items => .ok (rowItems items dialect)
  | _ => refused .rowsNotArray
termination_by structural tree

def rowItems (items : List Tree) (dialect : Version) : List (Except Error Entity) :=
  match items with
  | [] => []
  | item :: rest => rowOf item dialect :: rowItems rest dialect
termination_by structural items

def rowOf (tree : Tree) (dialect : Version) : Except Error Entity :=
  match tree with
  | .object ⟨members⟩ => do
      let tags ← tagsOf none members dialect
      pure (withoutNulls tags)
  | _ => refused .rowNotObject
termination_by structural tree

end

/-- The grid of an object. -/
def gridOf (members : List (String × Tree)) : Except Error Grid :=
  makeGrid members (metadataOf members) (columnsOf members) (rowsOf members)

def gridOfTree (tree : Tree) : Except Error Grid :=
  match tree with
  | .object ⟨members⟩ => gridOf members
  | _ => refused .gridNotObject

/-! ## Whole texts -/

def readTree (text : String) : Except Error Tree :=
  match read? text with
  | some tree => .ok tree
  | none => refused .notJson

def readGrid (text : String) : Except Error Grid := do
  let tree ← readTree text
  gridOfTree tree

/-- An array of grids, or a single one. -/
def readGrids (text : String) : Except Error (List Grid) := do
  match ← readTree text with
  | .array items => items.mapM gridOfTree
  | tree => do
      let grid ← gridOfTree tree
      pure [grid]

/-- One value: a JSON text, or a string without its quotes. -/
def readValue (text : String) (version : Version) : Except Error Value :=
  match read? text with
  | some tree => valueOf tree version.nearest
  | none => stringValue text version.nearest

end Haystack.Json
