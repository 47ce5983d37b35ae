import Haystack.Decimal.Fixed
import Haystack.Zinc.Document

/-!
Writing values and grids in the Zinc encoding.

A value that the version cannot hold is refused. Of a row only the tags that columns declare are
written.
-/
namespace Haystack.Zinc

/-- The words for numbers that digits cannot write. -/
def spelling : Decimal.Spelling := ⟨"NaN", "INF"⟩

def magnitudeText (magnitude : Binary64) : String := Decimal.write spelling magnitude

def numberText (n : Number) : String := magnitudeText n.magnitude ++ n.unit.getD ""

/-- A moment with its offset and the short name of its zone. -/
def dateTimeText (moment : DateTime) : String :=
  moment.rfc3339 true ++ " " ++ moment.zone.shortName

/-- Degrees are written with six decimals. -/
def degreesText (angle : Binary64) : String := Decimal.writeFixed 6 angle

def referenceText (r : Ref) : String :=
  match r.display with
  | some display => "@" ++ r.name ++ " " ++ quote display
  | none => "@" ++ r.name

/-- MIME types were bare before version 3.0. -/
def binText (mime : String) (version : Version) : String :=
  if compare version .three != .lt then "Bin(" ++ quote mime ++ ")" else "Bin(" ++ mime ++ ")"

/-- A tag in metadata or in a dict: a marker by its name alone. -/
def tagText (name : String) (value : Value) (text : String) : String :=
  if value.isMarker then name else name ++ ":" ++ text

/-- The cells of a row in the order of the columns. In a grid with a single column a missing cell is
written as a null, since its line would be blank. -/
def rowText (columns : List String) (tags : List (String × Except Error String)) :
    Except Error String := do
  let cells ← columns.mapM fun name =>
    match tags.lookup name with
    | some text => text
    | none => .ok (if 1 < columns.length then "" else "N")
  pure (String.intercalate "," cells)

def rowLines (columns : List String) (rows : List (List (String × Except Error String))) :
    Except Error String := do
  let lines ← rows.mapM fun row => (rowText columns row).map (· ++ "\n")
  pure (String.join lines)

/-- A column's name, or the version, and the metadata that belong to it, if there are any. -/
def withTags (name tags : String) : String :=
  if tags.isEmpty then name else name ++ " " ++ tags

def columnLine (columns : List (String × String)) : String :=
  if columns.isEmpty then emptyColumn
  else String.intercalate "," (columns.map fun (name, tags) => withTags name tags)

mutual

/-- One value in the notation of a version. -/
def writeValue (value : Value) (version : Version) : Except Error String :=
  match value with
  | .null => .ok "N"
  | .marker => .ok "M"
  | .na => (Value.ensureFits .na version).map fun _ => "NA"
  | .remove => .ok "R"
  | .bool b => .ok (if b then "T" else "F")
  | .number n => .ok (numberText n)
  | .str s => .ok (quote s)
  | .uri s => .ok (quoteUri s)
  | .bin mime => .ok (binText mime version)
  | .xstr x => .ok (x.encoding ++ "(" ++ quote x.text ++ ")")
  | .ref r => .ok (referenceText r)
  | .date d => .ok d.text
  | .time t => .ok t.text
  | .dateTime d => .ok (dateTimeText d)
  | .coord c => .ok ("C(" ++ degreesText c.latitude ++ "," ++ degreesText c.longitude ++ ")")
  | .list items => do
      Value.ensureFits (.list items) version
      let texts ← writeList items version
      pure ("[" ++ String.intercalate "," texts ++ "]")
  | .dict tags => do
      Value.ensureFits (.dict tags) version
      let texts ← writeTags tags version
      pure ("\x7b" ++ String.intercalate " " texts ++ "\x7d")
  | .grid g => do
      Value.ensureFits (.grid g) version
      let text ← writeGrid g
      pure ("<<" ++ text ++ ">>")
termination_by structural value

def writeList (items : List Value) (version : Version) : Except Error (List String) :=
  match items with
  | [] => .ok []
  | item :: rest => do
      let text ← writeValue item version
      let others ← writeList rest version
      pure (text :: others)
termination_by structural items

/-- The tags of metadata or of a dict. -/
def writeTags (tags : OrderedMap Value) (version : Version) : Except Error (List String) :=
  match tags with
  | ⟨items⟩ => writeItems items version
termination_by structural tags

def writeItems (items : List (String × Value)) (version : Version) : Except Error (List String) :=
  match items with
  | [] => .ok []
  | (name, value) :: rest => do
      let text ← writeValue value version
      let others ← writeItems rest version
      pure (tagText name value text :: others)
termination_by structural items

def writeColumns (columns : Columns) (version : Version) : Except Error (List (String × String)) :=
  match columns with
  | ⟨items⟩ => writeColumnItems items version
termination_by structural columns

def writeColumnItems (items : List (String × Metadata)) (version : Version) :
    Except Error (List (String × String)) :=
  match items with
  | [] => .ok []
  | (name, metadata) :: rest => do
      let texts ← writeTags metadata version
      let others ← writeColumnItems rest version
      pure ((name, String.intercalate " " texts) :: others)
termination_by structural items

/-- The text of each tag of each row, or why it has none. -/
def writeRows (rows : List Entity) (version : Version) :
    List (List (String × Except Error String)) :=
  match rows with
  | [] => []
  | ⟨items⟩ :: rest => writeCells items version :: writeRows rest version
termination_by structural rows

def writeCells (items : List (String × Value)) (version : Version) :
    List (String × Except Error String) :=
  match items with
  | [] => []
  | (name, value) :: rest => (name, writeValue value version) :: writeCells rest version
termination_by structural items

/-- A line for the version and the metadata, one for the columns and one for each row. -/
def writeGrid (grid : Grid) : Except Error String :=
  match grid with
  | ⟨version, _, metadata, columns, rows⟩ => do
      let tags ← writeTags metadata version
      let names ← writeColumns columns version
      let lines ← rowLines (names.map (·.1)) (writeRows rows version)
      pure (withTags ("ver:" ++ quote version.text) (String.intercalate " " tags) ++ "\n" ++
        columnLine names ++ "\n" ++ lines)
termination_by structural grid

end

end Haystack.Zinc

namespace Haystack.Value

/-- How a value is shown: as the newest version writes it, or by its kind if that fails. -/
def display (value : Value) : String :=
  match Zinc.writeValue value .latest with
  | .ok text => text
  | .error _ => "<" ++ value.kind ++ ">"

end Haystack.Value
