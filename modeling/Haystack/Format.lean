import Haystack.Csv.Document
import Haystack.Json.Writer

/-!
The three encodings, by name.
-/
namespace Haystack

inductive Format where
  | zinc
  | json
  | csv
deriving DecidableEq

namespace Format

def all : List Format := [.zinc, .json, .csv]

def name : Format → String
  | .zinc => "zinc"
  | .json => "json"
  | .csv => "csv"

def mimeType : Format → String
  | .zinc => "text/zinc"
  | .json => "application/json"
  | .csv => "text/csv"

/-- How the names of files in an encoding end. -/
def suffix : Format → String
  | .zinc => ".zinc"
  | .json => ".json"
  | .csv => ".csv"

/-- A format by its name or MIME type in any case, whatever parameters follow a semicolon. -/
def named (text : String) : Except Error Format :=
  let part := (Text.pieces (· == ';') text.toList).headD []
  let word := String.ofList ((Text.trim part).map Char.toLower)
  if word = "zinc" ∨ word = "text/zinc" ∨ word = "text/plain" then .ok .zinc
  else if word = "json" ∨ word = "application/json" then .ok .json
  else if word = "csv" ∨ word = "text/csv" then .ok .csv
  else .error (.unsupportedFormat text)

/-- The format of a file, from the end of its name. -/
def ofPath (path : String) : Except Error Format :=
  let lower := path.toList.map Char.toLower
  match all.find? fun format => format.suffix.toList.isSuffixOf lower with
  | some format => .ok format
  | none => .error (.unsupportedFormat path)

/-! ## Reading -/

/-- Exactly one grid. -/
def readGrid (format : Format) (text : String) : Except Error Grid :=
  match format with
  | .zinc => Zinc.readGrid text
  | .json => Json.readGrid text
  | .csv => Csv.readGrid text

/-- The grids of a text: Zinc grids are separated by blank lines, JSON grids form an array, and CSV
holds one. With `single` the whole text is one grid. -/
def readGrids (format : Format) (text : String) (single : Bool) : Except Error (List Grid) :=
  if single then (format.readGrid text).map ([·])
  else match format with
    | .zinc => Zinc.readGrids text
    | .json => Json.readGrids text
    | .csv => (Csv.readGrid text).map ([·])

/-- The text of bytes in a character set: UTF-8, or Latin-1, where a byte is a character. -/
def decode (bytes : List UInt8) (charset : String) : Except Error String :=
  let word := String.ofList (charset.toList.map Char.toLower)
  if word = "utf-8" ∨ word = "utf8" then
    (Text.Utf8.decode bytes).mapError fun fault => .invalidValue (.utf8 fault)
  else if word = "latin-1" ∨ word = "latin1" ∨ word = "iso-8859-1" then
    .ok (String.ofList (bytes.map fun byte => Char.ofNat byte.toNat))
  else .error (.unsupportedFormat ("charset " ++ word))

/-- The grids of encoded bytes. A byte order mark in front is dropped. -/
def readBytes (format : Format) (bytes : List UInt8) (charset : String) :
    Except Error (List Grid) := do
  let text ← decode bytes charset
  format.readGrids (String.ofList (Text.Utf8.withoutMark text.toList)) false

def readValue (format : Format) (text : String) (version : Version) : Except Error Value :=
  match format with
  | .zinc => Zinc.readValue text version
  | .json => Json.readValue text version
  | .csv => Csv.readValue text version

/-! ## Writing -/

def writeGrid (format : Format) (grid : Grid) : Except Error String :=
  match format with
  | .zinc => Zinc.writeGrid grid
  | .json => Json.writeGrid grid
  | .csv => Csv.writeGrid grid

/-- Several grids in one text, which CSV has no form for. -/
def writeGrids (format : Format) (grids : List Grid) : Except Error String :=
  match format with
  | .zinc => (grids.mapM Zinc.writeGrid).map (String.intercalate "\n")
  | .json => Json.writeGrids grids
  | .csv =>
      match grids with
      | [grid] => Csv.writeGrid grid
      | _ => .error (.unsupportedOperation (.severalGridsInCsv grids.length))

def writeValue (format : Format) (value : Value) (version : Version) : Except Error String :=
  match format with
  | .zinc => Zinc.writeValue value version
  | .json => Json.writeValue value version
  | .csv => Csv.writeValue value version

end Format

end Haystack
