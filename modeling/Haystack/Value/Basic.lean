import Haystack.OrderedMap
import Haystack.Calendar.DateTime
import Haystack.Text.Base64
import Haystack.Text.Hex

/-!
The values that tags hold, and the grids made of them.
-/
namespace Haystack

structure Number where
  magnitude : Binary64
  unit : Option String
deriving DecidableEq

namespace Number

def plain (magnitude : Binary64) : Number := ⟨magnitude, none⟩

/-- A number with a unit; the empty text stands for none. -/
def quantity (magnitude : Binary64) (unit : String) : Number :=
  ⟨magnitude, if unit.isEmpty then none else some unit⟩

def isQuantity (n : Number) : Bool := n.unit.isSome

/-- Numbers with different units are not compared; one without a unit goes with all others. -/
def isCompatible (a b : Number) : Bool :=
  match a.unit, b.unit with
  | some x, some y => x == y
  | _, _ => true

end Number

/-- Bytes with the name of the encoding that they are written in: `hex`, `b64`, or any other name
for plain text. -/
structure XStr where
  encoding : String
  data : List UInt8
deriving DecidableEq

namespace XStr

def ofText (encoding text : String) : Except InvalidValue XStr :=
  if encoding = "hex" then
    match Text.Hex.decode? text.toList with
    | some data => .ok ⟨encoding, data⟩
    | none => .error .hexPayload
  else if encoding = "b64" then
    match Text.Base64.decode? text.toList with
    | some data => .ok ⟨encoding, data⟩
    | none => .error .base64Payload
  else .ok ⟨encoding, Text.Utf8.encode text⟩

/-- The bytes in their encoding. Plain text that is not well formed shows replacement characters. -/
def text (x : XStr) : String :=
  if x.encoding = "hex" then String.ofList (Text.Hex.encode x.data)
  else if x.encoding = "b64" then String.ofList (Text.Base64.encode x.data)
  else Text.Utf8.decodeLossy x.data

end XStr

/-- A reference to an entity by its name; the display name is a hint for readers. -/
structure Ref where
  name : String
  display : Option String
deriving DecidableEq

namespace Ref

def isNameChar (c : Char) : Bool :=
  c.isAlphanum || c == '_' || c == ':' || c == '-' || c == '.' || c == '~'

def isValidName (name : String) : Bool := !name.isEmpty && name.toList.all isNameChar

/-- A reference whose name is checked. -/
def checked (name : String) (display : Option String) : Except InvalidValue Ref :=
  if isValidName name then .ok ⟨name, display⟩ else .error (.refName name)

/-- How a reference is shown, without its display name. -/
def text (r : Ref) : String := "@" ++ r.name

end Ref

structure Coordinate where
  latitude : Binary64
  longitude : Binary64
deriving DecidableEq

/-- A table: a version, metadata, named columns with metadata of their own, and rows of tags. Rows
may hold tags that no column declares. -/
structure GridOf (α : Type) where
  version : Version
  /-- Whether the version is fixed, or follows from the values. -/
  pinned : Bool
  metadata : OrderedMap α
  columns : OrderedMap (OrderedMap α)
  rows : List (OrderedMap α)

inductive Value where
  | null
  | marker
  /-- Not available. -/
  | na
  /-- What is to be removed, in a difference. -/
  | remove
  | bool (b : Bool)
  | number (n : Number)
  | str (s : String)
  | uri (s : String)
  /-- The MIME type of an attachment. -/
  | bin (mime : String)
  | xstr (x : XStr)
  | ref (r : Ref)
  | date (d : Date)
  | time (t : TimeOfDay)
  | dateTime (d : DateTime)
  | coord (c : Coordinate)
  | list (items : List Value)
  | dict (tags : OrderedMap Value)
  | grid (g : GridOf Value)

/-- The tags of a row or of a dict. -/
abbrev Entity := OrderedMap Value

abbrev Metadata := OrderedMap Value

/-- Columns in order of display, each with its metadata. -/
abbrev Columns := OrderedMap Metadata

abbrev Grid := GridOf Value

namespace Value

instance : Inhabited Value := ⟨.null⟩

def kind : Value → String
  | .null => "Null"
  | .marker => "Marker"
  | .na => "NA"
  | .remove => "Remove"
  | .bool _ => "Bool"
  | .number _ => "Number"
  | .str _ => "Str"
  | .uri _ => "Uri"
  | .bin _ => "Bin"
  | .xstr _ => "XStr"
  | .ref _ => "Ref"
  | .date _ => "Date"
  | .time _ => "Time"
  | .dateTime _ => "DateTime"
  | .coord _ => "Coord"
  | .list _ => "List"
  | .dict _ => "Dict"
  | .grid _ => "Grid"

def isNull : Value → Bool
  | .null => true
  | _ => false

def isMarker : Value → Bool
  | .marker => true
  | _ => false

def isRemove : Value → Bool
  | .remove => true
  | _ => false

def ref? : Value → Option Ref
  | .ref r => some r
  | _ => none

def str? : Value → Option String
  | .str s => some s
  | _ => none

def number? : Value → Option Number
  | .number n => some n
  | _ => none

/-- The oldest version that can hold a value, where that is not the first one. -/
def requiredVersion : Value → Option Version
  | .na | .list _ | .dict _ | .grid _ => some .three
  | _ => none

/-- Whether a version can hold a value. -/
def fits (value : Value) (version : Version) : Bool :=
  match value.requiredVersion with
  | some required => compare version required != .lt
  | none => true

/-- Refuse a value that a version cannot hold. -/
def ensureFits (value : Value) (version : Version) : Except Error Unit :=
  if value.fits version then .ok () else .error (.featureGate value.kind version)

end Value

/-! ## Rows by id -/

namespace Entity

/-- The reference that a row is known by. -/
def id? (row : Entity) : Option Ref := (row.get? "id").bind Value.ref?

def hasId (name : String) (row : Entity) : Bool :=
  match row.id? with
  | some r => r.name == name
  | none => false

end Entity

namespace GridOf

/-- The last row known by a name. -/
def lastWithId? (name : String) (rows : List Entity) : Option Nat :=
  rows.zipIdx.foldl (fun found row => if Entity.hasId name row.1 then some row.2 else found) none

end GridOf

end Haystack
