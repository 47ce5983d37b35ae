import Haystack.Format
import Haystack.Sql.Statement

/-!
Settings, with the defaults of those that are not given.

A file of settings is a flat JSON object. Texts and numbers are taken for one another where one can
be read as the other. The names of members are paths, but a setting has no parts that a path could
lead to.
-/
namespace Haystack

structure Settings where
  /-- How many filters a cache holds. -/
  filterCacheSize : Nat := 500
  /-- The encoding that is used where none is named. -/
  defaultFormat : String := "zinc"
  logFilter : String := "info"
  sqlTable : String := "haystack"
  customerId : String := ""
deriving DecidableEq

namespace Settings

instance : Inhabited Settings := ⟨{}⟩

def format (settings : Settings) : Except Error Format := Format.named settings.defaultFormat

/-- Where entities are looked up with these settings. -/
def source (settings : Settings) (dialect : Sql.Dialect) (instant : Int) : Sql.Source where
  dialect
  table := settings.sqlTable
  customer := settings.customerId
  instant

/-! ## Reading -/

/-- The greatest size, a word of sixty-four bits. -/
def sizeLimit : Nat := Nat.pow 2 64 - 1

/-- The greatest integer of a signed word. -/
def signedLimit : Nat := Nat.pow 2 63 - 1

/-- A number as the integer nearest to it, half a unit going away from zero; numbers below zero and
above the largest size are taken for the nearest size. -/
def roundedSize : Binary64 → Nat
  | .finite false significand exponent _ =>
      let (numerator, denominator) := Binary64.ratio significand exponent
      min ((2 * numerator + denominator) / (2 * denominator)) sizeLimit
  | .infinity false => sizeLimit
  | _ => 0

/-- Decimal digits, perhaps after a plus sign. -/
def sizeOfDigits? (text : List Char) : Option Nat :=
  let digits := match text with
    | '+' :: rest => rest
    | _ => text
  if digits.isEmpty || !digits.all Char.isDigit then none
  else if Decimal.naturalOf digits ≤ sizeLimit then some (Decimal.naturalOf digits)
  else none

def sizeOfText? (text : String) : Option Nat :=
  let word := String.ofList (text.toList.map Char.toLower)
  if word = "true" ∨ word = "on" ∨ word = "yes" then some 1
  else if word = "false" ∨ word = "off" ∨ word = "no" then some 0
  else sizeOfDigits? text.toList

def size? : Json.Tree → Option Nat
  | .integer i => if i < 0 then none else some i.toNat
  | .decimal x => some (roundedSize x)
  | .bool b => some b.toNat
  | .string text => sizeOfText? text
  | _ => none

def text? : Json.Tree → Option String
  | .string text => some text
  | .bool b => some (if b then "true" else "false")
  | .integer i => some i.repr
  | .decimal x => some (Decimal.write Decimal.plain x)
  | _ => none

/-! ## Paths -/

open Phrase

def isNameChar (c : Char) : Bool := c.isAlphanum || c == '_' || c == '-'

/-- An index is a signed word. -/
def index : Phrase Unit := do
  let sign ← Phrase.optional (char '-')
  let digits ← run1 Char.isDigit
  if signedLimit + sign.toList.length < Decimal.naturalOf digits then never else pure ()

/-- A step into a part: its name after a point, or its index in brackets. -/
def step : Phrase Unit :=
  (do
    let _ ← char '.'
    let _ ← run1 isNameChar) <|>
  (do
    let _ ← char '['
    let _ ← run fun c => c == ' ' || c == '\t'
    index
    let _ ← run fun c => c == ' ' || c == '\t'
    let _ ← char ']')

/-- A name with steps behind it. -/
def path : Phrase String := do
  let name ← run1 isNameChar
  step
  let _ ← many step
  pure (String.ofList name)

/-- What the path starts from that leads to a part, if a name is one. -/
def partOf? (name : String) : Option String := (readAll path name.toList).toOption

/-! ## Members -/

/-- A member of an object, or what is given by default. -/
def member {α : Type} (read? : Json.Tree → Option α) (members : OrderedMap Json.Tree)
    (name : String) (default : α) : Except Error α :=
  if members.keys.any fun key => partOf? key == some name then .error .config
  else match members.get? name with
    | none => .ok default
    | some tree => match read? tree with
      | some value => .ok value
      | none => .error .config

/-- The settings of an object; members of other names are ignored. -/
def ofMembers (members : OrderedMap Json.Tree) : Except Error Settings := do
  let filterCacheSize ←
    member size? members "filter_cache_size" (default : Settings).filterCacheSize
  let defaultFormat ← member text? members "default_format" (default : Settings).defaultFormat
  let logFilter ← member text? members "log_filter" (default : Settings).logFilter
  let sqlTable ← member text? members "sql_table" (default : Settings).sqlTable
  let customerId ← member text? members "customer_id" (default : Settings).customerId
  pure { filterCacheSize, defaultFormat, logFilter, sqlTable, customerId }

/-- The settings of a file, which may begin with a byte order mark. The default format has to be a
format. -/
def read (text : String) : Except Error Settings := do
  let text := String.ofList (Text.Utf8.withoutMark text.toList)
  match (Json.read? text).bind Json.Tree.object? with
  | none => throw .config
  | some members =>
      let settings ← ofMembers members
      let _ ← settings.format
      pure settings

end Settings

end Haystack
