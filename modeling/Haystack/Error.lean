import Haystack.Text.Place
import Haystack.Text.Shown
import Haystack.Text.Utf8
import Haystack.Decimal.Reader
import Haystack.Version

/-!
What can go wrong, by cause, and the wording of each cause.
-/
namespace Haystack

/-- Why the digits of a date or time name none. -/
inductive ClockFault where
  | outOfRange
  | trailing
deriving DecidableEq

def ClockFault.message : ClockFault → String
  | .outOfRange => "input is out of range"
  | .trailing => "trailing input"

/-- Values that are refused outside of any text that could be pointed at. -/
inductive InvalidValue where
  | version (text : String)
  | zone (name : String)
  | refName (name : String)
  | hexPayload
  | base64Payload
  | rowIndex (index : Nat)
  | mixedSelection
  | utf8 (fault : Text.Utf8.Fault)
  | dateRange (range : String)
  | noMidnight (date zone : String)
deriving DecidableEq

def InvalidValue.message : InvalidValue → String
  | .version text => "Not a valid version string: " ++ Text.shown text
  | .zone name => name ++ " is not a recognised timezone"
  | .refName name => "invalid ref name " ++ Text.shown name
  | .hexPayload => "invalid hex payload"
  | .base64Payload => "invalid b64 payload"
  | .rowIndex index => "row index " ++ Nat.repr index ++ " out of range"
  | .mixedSelection => "Impossible to merge positive and negative selection"
  | .utf8 fault => fault.message
  | .dateRange range => "date range " ++ range
  | .noMidnight day place => day ++ " has no midnight in " ++ place

/-- Why a text in one of the encodings cannot be read. -/
inductive Unreadable where
  | noVersionHeader
  | syntaxError
  | notJson
  | newerFeature (dialect : Version) (feature : String)
  | date (fault : ClockFault)
  | time (fault : ClockFault)
  | dateTime (text : String) (fault : ClockFault)
  | offset (text : String)
  | skippedTime (text zone : String)
  | value (cause : InvalidValue)
  | duplicateKey (key : String)
  | gateClosed (feature : String) (version : Version)
  | notACharacter (digits : String)
  | wrongEscape (escape : String)
  | danglingBackslash
  | coordinate (fault : Decimal.Fault)
  | number (fault : Decimal.Fault)
  | tooManyCells (limit : Nat)
  | gridNotObject
  | noMeta
  | noVer
  | columnsNotArray
  | columnNotObject
  | columnWithoutName
  | rowsNotArray
  | rowNotObject
  | gated (feature : String) (dialect : Version)
  | notAnXStr (text : String)
  | notACoordinate (text : String)
  | jsonCoordinate (fault : Decimal.Fault)
  | jsonNumber (text : String) (fault : Decimal.Fault)
  | wrongKind (text kind : String)
deriving DecidableEq

/-- What is said of a grid whose version does not hold a value. -/
def gateMessage (feature : String) (version : Version) : String :=
  "Project Haystack version " ++ version.text ++ " does not support " ++ feature

def Unreadable.message : Unreadable → String
  | .noVersionHeader => "Could not find the grid version header"
  | .syntaxError => "syntax error"
  | .notJson => "JSON syntax error"
  | .newerFeature dialect feature =>
      "Project Haystack " ++ dialect.text ++ " does not support " ++ feature
  | .date fault => "invalid date: " ++ fault.message
  | .time fault => "invalid time: " ++ fault.message
  | .dateTime text fault => "invalid datetime " ++ text ++ ": " ++ fault.message
  | .offset text => "invalid offset in " ++ text
  | .skippedTime text zone => text ++ " does not exist in " ++ zone
  | .value cause => "Invalid value: " ++ cause.message
  | .duplicateKey key => "Duplicate key: " ++ key
  | .gateClosed feature version => gateMessage feature version
  | .notACharacter digits => "invalid character \\u" ++ digits
  | .wrongEscape escape => "invalid escape \\" ++ escape
  | .danglingBackslash => "dangling backslash"
  | .coordinate fault => "invalid coordinate: " ++ fault.message
  | .number fault => "invalid number: " ++ fault.message
  | .tooManyCells limit => "row has more than " ++ Nat.repr limit ++ " cells"
  | .gridNotObject => "a grid must be a JSON object"
  | .noMeta => "the grid has no meta object"
  | .noVer => "the grid meta has no ver"
  | .columnsNotArray => "cols must be an array"
  | .columnNotObject => "a column must be an object"
  | .columnWithoutName => "a column has no name"
  | .rowsNotArray => "rows must be an array"
  | .rowNotObject => "a row must be an object"
  | .gated feature dialect => feature ++ " is not supported by Project Haystack " ++ dialect.text
  | .notAnXStr text => text ++ " is not an XStr"
  | .notACoordinate text => text ++ " is not a coordinate"
  | .jsonCoordinate fault => fault.message
  | .jsonNumber text fault => text ++ ": " ++ fault.message
  | .wrongKind text kind => text ++ " is not a " ++ kind

/-- Requests that no text leads to: they come from trees and values built by hand. -/
inductive Misuse where
  | notAPath (test operand : String)
  | incomparable (left right : String)
  | notACondition (value : String)
  | unboundedInSql (value : String)
  | unorderedInSql (symbol kind : String)
deriving DecidableEq

def Misuse.message : Misuse → String
  | .notAPath test operand => test ++ " needs a path, not " ++ operand
  | .incomparable left right => "cannot compare " ++ left ++ " with " ++ right
  | .notACondition value => value ++ " is not a condition"
  | .unboundedInSql value => "cannot compare with " ++ value ++ " in SQL"
  | .unorderedInSql symbol kind => "operator " ++ symbol ++ " is not supported for " ++ kind

inductive UnsupportedOperation where
  | notImplemented (provider operation : String)
  | severalGridsInCsv (count : Nat)
deriving DecidableEq

def UnsupportedOperation.message : UnsupportedOperation → String
  | .notImplemented provider operation => provider ++ " does not implement " ++ operation
  | .severalGridsInCsv count => "CSV holds one grid, " ++ Nat.repr count ++ " were given"

inductive Error where
  /-- A text that cannot be read, with the place and the lines around it where they are known. -/
  | unreadable (cause : Unreadable) (place : Option Text.Place) (excerpt : Option String)
  | featureGate (feature : String) (version : Version)
  | unsupportedFormat (name : String)
  /-- A filter that is refused after so many bytes. -/
  | filterSyntax (offset : Nat)
  | invalidValue (cause : InvalidValue)
  | duplicateKey (key : String)
  | keyNotFound (key : String)
  | unsupportedOperation (cause : UnsupportedOperation)
  | misuse (cause : Misuse)
  | config
deriving DecidableEq

def Error.message : Error → String
  | .unreadable cause _ none => cause.message
  | .unreadable cause _ (some excerpt) => cause.message ++ "\n" ++ excerpt
  | .featureGate feature version => gateMessage feature version
  | .unsupportedFormat name => name
  | .filterSyntax _ => "syntax error"
  | .invalidValue cause => cause.message
  | .duplicateKey key => key
  | .keyNotFound key => key
  | .unsupportedOperation cause => cause.message
  | .misuse cause => cause.message
  | .config => "config error"

/-- A text that cannot be read, where no place in it is known. -/
def Error.unplaced (cause : Unreadable) : Error := .unreadable cause none none

/-- A version, or the complaint about its text. -/
def Version.read (text : String) : Except Error Version :=
  match Version.read? text with
  | some version => .ok version
  | none => .error (.invalidValue (.version text))

end Haystack
