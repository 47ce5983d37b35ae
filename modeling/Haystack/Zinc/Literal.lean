import Haystack.Calendar.Reading
import Haystack.Grid.Basic
import Haystack.Phrase
import Haystack.Zinc.Quoted

/-!
The values of the Zinc encoding, as they stand in a text.

The grammar is that of the newest version; what an older one lacks is refused when the value is
made. So a text may be well formed and still not name a value: looking for a literal gives a
`Reading`.
-/
namespace Haystack.Zinc

/-- Why a well-formed text names no value: with the offset of the phrase at fault, or for a reason
that no place in the text is blamed for. -/
inductive Refusal where
  | at (offset : Nat) (cause : Unreadable)
  | overall (error : Error)

abbrev Reading (α : Type) : Type := Except Refusal α

/-- A refusal as an error about a text. -/
def Refusal.error (text : List Char) : Refusal → Error
  | .at offset cause =>
      let place := Text.placeAt text offset
      .unreadable cause (some place) (some (Text.excerpt text place))
  | .overall error => error

def Reading.blame {α : Type} (offset : Nat) : Except Unreadable α → Reading α
  | .ok a => .ok a
  | .error cause => .error (.at offset cause)

open Phrase

/-! ## Characters -/

def isIdChar (c : Char) : Bool := c.isAlphanum || c == '_'

def isSpace (c : Char) : Bool := c == ' ' || c == '\t'

/-- The characters of a reference's name, of which there may be none in a text. -/
def isRefChar (c : Char) : Bool := Ref.isNameChar c

def isUnitChar (c : Char) : Bool :=
  c.isAlpha || c == '%' || c == '_' || c == '/' || c == '$' || 0x80 ≤ c.toNat

/-- Printable ASCII characters other than parentheses. -/
def isMimeChar (c : Char) : Bool := 0x20 ≤ c.toNat && c.toNat ≤ 0x7e && c != '(' && c != ')'

def isZoneChar (c : Char) : Bool := isIdChar c || c == '-' || c == '/'

/-! ## Small phrases -/

def spaces : Phrase Unit := do let _ ← run isSpace

def spaces1 : Phrase Unit := do let _ ← run1 isSpace

/-- The end of a line. -/
def newline : Phrase Unit := do
  let _ ← Phrase.optional (char '\r')
  let _ ← char '\n'

/-- A name that starts with a letter of either case or an underscore. -/
def tagName : Phrase String := token do
  let first ← satisfying fun c => c.isAlpha || c == '_'
  let others ← run isIdChar
  pure (String.ofList (first :: others))

/-- A name that starts with a lower-case letter or an underscore. -/
def identifier : Phrase String := token do
  let first ← satisfying fun c => c.isLower || c == '_'
  let others ← run isIdChar
  pure (String.ofList (first :: others))

/-- A word that no further letter, digit or underscore continues. -/
def keyword (text : String) : Phrase Unit := do
  word text
  notAhead isIdChar

/-- One of the words that stand for a value by themselves. -/
def singleton (text : String) (value : Value) : Phrase Value := token do
  keyword text
  pure value

/-! ## Quoted values -/

/-- A quoted text, refused where one of its escapes means nothing. -/
def quoted : Phrase (Reading String) := named do
  let offset ← here
  let _ ← char '"'
  let body ← Phrase.take (unitsLength stringUnit? 0)
  let _ ← char '"'
  pure (Reading.blame offset ((unescape false body).map String.ofList))

def uri : Phrase (Reading Value) := named do
  let offset ← here
  let _ ← char '\x60'
  let body ← Phrase.take (unitsLength uriUnit? 0)
  let _ ← char '\x60'
  pure (Reading.blame offset ((unescape true body).map fun text => .uri (String.ofList text)))

/-- A name after `@`, and after spaces perhaps a quoted display name. -/
def reference : Phrase (Reading Value) := named do
  let _ ← char '@'
  let name ← run isRefChar
  let display ← Phrase.optional do
    let _ ← run1 (· == ' ')
    quoted
  pure do
    match display with
    | none => pure (.ref ⟨String.ofList name, none⟩)
    | some text => pure (.ref ⟨String.ofList name, some (← text)⟩)

/-- A MIME type between `Bin(` and `)`, quoted or bare. -/
def bin : Phrase (Reading Value) := named do
  word "Bin("
  let mime ← quoted <|> (do
    let mime ← run isMimeChar
    pure (Except.ok (String.ofList mime)))
  let _ ← char ')'
  pure (mime.map .bin)

/-- The name of an encoding and a quoted text in it. -/
def encoded : Phrase (Reading Value) := named do
  let offset ← here
  let encoding ← token (run1 isIdChar)
  let _ ← char '('
  let text ← quoted
  let _ ← char ')'
  pure do
    let payload ← text
    match XStr.ofText (String.ofList encoding) payload with
    | .ok x => pure (.xstr x)
    | .error cause => throw (.at offset (.value cause))

/-! ## Numbers and coordinates -/

/-- Degrees: a sign, digits and decimals, each of which may be missing. -/
def degrees : Phrase (List Char) := spanned do
  let _ ← Phrase.optional (char '-')
  let _ ← run Char.isDigit
  let _ ← Phrase.optional do
    let _ ← char '.'
    run1 Char.isDigit

/-- The number of an angle; without digits it is zero. -/
def degreesValue (text : List Char) : Except Unreadable Binary64 :=
  if text = [] ∨ text = ['-'] then .ok (.zero false)
  else (Decimal.read text).mapError .coordinate

def coordinate : Phrase (Reading Value) := named do
  let offset ← here
  word "C("
  spaces
  let latitude ← degrees
  spaces
  let _ ← char ','
  spaces
  let longitude ← degrees
  spaces
  let _ ← char ')'
  pure (Reading.blame offset do
    let latitude ← degreesValue latitude
    let longitude ← degreesValue longitude
    pure (.coord ⟨latitude, longitude⟩))

/-- Digits, with underscores after the first. -/
def digits : Phrase Unit := do
  let _ ← satisfying Char.isDigit
  let _ ← run fun c => c.isDigit || c == '_'

/-- The digits of a number with its sign, decimals and exponent. -/
def decimal : Phrase (List Char) := token (spanned do
  let _ ← Phrase.optional (char '-')
  digits
  let _ ← Phrase.optional do
    let _ ← char '.'
    digits
  let _ ← Phrase.optional do
    let _ ← satisfying fun c => c == 'e' || c == 'E'
    let _ ← Phrase.optional (satisfying fun c => c == '+' || c == '-')
    digits)

/-- The numbers that digits cannot write. -/
def specialNumber : Phrase Binary64 := token (
  (do word "-INF"; pure (.infinity true)) <|>
  (do word "INF"; pure (.infinity false)) <|>
  (do word "NaN"; pure .nan))

def unit : Phrase String := token do
  let text ← run1 isUnitChar
  pure (String.ofList text)

/-- The number of its digits, in which underscores mean nothing. -/
def decimalValue (text : List Char) : Except Unreadable Binary64 :=
  (Decimal.read (text.filter (· != '_'))).mapError .number

def number : Phrase (Reading Value) := named (
  (do
    let magnitude ← specialNumber
    pure (.ok (.number (.plain magnitude)))) <|>
  (do
    let offset ← here
    let text ← decimal
    let unit ← Phrase.optional unit
    pure (Reading.blame offset do
      let magnitude ← decimalValue text
      pure (.number ⟨magnitude, unit⟩))))

/-! ## Dates and times -/

def twoDigits : Phrase Unit := do
  let _ ← satisfying Char.isDigit
  let _ ← satisfying Char.isDigit

def dateText : Phrase Unit := do
  twoDigits
  twoDigits
  let _ ← char '-'
  twoDigits
  let _ ← char '-'
  twoDigits

def timeText : Phrase Unit := do
  twoDigits
  let _ ← char ':'
  twoDigits
  let _ ← Phrase.optional do
    let _ ← char ':'
    twoDigits
    let _ ← Phrase.optional do
      let _ ← char '.'
      run1 Char.isDigit

def offsetText : Phrase Unit :=
  (do let _ ← satisfying fun c => c == 'z' || c == 'Z') <|>
  (do
    let _ ← satisfying fun c => c == '+' || c == '-'
    twoDigits
    let _ ← char ':'
    twoDigits)

def date : Phrase (Reading Value) := token do
  let offset ← here
  let text ← spanned dateText
  pure (Reading.blame offset (((Date.read text).map .date).mapError .date))

def time : Phrase (Reading Value) := token do
  let offset ← here
  let text ← spanned timeText
  pure (Reading.blame offset (((TimeOfDay.read text).map .time).mapError .time))

/-- The name of a zone: `UTC` or `GMT`, perhaps with hours, or a name that starts with a capital. -/
def zoneName : Phrase (List Char) := token (spanned (
  (do
    word "UTC" <|> word "GMT"
    let _ ← Phrase.optional do
      let _ ← satisfying fun c => c == '+' || c == '-'
      run1 Char.isDigit
    notAhead fun c => isIdChar c || c == '-') <|>
  (do
    let _ ← satisfying Char.isUpper
    let _ ← run isZoneChar)))

def isoText : Phrase (List Char) := token (spanned do
  dateText
  let _ ← satisfying fun c => c == 't' || c == 'T'
  timeText
  Phrase.optional offsetText)

def zoneOf (name : List Char) : Except Unreadable Zone :=
  (Zone.named (String.ofList name)).mapError fun _ => .value (.zone (String.ofList name))

def dateTime : Phrase (Reading Value) := named do
  let offset ← here
  let iso ← isoText
  let name ← Phrase.optional do
    let _ ← char ' '
    zoneName
  pure (Reading.blame offset do
    let zone ← name.mapM zoneOf
    let moment ← DateTime.read iso zone
    pure (.dateTime moment))

/-! ## Features of newer versions -/

/-- Refuse what the dialect does not have. -/
def requireThree (dialect : Version) (offset : Nat) (feature : String) : Reading Unit :=
  if compare dialect .three == .lt then .error (.at offset (.newerFeature dialect feature))
  else .ok ()

def notAvailable (dialect : Version) : Phrase (Reading Value) := token do
  let offset ← here
  keyword "NA"
  pure do
    requireThree dialect offset "NA"
    pure .na

/-! ## Collections, given the phrase for what they hold -/

section Collections

variable (dialect : Version) (value : Phrase (Reading Value))

def list : Phrase (Reading Value) := named do
  let offset ← here
  let _ ← char '['
  spaces
  let items ← Phrase.optional do
    let first ← value
    spaces
    let others ← many do
      let _ ← char ','
      spaces
      let item ← value
      spaces
      pure item
    let _ ← Phrase.optional do
      let _ ← char ','
      spaces
    pure (first :: others)
  let _ ← char ']'
  pure do
    requireThree dialect offset "List"
    let items ← (items.getD []).mapM id
    pure (.list items)

/-- A name and perhaps a value; without one the tag is a marker. -/
def tag : Phrase (String × Reading Value) := named do
  let name ← tagName
  let given ← Phrase.optional do
    spaces
    let _ ← char ':'
    spaces
    value
  pure (name, given.getD (.ok .marker))

/-- The tags of a text in order, the last value of a repeated name in its first place. -/
def readTags : List (String × Reading Value) → Reading (List (String × Value))
  | [] => .ok []
  | (name, reading) :: rest => do
      let value ← reading
      let others ← readTags rest
      pure ((name, value) :: others)

def dict : Phrase (Reading Value) := named do
  let offset ← here
  let _ ← char '\x7b'
  spaces
  let tags ← Phrase.optional do
    let first ← tag value
    let others ← many do
      spaces
      let _ ← Phrase.optional (char ',')
      spaces
      tag value
    pure (first :: others)
  spaces
  let _ ← Phrase.optional (char ',')
  spaces
  let _ ← char '\x7d'
  pure do
    requireThree dialect offset "Dict"
    let tags ← readTags (tags.getD [])
    pure (.dict (.ofList tags))

end Collections

end Haystack.Zinc
