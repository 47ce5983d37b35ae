import Haystack.Error
import Haystack.Text.Hex

/-!
Quoted texts and URIs: what may stand between the quotes, and what it means.
-/
namespace Haystack.Zinc

/-- Characters below the space. -/
def isControl (c : Char) : Bool := c.toNat < 0x20

def isHexDigit (c : Char) : Bool := (Text.Hex.digitValue? c).isSome

/-! ## Writing -/

/-- A character number in four hexadecimal digits. -/
def unicodeEscape (c : Char) : List Char :=
  let digits := Nat.toDigits 16 c.toNat
  ['\\', 'u'] ++ List.replicate (4 - digits.length) '0' ++ digits

def quoteChar (c : Char) : List Char :=
  if c = '"' then ['\\', '"']
  else if c = '\\' then ['\\', '\\']
  else if c = '\n' then ['\\', 'n']
  else if c = '\r' then ['\\', 'r']
  else if c = '\t' then ['\\', 't']
  else if c = '\x08' then ['\\', 'b']
  else if c = '\x0c' then ['\\', 'f']
  else if isControl c then unicodeEscape c
  else [c]

def quoteBody (text : List Char) : List Char := text.flatMap quoteChar

/-- A text in double quotes. -/
def quote (text : String) : String :=
  String.ofList ('"' :: quoteBody text.toList ++ ['"'])

def uriChar (c : Char) : List Char :=
  if c = '\x60' then ['\\', '\x60']
  else if c = '\\' then ['\\', '\\']
  else if isControl c then unicodeEscape c
  else [c]

def uriBody (text : List Char) : List Char := text.flatMap uriChar

/-- A URI in backquotes. -/
def quoteUri (text : String) : String :=
  String.ofList ('\x60' :: uriBody text.toList ++ ['\x60'])

/-! ## What may stand between quotes -/

/-- The letters that may follow a backslash in a quoted text. -/
def escapeLetters : List Char := ['b', 'f', 'n', 'r', 't', 'v', 'a', '"', '\\', '$']

/-- Whether a text starts with `u` and four hexadecimal digits. -/
def startsUnicodeEscape : List Char → Bool
  | u :: a :: b :: c :: d :: _ =>
      (u == 'u' || u == 'U') && isHexDigit a && isHexDigit b && isHexDigit c && isHexDigit d
  | _ => false

/-- The length of the character or escape at the front of a text, if a quoted text may hold it. -/
def stringUnit? : List Char → Option Nat
  | [] => none
  | c :: rest =>
      if c = '\\' then
        match rest with
        | [] => none
        | letter :: _ =>
            if letter ∈ escapeLetters then some 2
            else if startsUnicodeEscape rest then some 6
            else none
      else if c = '"' || isControl c then none
      else some 1

/-- The length of the character or escape at the front of a text, if a URI may hold it. A backslash
takes whatever follows it. -/
def uriUnit? : List Char → Option Nat
  | [] => none
  | c :: rest =>
      if c = '\\' then
        if startsUnicodeEscape rest then some 6
        else if rest.isEmpty then none
        else some 2
      else if c = '\x60' || isControl c then none
      else some 1

/-- How many characters the units at the front of a text take; `skip` characters of it belong to the
unit before. -/
def unitsLength (unit? : List Char → Option Nat) (skip : Nat) : List Char → Nat
  | [] => 0
  | c :: rest =>
      match skip with
      | skip + 1 => unitsLength unit? skip rest + 1
      | 0 => match unit? (c :: rest) with
        | none => 0
        | some size => unitsLength unit? (size - 1) rest + 1

/-! ## What it means -/

/-- The value of hexadecimal digits, a plus sign before them being allowed. -/
def hexValue? (digits : List Char) : Option Nat :=
  let digits := if digits.head? == some '+' then digits.drop 1 else digits
  if digits.isEmpty then none
  else digits.foldlM (fun total c => (Text.Hex.digitValue? c).map (16 * total + ·)) 0

/-- The character with a number, if it is one of Unicode. -/
def charOfNumber? (n : Nat) : Option Char :=
  if n.isValidChar then some (Char.ofNat n) else none

/-- The character that up to four digits after `\u` stand for. -/
def unicodeChar (digits : List Char) : Except Unreadable Char :=
  match hexValue? digits with
  | none => .error (.wrongEscape (String.ofList ('u' :: digits)))
  | some n => match charOfNumber? n with
    | none => .error (.notACharacter (String.ofList digits))
    | some c => .ok c

/-- What a letter after a backslash stands for in a quoted text. -/
def escapedChar? (letter : Char) : Option Char :=
  if letter = 'b' then some '\x08'
  else if letter = 'f' then some '\x0c'
  else if letter = 'n' then some '\n'
  else if letter = 'r' then some '\r'
  else if letter = 't' then some '\t'
  else if letter = 'v' then some '\x0b'
  else if letter = 'a' then some '\x07'
  else if letter = '"' ∨ letter = '\\' ∨ letter = '$' then some letter
  else none

/-- The meaning of a letter after a backslash. In a URI only the backquote and the backslash are
escaped; other letters keep their backslash. -/
def escapeMeaning (uri : Bool) (letter : Char) : Except Unreadable (List Char) :=
  if uri then
    if letter = '\x60' ∨ letter = '\\' then .ok [letter] else .ok ['\\', letter]
  else match escapedChar? letter with
    | some c => .ok [c]
    | none => .error (.wrongEscape (String.ofList [letter]))

/-- Resolve the escapes of a body; `skip` characters of it belong to the escape before. -/
def unescapeFrom (uri : Bool) (skip : Nat) : List Char → Except Unreadable (List Char)
  | [] => .ok []
  | c :: rest =>
      match skip with
      | skip + 1 => unescapeFrom uri skip rest
      | 0 =>
          if c = '\\' then
            match rest with
            | [] => .error .danglingBackslash
            | letter :: after =>
                if letter = 'u' ∨ letter = 'U' then do
                  let c ← unicodeChar (after.take 4)
                  let others ← unescapeFrom uri 5 rest
                  pure (c :: others)
                else do
                  let meaning ← escapeMeaning uri letter
                  let others ← unescapeFrom uri 1 rest
                  pure (meaning ++ others)
          else do
            let others ← unescapeFrom uri 0 rest
            pure (c :: others)

/-- Resolve the escapes of the body of a quoted text, or of a URI. -/
def unescape (uri : Bool) (body : List Char) : Except Unreadable (List Char) :=
  unescapeFrom uri 0 body

end Haystack.Zinc
