/-!
UTF-8: the bytes of a text, and the text of bytes that may not be well formed.
-/
namespace Haystack.Text.Utf8

def encode (text : String) : List UInt8 := text.toUTF8.toList

/-- A text without the byte order mark in front of it. -/
def withoutMark : List Char → List Char
  | '\uFEFF' :: rest => rest
  | text => text

/-- What the front of a byte sequence holds: a character of so many bytes, or so many bytes that
begin a character without completing it, which are all the input has or are followed by a wrong
byte. -/
inductive Front where
  | char (c : Char) (size : Nat)
  | wrong (size : Nat)
  | cut (size : Nat)
deriving DecidableEq

def isContinuation (byte : UInt8) : Bool := 0x80 ≤ byte && byte ≤ 0xBF

/-- The bounds of a second byte, which exclude overlong forms, surrogates and numbers too great. -/
def secondBounds (first : UInt8) : UInt8 × UInt8 :=
  if first = 0xE0 then (0xA0, 0xBF)
  else if first = 0xED then (0x80, 0x9F)
  else if first = 0xF0 then (0x90, 0xBF)
  else if first = 0xF4 then (0x80, 0x8F)
  else (0x80, 0xBF)

/-- The number of bytes a first byte announces, if it can be one. -/
def announced? (first : UInt8) : Option Nat :=
  if first < 0x80 then some 1
  else if 0xC2 ≤ first && first ≤ 0xDF then some 2
  else if 0xE0 ≤ first && first ≤ 0xEF then some 3
  else if 0xF0 ≤ first && first ≤ 0xF4 then some 4
  else none

def payload (byte : UInt8) : Nat := byte.toNat % 64

def front (first : UInt8) (rest : List UInt8) : Front :=
  match announced? first, rest with
  | none, _ => .wrong 1
  | some 1, _ => .char (Char.ofNat first.toNat) 1
  | some _, [] => .cut 1
  | some size, second :: rest =>
      let (low, high) := secondBounds first
      if second < low || high < second then .wrong 1
      else if size = 2 then .char (Char.ofNat (first.toNat % 32 * 64 + payload second)) 2
      else match rest with
        | [] => .cut 2
        | third :: rest =>
            if !isContinuation third then .wrong 2
            else if size = 3 then
              .char (Char.ofNat ((first.toNat % 16 * 64 + payload second) * 64 + payload third)) 3
            else match rest with
              | [] => .cut 3
              | fourth :: _ =>
                  if !isContinuation fourth then .wrong 3
                  else .char (Char.ofNat (((first.toNat % 8 * 64 + payload second) * 64 +
                    payload third) * 64 + payload fourth)) 4

inductive Fault where
  | wrong (size index : Nat)
  | cut (index : Nat)
deriving DecidableEq

def Fault.message : Fault → String
  | .wrong size index =>
      "invalid utf-8 sequence of " ++ Nat.repr size ++ " bytes from index " ++ Nat.repr index
  | .cut index => "incomplete utf-8 byte sequence from index " ++ Nat.repr index

/-- Decoding with a skip count, so that the recursion is on the bytes: `skip` bytes already belong
to the character before. -/
def decodeFrom (index skip : Nat) : List UInt8 → Except Fault (List Char)
  | [] => .ok []
  | byte :: rest =>
      match skip with
      | skip + 1 => decodeFrom (index + 1) skip rest
      | 0 => match front byte rest with
        | .char c size => (decodeFrom (index + 1) (size - 1) rest).map (c :: ·)
        | .wrong size => .error (.wrong size index)
        | .cut _ => .error (.cut index)

def decode (bytes : List UInt8) : Except Fault String :=
  (decodeFrom 0 0 bytes).map String.ofList

/-- Decoding where each run of bytes that begins a character and does not end it gives U+FFFD. -/
def decodeLossyFrom (skip : Nat) : List UInt8 → List Char
  | [] => []
  | byte :: rest =>
      match skip with
      | skip + 1 => decodeLossyFrom skip rest
      | 0 => match front byte rest with
        | .char c size => c :: decodeLossyFrom (size - 1) rest
        | .wrong size => '\uFFFD' :: decodeLossyFrom (size - 1) rest
        | .cut size => '\uFFFD' :: decodeLossyFrom (size - 1) rest

def decodeLossy (bytes : List UInt8) : String := String.ofList (decodeLossyFrom 0 bytes)

end Haystack.Text.Utf8
