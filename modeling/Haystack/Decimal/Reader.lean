import Haystack.Binary64

/-!
Reading decimal text as the nearest number.
-/
namespace Haystack.Decimal

open Haystack

inductive Fault where
  | empty
  | malformed
deriving DecidableEq

def Fault.message : Fault → String
  | .empty => "cannot parse float from empty string"
  | .malformed => "invalid float literal"

def digitValue (c : Char) : Nat := c.toNat - '0'.toNat

def naturalOf (digits : List Char) : Nat :=
  digits.foldl (fun total c => 10 * total + digitValue c) 0

/-- The number nearest to `± coefficient * 10 ^ power`. Powers far outside the format's range are
settled by the count of digits alone. -/
def scaled (negative : Bool) (coefficient : Nat) (power : Int) : Binary64 :=
  if coefficient = 0 then .zero negative
  else
    let point := ((Nat.toDigits 10 coefficient).length : Int) + power
    if 400 < point then .infinity negative
    else if point < -400 then .zero negative
    else .nearest negative (coefficient * Nat.pow 10 power.toNat) (Nat.pow 10 (-power).toNat)

/-- An optional sign in front of a text. -/
def splitSign : List Char → Bool × List Char
  | '-' :: rest => (true, rest)
  | '+' :: rest => (false, rest)
  | rest => (false, rest)

/-- The exponent after the digits: nothing, or `e` with an optional sign and digits. -/
def exponentOf? : List Char → Option Int
  | [] => some 0
  | c :: rest =>
      if c = 'e' ∨ c = 'E' then
        let (negative, digits) := splitSign rest
        if digits.isEmpty || !digits.all Char.isDigit then none
        else some (if negative then -(naturalOf digits : Int) else naturalOf digits)
      else none

/-- Digits with an optional point among them, then an optional exponent. -/
def magnitude? (negative : Bool) (text : List Char) : Option Binary64 :=
  let whole := text.takeWhile Char.isDigit
  let afterWhole := text.dropWhile Char.isDigit
  let (fraction, rest) := match afterWhole with
    | '.' :: tail => (tail.takeWhile Char.isDigit, tail.dropWhile Char.isDigit)
    | _ => ([], afterWhole)
  if whole.isEmpty && fraction.isEmpty then none
  else (exponentOf? rest).map fun exponent =>
    scaled negative (naturalOf (whole ++ fraction)) (exponent - fraction.length)

/-- Decimal text, `inf`, `infinity` or `nan` in any case, with an optional sign. -/
def read (text : List Char) : Except Fault Binary64 :=
  if text.isEmpty then .error .empty
  else
    let (negative, rest) := splitSign text
    let word := rest.map Char.toLower
    if word = ['i', 'n', 'f'] ∨ word = ['i', 'n', 'f', 'i', 'n', 'i', 't', 'y'] then
      .ok (.infinity negative)
    else if word = ['n', 'a', 'n'] then .ok .nan
    else match magnitude? negative rest with
      | some number => .ok number
      | none => .error .malformed

end Haystack.Decimal
