import Haystack.Json.Tree
import Haystack.Phrase

/-!
Numbers in JSON texts.

The digits of a number are taken as one whole number of sixty-four bits, as many as fit, and that is
scaled once by a power of ten. Both steps round, so a long decimal may end one unit in the last
place away from the nearest number.
-/
namespace Haystack.Json

open Phrase

/-- The greatest whole number that digits are collected in. -/
def digitLimit : Nat := Nat.pow 2 64 - 1

/-- Digits put behind a number while they fit, with the count of those that did. -/
def collect (total : Nat) : List Char → Nat × Nat
  | [] => (total, 0)
  | c :: rest =>
      let next := 10 * total + Decimal.digitValue c
      if digitLimit < next then (total, 0)
      else
        let collected := collect next rest
        (collected.1, collected.2 + 1)

/-- Divide by great powers of ten until one division is left; `fuel` bounds their number. -/
def shrink (x : Binary64) (exponent : Nat) : Nat → Binary64
  | 0 => x
  | fuel + 1 =>
      if exponent ≤ 308 then x.quotient (.nearest false (Nat.pow 10 exponent) 1)
      else if x.equals (.zero false) then x
      else shrink (x.quotient (.nearest false (Nat.pow 10 308) 1)) (exponent - 308) fuel

/-- A whole number scaled by a power of ten; none beyond the greatest finite number. Two divisions
by `10 ^ 308` leave nothing of a number of sixty-four bits. -/
def scale? (significand : Nat) (exponent : Int) : Option Binary64 :=
  let x := Binary64.nearest false significand 1
  if 0 ≤ exponent then
    if exponent ≤ 308 then
      let scaled := x.product (.nearest false (Nat.pow 10 exponent.toNat) 1)
      if scaled.isFinite then some scaled else none
    else if significand = 0 then some x else none
  else some (shrink x exponent.natAbs 4)

/-- The greatest exponent that is read as a number. -/
def exponentLimit : Nat := Nat.pow 2 31 - 1

/-- The parts of a number: its sign, the digits before and after the point, and its exponent with
its sign. -/
structure Numeral where
  negative : Bool
  whole : List Char
  fraction : Option (List Char)
  exponent : Option (Bool × List Char)

/-- Bring an exponent back into the range of words of thirty-two bits. -/
def clampExponent (exponent : Int) : Int :=
  max (-(exponentLimit : Int) - 1) (min exponentLimit exponent)

/-- The magnitude of a number with decimals or an exponent, or of one too long for a whole number.
`unfitted` digits before the point did not fit and count as zeros. -/
def Numeral.magnitude? (numeral : Numeral) (collected unfitted : Nat) : Option Binary64 :=
  let fraction := collect collected (numeral.fraction.getD [])
  let start : Int := (unfitted : Int) - fraction.2
  match numeral.exponent with
  | none => scale? fraction.1 start
  | some (below, digits) =>
      let exponent := Decimal.naturalOf digits
      if exponentLimit < exponent then
        if fraction.1 = 0 ∨ below then some (.zero false) else none
      else scale? fraction.1 (clampExponent (if below then start - exponent else start + exponent))

/-- The value of a number, unless it is beyond the greatest finite one. -/
def Numeral.tree? (numeral : Numeral) : Option Tree :=
  let collected := collect 0 numeral.whole
  let unfitted := numeral.whole.length - collected.2
  let signed := fun x : Binary64 => Tree.decimal (if numeral.negative then x.negate else x)
  if unfitted = 0 ∧ numeral.fraction.isNone ∧ numeral.exponent.isNone then
    if !numeral.negative then some (.integer collected.1)
    else if collected.1 = 0 ∨ Nat.pow 2 63 < collected.1 then
      some (signed (.nearest false collected.1 1))
    else some (.integer (-(collected.1 : Int)))
  else (numeral.magnitude? collected.1 unfitted).map signed

/-- The digits before the point: a single zero, or digits that do not start with one. -/
def wholeDigits : Phrase (List Char) :=
  (do
    let _ ← char '0'
    notAhead Char.isDigit
    pure ['0']) <|>
  (do
    notAhead (· == '0')
    run1 Char.isDigit)

def numeral : Phrase Numeral := do
  let sign ← Phrase.optional (char '-')
  let whole ← wholeDigits
  let point ← Phrase.optional (char '.')
  let fraction ← match point with
    | none => pure none
    | some _ => do
        let digits ← run1 Char.isDigit
        pure (some digits)
  let mark ← Phrase.optional (satisfying fun c => c == 'e' || c == 'E')
  let exponent ← match mark with
    | none => pure none
    | some _ => do
        let sign ← Phrase.optional (satisfying fun c => c == '+' || c == '-')
        let digits ← run1 Char.isDigit
        pure (some (sign == some '-', digits))
  pure ⟨sign.isSome, whole, fraction, exponent⟩

def number : Phrase Tree := do
  let parts ← numeral
  match parts.tree? with
  | some tree => pure tree
  | none => never

end Haystack.Json
