import Haystack.Binary64

/-!
The decimal text of a number: the fewest digits that read back to it, written positionally.

Among decimals with that many digits the nearest is taken, and of two equally near ones the greater.
-/
namespace Haystack.Decimal

open Haystack

/-- How many decimal digits a number has; `0` has one. -/
def digitCount (n : Nat) : Nat := (Nat.toDigits 10 n).length

/-- The place of the point: the least `p` with `numerator / denominator < 10 ^ p`. -/
def pointOf (numerator denominator : Nat) : Int :=
  if denominator ≤ numerator then digitCount (numerator / denominator)
  else
    let places := digitCount (denominator / numerator)
    if denominator ≤ numerator * Nat.pow 10 (places - 1) then 2 - (places : Int)
    else 1 - (places : Int)

/-- The reals that round to a stored number, in quarters of its unit in the last place. -/
structure Neighbourhood where
  lower : Nat
  centre : Nat
  upper : Nat
  closed : Bool

/-- The next lower number is half as far away at a power of two. The ends belong to the
neighbourhood of an even significand. -/
def neighbourhood (significand : Nat) (exponent : Int) : Neighbourhood where
  lower := if significand = Nat.pow 2 52 ∧ exponent ≠ -1074 then 4 * significand - 1
    else 4 * significand - 2
  centre := 4 * significand
  upper := 4 * significand + 2
  closed := significand % 2 = 0

/-- Whether `lower < x < upper`, or `≤` for closed ends, with all three in the same unit. -/
def Neighbourhood.holds (n : Neighbourhood) (scale x : Nat) : Bool :=
  if n.closed then n.lower * scale ≤ x && x ≤ n.upper * scale
  else n.lower * scale < x && x < n.upper * scale

/-- The multiple of `10 ^ power` next to a number that reads back to it, if one does. Both
neighbours are tried; of two that read back, the nearer is taken, and the greater of equally near
ones. -/
def candidate? (n : Neighbourhood) (exponent power : Int) : Option Nat :=
  let step := Nat.pow 10 power.toNat * Nat.pow 2 (2 - exponent).toNat
  let scale := Nat.pow 2 (exponent - 2).toNat * Nat.pow 10 (-power).toNat
  let below := n.centre * scale / step
  let above := below + 1
  match n.holds scale (below * step), n.holds scale (above * step) with
  | true, true =>
      if n.centre * scale - below * step < above * step - n.centre * scale then some below
      else some above
  | true, false => some below
  | false, true => some above
  | false, false => none

/-- The first decimal that reads back, trying more digits each time; `fuel` bounds their number. -/
def search (n : Neighbourhood) (exponent power : Int) : Nat → Nat × Int
  | 0 => (n.centre * Nat.pow 2 (exponent - 2).toNat / Nat.pow 2 (2 - exponent).toNat, 0)
  | fuel + 1 =>
      match candidate? n exponent power with
      | some coefficient => (coefficient, power)
      | none => search n exponent (power - 1) fuel

/-- The shortest decimal `coefficient * 10 ^ power` of a positive stored number. Seventeen digits
always suffice. -/
def shortest (significand : Nat) (exponent : Int) : Nat × Int :=
  let magnitude := Binary64.ratio significand exponent
  search (neighbourhood significand exponent) exponent (pointOf magnitude.1 magnitude.2 - 1) 17

/-- `coefficient * 10 ^ power` without an exponent: a point only before a digit that is not the last
zero, and a zero before a leading point. -/
def positional (coefficient : Nat) (power : Int) : String :=
  let digits := Nat.toDigits 10 coefficient
  if 0 ≤ power then String.ofList (digits ++ List.replicate power.toNat '0')
  else
    let places := (-power).toNat
    let padded := List.replicate (places + 1 - digits.length) '0' ++ digits
    let whole := padded.take (padded.length - places)
    let fraction := (padded.drop (padded.length - places)).reverse.dropWhile (· == '0')
    if fraction.isEmpty then String.ofList whole
    else String.ofList (whole ++ '.' :: fraction.reverse)

/-- The digits of a finite magnitude. -/
def magnitudeText (significand : Nat) (exponent : Int) : String :=
  if significand = 0 then "0"
  else
    let decimal := shortest significand exponent
    positional decimal.1 decimal.2

/-- The spellings of what is not a finite number. -/
structure Spelling where
  nan : String
  infinity : String

/-- The spelling of plain floating-point text. -/
def plain : Spelling := ⟨"NaN", "inf"⟩

/-- The text of a number, a minus sign before it if it is negative, zero included. -/
def write (spelling : Spelling) : Binary64 → String
  | .nan => spelling.nan
  | .infinity negative => (if negative then "-" else "") ++ spelling.infinity
  | .finite negative significand exponent _ =>
      (if negative then "-" else "") ++ magnitudeText significand exponent

end Haystack.Decimal
