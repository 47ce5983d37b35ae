import Haystack.Decimal.Shortest

/-!
Numbers with a fixed count of decimal places.
-/
namespace Haystack.Decimal

open Haystack

/-- A whole number of units `10 ^ -places`, written with that many places. -/
def fixedText (units places : Nat) : String :=
  let digits := Nat.toDigits 10 units
  let padded := List.replicate (places + 1 - digits.length) '0' ++ digits
  String.ofList (padded.take (padded.length - places) ++
    (if places = 0 then [] else '.' :: padded.drop (padded.length - places)))

/-- The exact value rounded to `places` decimals, a half going to the even digit. The sign stays on
a number that rounds to zero. -/
def writeFixed (places : Nat) : Binary64 → String
  | .finite negative significand exponent _ =>
      let magnitude := Binary64.ratio significand exponent
      (if negative then "-" else "") ++
        fixedText (roundHalfEven (magnitude.1 * Nat.pow 10 places) magnitude.2) places
  | other => write plain other

end Haystack.Decimal
