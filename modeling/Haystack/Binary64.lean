import Haystack.Rounding

/-!
Sixty-four bit binary floating-point numbers as exact data.

A finite number is `± significand * 2 ^ exponent` in the one form the format stores, so that order,
distance and rounding are arithmetic on whole numbers.
-/
namespace Haystack

/-- The significands and exponents of stored finite numbers: fifty-three bits, the first of them set
unless the exponent is the least one. -/
def Binary64.Stored (significand : Nat) (exponent : Int) : Prop :=
  significand < Nat.pow 2 53 ∧ exponent ≤ 971 ∧
    (exponent = -1074 ∨ Nat.pow 2 52 ≤ significand ∧ -1074 < exponent)

instance (significand : Nat) (exponent : Int) :
    Decidable (Binary64.Stored significand exponent) :=
  inferInstanceAs (Decidable (_ ∧ _))

inductive Binary64 where
  | nan
  | infinity (negative : Bool)
  | finite (negative : Bool) (significand : Nat) (exponent : Int)
      (stored : Binary64.Stored significand exponent)
deriving DecidableEq

namespace Binary64

def zero (negative : Bool) : Binary64 :=
  .finite negative 0 (-1074) (by decide)

instance : Inhabited Binary64 := ⟨zero false⟩

def isNaN : Binary64 → Bool
  | .nan => true
  | _ => false

def isFinite : Binary64 → Bool
  | .finite .. => true
  | _ => false

def isNegative : Binary64 → Bool
  | .nan => false
  | .infinity negative => negative
  | .finite negative .. => negative

def negate : Binary64 → Binary64
  | .nan => .nan
  | .infinity negative => .infinity (!negative)
  | .finite negative significand exponent stored => .finite (!negative) significand exponent stored

/-! ## Rounding -/

/-- `numerator / denominator` in units of `2 ^ exponent`, again as a ratio. -/
def inUnits (numerator denominator : Nat) (exponent : Int) : Nat × Nat :=
  (numerator * Nat.pow 2 (-exponent).toNat, denominator * Nat.pow 2 exponent.toNat)

/-- The exponent of the unit in the last place of a positive ratio. -/
def unitExponent (numerator denominator : Nat) : Int :=
  let guess : Int := (numerator.log2 : Int) - denominator.log2 - 52
  let units := inUnits numerator denominator guess
  max (-1074) (if units.1 / units.2 < Nat.pow 2 52 then guess - 1 else guess)

/-- The number with this significand, which may have been rounded up to a power of two. -/
def ofParts (negative : Bool) (significand : Nat) (exponent : Int) : Binary64 :=
  if stored : Stored significand exponent then .finite negative significand exponent stored
  else if stored : Stored (significand / 2) (exponent + 1) then
    .finite negative (significand / 2) (exponent + 1) stored
  else .infinity negative

/-- The number nearest to `± numerator / denominator`; a half goes to the even significand, and what
lies beyond the greatest finite number is infinite. -/
def nearest (negative : Bool) (numerator denominator : Nat) : Binary64 :=
  if numerator = 0 then zero negative
  else
    let exponent := unitExponent numerator denominator
    let units := inUnits numerator denominator exponent
    ofParts negative (roundHalfEven units.1 units.2) exponent

def ofInt (n : Int) : Binary64 := nearest (n < 0) n.natAbs 1

/-- The magnitude of a stored number as a ratio. -/
def ratio (significand : Nat) (exponent : Int) : Nat × Nat :=
  (significand * Nat.pow 2 exponent.toNat, Nat.pow 2 (-exponent).toNat)

/-! ## Order -/

/-- A signed significand in units of `2 ^ unit`, for a `unit` at most its exponent. -/
def signedUnits (negative : Bool) (significand : Nat) (exponent unit : Int) : Int :=
  let magnitude : Int := significand * Nat.pow 2 (exponent - unit).toNat
  if negative then -magnitude else magnitude

/-- The order of two numbers; a NaN is not ordered, and the zeros are equal. -/
def compare? : Binary64 → Binary64 → Option Ordering
  | .nan, _ => none
  | _, .nan => none
  | .infinity a, .infinity b => some (if a = b then .eq else if a then .lt else .gt)
  | .infinity a, .finite .. => some (if a then .lt else .gt)
  | .finite .., .infinity b => some (if b then .gt else .lt)
  | .finite negative significand exponent _, .finite negative' significand' exponent' _ =>
      let unit := min exponent exponent'
      some (compare (signedUnits negative significand exponent unit)
        (signedUnits negative' significand' exponent' unit))

/-- Numeric equality: a NaN differs from itself, and the zeros are equal. -/
def equals (x y : Binary64) : Bool := x.compare? y == some .eq

/-! ## Distance -/

/-- The magnitude of the difference of two finite numbers, rounded. -/
def distance (negative : Bool) (significand : Nat) (exponent : Int)
    (negative' : Bool) (significand' : Nat) (exponent' : Int) : Binary64 :=
  let unit := min exponent exponent'
  let difference := (signedUnits negative significand exponent unit -
    signedUnits negative' significand' exponent' unit).natAbs
  nearest false (difference * Nat.pow 2 unit.toNat) (Nat.pow 2 (-unit).toNat)

/-- Numbers closer than a millionth are taken as equal when grids are compared. -/
def tolerance : Binary64 := nearest false 1 1000000

/-- Equality up to `tolerance`. A NaN is near a NaN, an infinity near itself only. -/
def isNear : Binary64 → Binary64 → Bool
  | .nan, .nan => true
  | .infinity a, .infinity b => a == b
  | .finite negative significand exponent _, .finite negative' significand' exponent' _ =>
      (distance negative significand exponent negative' significand' exponent').compare? tolerance
        == some .lt
  | _, _ => false

/-! ## Product and quotient -/

def product : Binary64 → Binary64 → Binary64
  | .finite negative significand exponent _, .finite negative' significand' exponent' _ =>
      let magnitude := ratio (significand * significand') (exponent + exponent')
      nearest (negative != negative') magnitude.1 magnitude.2
  | .nan, _ => .nan
  | _, .nan => .nan
  | .infinity negative, .infinity negative' => .infinity (negative != negative')
  | .infinity negative, .finite negative' significand ..
  | .finite negative' significand .., .infinity negative =>
      if significand = 0 then .nan else .infinity (negative != negative')

def quotient : Binary64 → Binary64 → Binary64
  | .finite negative significand exponent _, .finite negative' significand' exponent' _ =>
      if significand' = 0 then
        if significand = 0 then .nan else .infinity (negative != negative')
      else
        let magnitude := ratio significand (exponent - exponent')
        nearest (negative != negative') magnitude.1 (magnitude.2 * significand')
  | .nan, _ => .nan
  | _, .nan => .nan
  | .infinity _, .infinity _ => .nan
  | .infinity negative, .finite negative' .. => .infinity (negative != negative')
  | .finite negative .., .infinity negative' => zero (negative != negative')

end Binary64

end Haystack
