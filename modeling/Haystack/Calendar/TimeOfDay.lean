import Haystack.Calendar.Date

/-!
Times of the day, to the nanosecond.
-/
namespace Haystack

/-- Seconds since midnight and nanoseconds. A leap second is the second before it with a billion
nanoseconds and more. -/
structure TimeOfDay where
  second : Nat
  nanosecond : Nat
deriving DecidableEq, Ord

namespace TimeOfDay

def midnight : TimeOfDay := ⟨0, 0⟩

instance : Inhabited TimeOfDay := ⟨midnight⟩

def secondsPerDay : Nat := 86400

def nanosPerSecond : Nat := 1000000000

/-- A fraction of a second with three, six or nine digits, as few as show it whole. -/
def fractionText (nanosecond : Nat) : String :=
  if nanosecond = 0 then ""
  else if nanosecond % 1000000 = 0 then "." ++ padded 3 (nanosecond / 1000000)
  else if nanosecond % 1000 = 0 then "." ++ padded 6 (nanosecond / 1000)
  else "." ++ padded 9 nanosecond

/-- Hours, minutes, seconds and the fraction; a leap second is written as the sixtieth. -/
def text (time : TimeOfDay) : String :=
  padded 2 (time.second / 3600) ++ ":" ++ padded 2 (time.second / 60 % 60) ++ ":" ++
    padded 2 (time.second % 60 + time.nanosecond / nanosPerSecond) ++
    fractionText (time.nanosecond % nanosPerSecond)

end TimeOfDay

end Haystack
