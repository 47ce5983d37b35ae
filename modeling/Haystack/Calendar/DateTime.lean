import Haystack.Calendar.TimeOfDay
import Haystack.Calendar.Zone

/-!
Instants, and instants as the clocks of a zone show them.
-/
namespace Haystack

/-- Seconds since the start of 1970 in UTC, and nanoseconds. A leap second is the second before it
with a billion nanoseconds and more. -/
structure Instant where
  second : Int
  nanosecond : Nat
deriving DecidableEq, Ord

instance : Inhabited Instant := ⟨⟨0, 0⟩⟩

/-- A day and a time of it, as clocks show them. -/
structure LocalTime where
  date : Date
  time : TimeOfDay
deriving DecidableEq

namespace LocalTime

/-- The seconds that a clock set to UTC would count. -/
def seconds (clock : LocalTime) : Int :=
  clock.date.dayNumber * TimeOfDay.secondsPerDay + clock.time.second

def ofSeconds (seconds : Int) (nanosecond : Nat) : LocalTime :=
  { date := .ofDayNumber (seconds / TimeOfDay.secondsPerDay)
    time := ⟨(seconds % TimeOfDay.secondsPerDay).toNat, nanosecond⟩ }

end LocalTime

structure DateTime where
  instant : Instant
  zone : Zone
deriving DecidableEq

namespace DateTime

instance : Inhabited DateTime := ⟨⟨default, .utc⟩⟩

def offset (moment : DateTime) : Int := moment.zone.offsetAt moment.instant.second

/-- What the clocks of the zone show. -/
def clock (moment : DateTime) : LocalTime :=
  .ofSeconds (moment.instant.second + moment.offset) moment.instant.nanosecond

/-- The instant in microseconds since the start of 1970. -/
def microseconds (moment : DateTime) : Int :=
  moment.instant.second * 1000000 + moment.instant.nanosecond / 1000

/-- The first moment at which the clocks of a zone show a local time. -/
def ofLocalBy? (clocks : Clocks) (clock : LocalTime) (zone : Zone) : Option DateTime :=
  (clocks.earliest? clock.seconds).map fun second => ⟨⟨second, clock.time.nanosecond⟩, zone⟩

/-- The first moment at which clocks show a local time, by what is recorded of their zone. -/
def ofLocal? (clock : LocalTime) (zone : Zone) : Option DateTime := ofLocalBy? zone.clocks clock zone

/-- An offset in hours and minutes, to the nearest minute. -/
def offsetText (offset : Int) : String :=
  let minutes := (offset.natAbs + 30) / 60
  (if offset < 0 then "-" else "+") ++ padded 2 (minutes / 60) ++ ":" ++ padded 2 (minutes % 60)

/-- The date, `T`, the time and the offset; a zero offset is written `Z` if `zulu` is set. -/
def rfc3339 (moment : DateTime) (zulu : Bool) : String :=
  let clock := moment.clock
  clock.date.text ++ "T" ++ clock.time.text ++
    (if zulu && moment.offset == 0 then "Z" else offsetText moment.offset)

end DateTime

end Haystack
