import Haystack.Calendar.ZoneNames
import Haystack.Calendar.ZoneOffsets
import Haystack.Text.Pieces
import Haystack.Error

/-!
Time zones, known by the last segment of their names.
-/
namespace Haystack

/-- How many seconds clocks are ahead of UTC: at first, and from each of some instants on. -/
structure Clocks where
  first : Int
  changes : List (Int × Int)

namespace Clocks

/-- The offset in force at an instant: that of the last change not after it. -/
def offsetAt (clocks : Clocks) (instant : Int) : Int :=
  clocks.changes.foldl (fun offset change => if change.1 ≤ instant then change.2 else offset)
    clocks.first

/-- The local time that clocks show at an instant, as the seconds that a clock set to UTC would
count. -/
def localAt (clocks : Clocks) (instant : Int) : Int := instant + clocks.offsetAt instant

/-- The instants at which clocks show a local time, in seconds. -/
def instantsOf (clocks : Clocks) (localSeconds : Int) : List Int :=
  let offsets := (clocks.first :: clocks.changes.map (·.2)).eraseDups
  (offsets.map (localSeconds - ·)).filter fun instant => clocks.localAt instant == localSeconds

/-- The first instant at which clocks show a local time; none where they skip it. -/
def earliest? (clocks : Clocks) (localSeconds : Int) : Option Int :=
  (clocks.instantsOf localSeconds).min?

end Clocks

/-- A zone of the time zone database, by its full name. -/
structure Zone where
  name : String
deriving DecidableEq

namespace Zone

def utc : Zone := ⟨"UTC"⟩

instance : Inhabited Zone := ⟨utc⟩

def segments (name : String) : List (List Char) := Text.pieces (· == '/') name.toList

/-- The segment after the last slash of a name. -/
def lastSegment (name : String) : String :=
  String.ofList ((segments name).getLast?.getD [])

/-- The city, or whatever else ends the name: what the format writes for a zone. -/
def shortName (zone : Zone) : String := lastSegment zone.name

/-- The zones whose names have so many slashes. -/
def atDepth (depth : Nat) : List String :=
  zoneNames.filter fun name => (segments name).length == depth + 1

/-- The zones in the order in which they take a short name: those with the fewest segments first. -/
def byDepth : List String := atDepth 0 ++ atDepth 1 ++ atDepth 2

/-- The zone that a short name stands for. -/
def ofShortName? (name : String) : Option Zone :=
  (byDepth.find? fun full => lastSegment full == name).map .mk

def ofFullName? (name : String) : Option Zone :=
  if zoneNames.contains name then some ⟨name⟩ else none

/-- A zone by its short name, or else by its full one. -/
def named (name : String) : Except Error Zone :=
  ((ofShortName? name).or (ofFullName? name)).elim (.error (.invalidValue (.zone name))) .ok

/-- The zone that a fixed offset in seconds is written in: whole hours have zones of their own,
whose names count hours west of Greenwich; all else is UTC. -/
def ofOffset (seconds : Int) : Zone :=
  if seconds % 3600 ≠ 0 then utc
  else
    let hours := -(seconds / 3600)
    let name := "Etc/GMT" ++ (if 0 < hours then "+" else "-") ++ Nat.repr hours.natAbs
    if hours = 0 then utc else (ofFullName? name).getD utc

/-! ## Offsets -/

/-- The hours west of Greenwich that the name of a zone counts. -/
def hoursWest? (name : String) : Option Int :=
  match name.toList with
  | 'E' :: 't' :: 'c' :: '/' :: 'G' :: 'M' :: 'T' :: sign :: digits =>
      if digits.isEmpty || !digits.all Char.isDigit then none
      else
        let hours : Int := digits.foldl (fun total c => 10 * total + (c.toNat - '0'.toNat)) 0
        if sign = '+' then some hours else if sign = '-' then some (-hours) else none
  | _ => none

/-- The clocks of a zone, with the offsets that are recorded of it. Zones without a record keep to
UTC. -/
def clocks (zone : Zone) : Clocks :=
  match hoursWest? zone.name with
  | some hours => ⟨-3600 * hours, []⟩
  | none => match zoneOffsets.lookup zone.name with
    | some (first, changes) => ⟨first, changes⟩
    | none => ⟨0, []⟩

/-- How many seconds the clocks of a zone are ahead of UTC at an instant. -/
def offsetAt (zone : Zone) (instant : Int) : Int := zone.clocks.offsetAt instant

end Zone

end Haystack
