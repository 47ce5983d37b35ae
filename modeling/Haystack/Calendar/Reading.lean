import Haystack.Calendar.DateTime

/-!
Dates and times from their ISO text, whose shape is already known: the separators stand where they
should and all else is ASCII digits.
-/
namespace Haystack

open Decimal (naturalOf)

/-- `YYYY-MM-DD`, whether or not there is such a day. -/
def dateFields (text : List Char) : Date :=
  ⟨naturalOf (text.take 4), naturalOf ((text.drop 5).take 2), naturalOf ((text.drop 8).take 2)⟩

def Date.read (text : List Char) : Except ClockFault Date :=
  let date := dateFields text
  if date.isValid then .ok date else .error .outOfRange

/-- Nanoseconds from the digits after the point; those beyond the ninth are ignored. -/
def nanosecondsOf (digits : List Char) : Nat :=
  naturalOf ((digits ++ List.replicate 9 '0').take 9)

/-- The fields of `HH:MM`, `HH:MM:SS` or `HH:MM:SS.fraction`. -/
structure ClockFields where
  hour : Nat
  minute : Nat
  second : Option Nat
  nanosecond : Nat

def clockFields (text : List Char) : ClockFields where
  hour := naturalOf (text.take 2)
  minute := naturalOf ((text.drop 3).take 2)
  second := if text.length ≤ 5 then none else some (naturalOf ((text.drop 6).take 2))
  nanosecond := nanosecondsOf (text.drop 9)

/-- The time that fields name, a sixtieth second being a leap second. -/
def ClockFields.time? (fields : ClockFields) : Option TimeOfDay :=
  let second := fields.second.getD 0
  if 23 < fields.hour ∨ 59 < fields.minute ∨ 60 < second then none
  else
    let start := fields.hour * 3600 + fields.minute * 60
    if second = 60 then some ⟨start + 59, TimeOfDay.nanosPerSecond + fields.nanosecond⟩
    else some ⟨start + second, fields.nanosecond⟩

/-- A text with seconds is also tried without them: where its hour and minute are right, what is
wrong is that it goes on. -/
def ClockFields.fault (fields : ClockFields) : ClockFault :=
  if 23 < fields.hour ∨ 59 < fields.minute then .outOfRange
  else if fields.second.isSome then .trailing
  else .outOfRange

def TimeOfDay.read (text : List Char) : Except ClockFault TimeOfDay :=
  let fields := clockFields text
  match fields.time? with
  | some time => .ok time
  | none => .error fields.fault

/-- `YYYY-MM-DDTHH:MM` and perhaps seconds. -/
def LocalTime.read (text : List Char) : Except ClockFault LocalTime :=
  let date := dateFields (text.take 10)
  let fields := clockFields (text.drop 11)
  match date.isValid, fields.time? with
  | true, some time => .ok ⟨date, time⟩
  | _, _ =>
      if date.month = 0 ∨ 12 < date.month ∨ date.day = 0 ∨ 31 < date.day then .error .outOfRange
      else .error fields.fault

/-- An offset in seconds from `±HH:MM`; a day or more is no offset. -/
def offsetOf? (text : List Char) : Option Int :=
  let hours := naturalOf ((text.drop 1).take 2)
  let minutes := naturalOf ((text.drop 4).take 2)
  let seconds : Int := hours * 3600 + minutes * 60
  if seconds < 86400 then some (if text.head? == some '-' then -seconds else seconds) else none

/-- A local time and the text of its offset, if it has one: `Z` or `±HH:MM`. -/
def splitOffset (text : List Char) : List Char × Option (List Char) :=
  match text.getLast? with
  | some 'Z' | some 'z' => (text.dropLast, some [])
  | _ =>
      let tail := text.drop (text.length - 6)
      match tail with
      | '+' :: _ | '-' :: _ => (text.take (text.length - 6), some tail)
      | _ => (text, none)

/-- The moment of an ISO text and a zone. With an offset the instant is fixed and the zone shows it,
by default the zone of the offset; without one the text is what the clocks of the zone show. -/
def DateTime.read (text : List Char) (zone : Option Zone) : Except Unreadable DateTime :=
  let (body, offset) := splitOffset text
  match LocalTime.read body with
  | .error fault => .error (.dateTime (String.ofList text) fault)
  | .ok clock =>
      match offset with
      | some digits =>
          match (if digits.isEmpty then some 0 else offsetOf? digits) with
          | none => .error (.offset (String.ofList text))
          | some seconds =>
              .ok ⟨⟨clock.seconds - seconds, clock.time.nanosecond⟩,
                zone.getD (.ofOffset seconds)⟩
      | none =>
          match zone with
          | none => .ok ⟨⟨clock.seconds, clock.time.nanosecond⟩, .utc⟩
          | some zone =>
              match ofLocal? clock zone with
              | some moment => .ok moment
              | none => .error (.skippedTime (String.ofList text) zone.name)

end Haystack
