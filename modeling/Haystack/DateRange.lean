import Haystack.Zinc.Document

/-!
Spans of time as requests name them: a day, a moment and all that follows it, or two of these with a
comma between, each of which may be left out. Days start when the clocks of a zone say so.
-/
namespace Haystack

/-- From a moment up to and without another; where one is missing, the span is open. -/
structure DateRange where
  start : Option DateTime
  stop : Option DateTime
deriving DecidableEq

namespace DateRange

section Clocks

variable (clocks : Clocks)

/-- The first moment of a day in a zone. Where clocks skip midnight there is none. -/
def startOf (day : Date) (zone : Zone) : Except Error DateTime :=
  match DateTime.ofLocalBy? clocks ⟨day, .midnight⟩ zone with
  | some moment => .ok moment
  | none => .error (.invalidValue (.noMidnight day.text zone.name))

/-- What a bound names; nothing for an empty text. -/
def bound? (text : List Char) (today : Date) : Except Error (Option Value) :=
  let word := Text.trim text
  if word.isEmpty then .ok none
  else if word = "today".toList then .ok (some (.date today))
  else if word = "yesterday".toList then .ok (some (.date (.ofDayNumber (today.dayNumber - 1))))
  else (Zinc.readValue (String.ofList word) .latest).map some

/-- The start of a span with a bound. -/
def startAt (refusal : Error) (zone : Zone) : Option Value → Except Error (Option DateTime)
  | none => .ok none
  | some (.date day) => (startOf clocks day zone).map some
  | some (.dateTime moment) => .ok (some { moment with zone })
  | some _ => .error refusal

/-- The end of a span with a bound: that of the day, if it is one. -/
def stopAt (refusal : Error) (zone : Zone) : Option Value → Except Error (Option DateTime)
  | none => .ok none
  | some (.date day) => (startOf clocks day.next zone).map some
  | some (.dateTime moment) => .ok (some { moment with zone })
  | some _ => .error refusal

/-- The span that a single bound names. -/
def ofBound (refusal : Error) (zone : Zone) (bound : Option Value) : Except Error DateRange :=
  match bound with
  | some (.date day) => do
      let start ← startOf clocks day zone
      let stop ← startOf clocks day.next zone
      pure ⟨some start, some stop⟩
  | some (.dateTime moment) => .ok ⟨some { moment with zone }, none⟩
  | _ => .error refusal

/-- The span that a text names in a zone with these clocks, on a given day. -/
def readBy (text : String) (zone : Zone) (today : Date) : Except Error DateRange := do
  let body := Text.trim text.toList
  let refusal := Error.invalidValue (.dateRange (String.ofList body))
  if body.isEmpty then pure ⟨none, none⟩
  else match Text.cutFirst? (· == ',') body with
    | none =>
        let bound ← bound? body today
        ofBound clocks refusal zone bound
    | some (before, after) =>
        let first ← bound? before today
        let start ← startAt clocks refusal zone first
        let second ← bound? after today
        let stop ← stopAt clocks refusal zone second
        pure ⟨start, stop⟩

end Clocks

/-- The span that a text names in a zone, by what is recorded of its clocks. -/
def read (text : String) (zone : Zone) (today : Date) : Except Error DateRange :=
  readBy zone.clocks text zone today

end DateRange

end Haystack
