import Haystack.Zinc.Writer

/-!
Values as the cells of a spreadsheet: lighter than in the Zinc encoding where spreadsheets have a
form of their own, and in Zinc notation otherwise. A text that would be read as something else is
quoted.
-/
namespace Haystack.Csv

def checkMark : String := "\u2713"

/-- A name after `@`, which is not checked, and after a space a display name. -/
def referenceOf (text : List Char) : Ref :=
  match Text.cutFirst? (· == ' ') text with
  | some (name, display) => ⟨String.ofList name, some (String.ofList display)⟩
  | none => ⟨String.ofList text, none⟩

/-- The value of a cell; an empty cell has none. -/
def readCell? (text : String) : Option Value :=
  if text.isEmpty then none
  else if text = checkMark then some .marker
  else if text = "true" then some (.bool true)
  else if text = "false" then some (.bool false)
  else match text.toList with
    | '@' :: rest => some (.ref (referenceOf rest))
    | _ => match Zinc.readValue text .three with
      | .ok value => some value
      | .error _ => some (.str text)

/-- The value of a cell, an empty one being a null. What the version cannot hold is refused. -/
def readValue (text : String) (version : Version) : Except Error Value := do
  let value := (readCell? text).getD .null
  value.ensureFits version
  pure value

/-- Whether a text would be read as something else. -/
def isAmbiguous (text : String) : Bool :=
  match readCell? text with
  | none => true
  | some value => !value.same (.str text)

def referenceText (r : Ref) : String :=
  match r.display with
  | some display => "@" ++ r.name ++ " " ++ display
  | none => "@" ++ r.name

/-- The cell of a value. Moments lose the names of their zones. -/
def writeValue (value : Value) (version : Version) : Except Error String :=
  match value with
  | .marker => .ok checkMark
  | .bool b => .ok (if b then "true" else "false")
  | .str s => .ok (if isAmbiguous s then Zinc.quote s else s)
  | .ref r => .ok (referenceText r)
  | .dateTime d => .ok (d.rfc3339 false)
  | other => Zinc.writeValue other version

end Haystack.Csv
