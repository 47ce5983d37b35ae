import Haystack.Text.Blank
import Haystack.Zinc.Literal

/-!
Grids in the Zinc encoding: a line with the version and the metadata, a line of columns, and a line
for each row.

A grid may also stand inside `<<` and `>>` as a value, so the phrases for values and for grids lean
on each other; each nesting takes characters, and the length of a text bounds its depth.
-/
namespace Haystack.Zinc

open Phrase

/-- The column that is written for a grid without columns. -/
def emptyColumn : String := "empty"

/-! ## What the lines say -/

/-- A column with the offset where it stands. -/
structure DraftColumn where
  offset : Nat
  name : String
  metadata : List (String × Reading Value)

/-- A row with the offset where it starts; a cell may be empty. -/
structure DraftRow where
  offset : Nat
  cells : List (Option (Reading Value))

/-- What the lines of a grid say, before it is known whether a grid can be made of them. -/
structure Draft where
  version : Reading String
  metadata : List (String × Reading Value)
  columns : List DraftColumn
  rows : List DraftRow

/-- Run a change whose refusal is not blamed on a place. -/
def edited (grid : Grid) (edit : Edit Unit) : Reading Grid :=
  match edit.apply grid with
  | (.ok _, grid) => .ok grid
  | (.error error, _) => .error (.overall error)

/-- How the refusal of a column reads where the column stands. -/
def columnRefusal (offset : Nat) : Error → Refusal
  | .duplicateKey key => .at offset (.duplicateKey key)
  | .featureGate feature version => .at offset (.gateClosed feature version)
  | other => .overall other

def addColumns (grid : Grid) : List DraftColumn → Reading Grid
  | [] => .ok grid
  | column :: rest => do
      let metadata ← readTags column.metadata
      match (GridOf.addColumn column.name (.ofList metadata)).apply grid with
      | (.ok _, grid) => addColumns grid rest
      | (.error error, _) => .error (columnRefusal column.offset error)

/-- The tags of a row: a cell that is empty or null gives none, and a cell without a column is
refused. -/
def readCells (offset limit : Nat) (row : Entity) :
    List String → List (Option (Reading Value)) → Reading Entity
  | _, [] => .ok row
  | [], _ :: _ => .error (.at offset (.tooManyCells limit))
  | _ :: names, none :: cells => readCells offset limit row names cells
  | name :: names, some reading :: cells => do
      let value ← reading
      readCells offset limit (if value.isNull then row else row.insert name value) names cells

/-- A line with nothing on it is no row. -/
def DraftRow.isBlank (row : DraftRow) : Bool :=
  match row.cells with
  | [none] => true
  | _ => false

def addRows (names : List String) (grid : Grid) : List DraftRow → Reading Grid
  | [] => .ok grid
  | row :: rest =>
      if row.isBlank then addRows names grid rest
      else do
        let entity ← readCells row.offset names.length .empty names row.cells
        let grid ← edited grid (GridOf.append entity)
        addRows names grid rest

/-- The column that stands for none is dropped if nothing is said of it. -/
def dropEmptyColumn (grid : Grid) : Grid :=
  match grid.columns.items with
  | [(name, metadata)] =>
      if name == emptyColumn && metadata.isEmpty && !grid.rows.any (·.contains emptyColumn) then
        grid.removeColumn emptyColumn
      else grid
  | _ => grid

/-- The grid of the lines, or the first thing that is wrong with them. -/
def Draft.grid (draft : Draft) : Reading Grid := do
  let text ← draft.version
  let version ← (Version.read text).mapError .overall
  let metadata ← readTags draft.metadata
  let grid ← edited (.withVersion version) (GridOf.setMetadata (.ofList metadata))
  let grid ← addColumns grid draft.columns
  let grid ← addRows (draft.columns.map (·.name)) grid draft.rows
  pure (dropEmptyColumn grid)

/-! ## Phrases -/

section Lines

variable (value : Phrase (Reading Value))

/-- Tags, each after spaces. -/
def spacedTags : Phrase (List (String × Reading Value)) := many do
  spaces1
  tag value

def header : Phrase (Reading String × List (String × Reading Value)) := named do
  let version ← named do
    word "ver:"
    quoted
  let metadata ← spacedTags value
  spaces
  pure (version, metadata)

def column : Phrase DraftColumn := named do
  let offset ← here
  let name ← tagName
  let metadata ← spacedTags value
  pure ⟨offset, name, metadata⟩

/-- Phrases with spaces around them and commas between. -/
def separated {α : Type} (item : Phrase α) : Phrase (List α) := named do
  spaces
  let first ← item
  spaces
  let others ← many do
    let _ ← char ','
    spaces
    let next ← item
    spaces
    pure next
  pure (first :: others)

def row : Phrase DraftRow := do
  let offset ← here
  let cells ← separated (named (Phrase.optional value))
  pure ⟨offset, cells⟩

/-- Neither the end of the text nor that of a grid inside another. -/
def moreRows : Phrase Unit := fun c =>
  match c.rest with
  | [] => ⟨c.offset, none⟩
  | '>' :: '>' :: _ => ⟨0, none⟩
  | _ => ⟨0, some ((), c)⟩

/-- The end of the text or of a grid inside another. -/
def endOfRows : Phrase Unit := ahead (word ">>") <|> ahead endOfText

def rows : Phrase (List DraftRow) := named do
  let lines ← many do
    moreRows
    let line ← row value
    newline
    pure line
  let last ← Phrase.optional do
    moreRows
    let line ← row value
    endOfRows
    pure line
  pure (lines ++ last.toList)

def draft : Phrase Draft := named do
  let (version, metadata) ← header value
  newline
  let columns ← separated (column value)
  newline <|> endOfRows
  let rows ← rows value
  pure ⟨version, metadata, columns, rows⟩

/-- A grid as a value. -/
def innerGrid (dialect : Version) : Phrase (Reading Value) := named do
  let offset ← here
  word "<<"
  spaces
  let _ ← Phrase.optional newline
  let draft ← draft value
  word ">>"
  pure do
    requireThree dialect offset "Grid"
    let grid ← draft.grid
    pure (.grid grid)

/-- Any value, given the phrase for the values inside it. -/
def valueAround (dialect : Version) : Phrase (Reading Value) :=
  reference <|> (do let text ← quoted; pure (text.map .str)) <|> uri <|> bin <|> coordinate <|>
    encoded <|> dateTime <|> date <|> time <|> number <|> notAvailable dialect <|>
    (do let v ← singleton "N" .null; pure (.ok v)) <|>
    (do let v ← singleton "M" .marker; pure (.ok v)) <|>
    (do let v ← singleton "R" .remove; pure (.ok v)) <|>
    (do
      let v ← token ((do keyword "T"; pure (.bool true)) <|> (do keyword "F"; pure (.bool false)))
      pure (.ok v)) <|>
    list dialect value <|> dict dialect value <|> innerGrid value dialect

end Lines

/-- Any value whose parts are nested less than `depth` deep. -/
def valueWithin (dialect : Version) : Nat → Phrase (Reading Value)
  | 0 => never
  | depth + 1 => valueAround (valueWithin dialect depth) dialect

/-- Any value. No more values can be nested in a text than it has characters. -/
def value (dialect : Version) : Phrase (Reading Value) := fun c =>
  valueWithin dialect (c.rest.length + 1) c

def grid (dialect : Version) : Phrase (Reading Grid) := named do
  let lines ← draft (value dialect)
  pure lines.grid

/-! ## Whole texts -/

/-- The error of a text that is refused at an offset. -/
def syntaxErrorAt (text : List Char) (offset : Nat) : Error :=
  (Refusal.at offset .syntaxError).error text

/-- What a text means if it is one phrase. -/
def readWhole {α : Type} (phrase : Phrase (Reading α)) (text : List Char) : Except Error α :=
  match phrase.readAll text with
  | .error offset => .error (syntaxErrorAt text offset)
  | .ok (.error refusal) => .error (refusal.error text)
  | .ok (.ok a) => .ok a

/-- One value, in the dialect nearest to a version. -/
def readValue (text : String) (version : Version) : Except Error Value :=
  readWhole (value version.nearest) text.toList

/-- The version that a text starts with, as it is written there. -/
def headerVersion? (text : List Char) : Option String :=
  match text with
  | 'v' :: 'e' :: 'r' :: ':' :: '"' :: rest =>
      (Text.cutFirst? (· == '"') rest).map fun (version, _) => String.ofList version
  | _ => none

/-- One grid. Its version picks the dialect. -/
def readGridChars (text : List Char) : Except Error Grid :=
  match headerVersion? text with
  | none => .error (.unreadable .noVersionHeader (some ⟨1, 1⟩) none)
  | some header => do
      let version ← Version.read header
      readWhole (grid version.nearest) text

def readGrid (text : String) : Except Error Grid := readGridChars text.toList

/-! ## Several grids -/

/-- The rest of a text after a line feed, with a carriage return before it. -/
def afterNewline? : List Char → Option (List Char)
  | '\n' :: rest => some rest
  | '\r' :: '\n' :: rest => some rest
  | _ => none

/-- Whether a text is blank up to its next line feed, and what follows that. -/
def afterBlankLine? (text : List Char) : Option (List Char) :=
  afterNewline? (text.dropWhile isSpace)

/-- The text after all blank lines at its front. -/
def afterBlankLines (text : List Char) : Nat → List Char
  | 0 => text
  | limit + 1 => match afterBlankLine? text with
    | some rest => afterBlankLines rest limit
    | none => text

/-- Where grids are parted: at the end of a line with blank lines after it. The rest after those. -/
def separator? (text : List Char) : Option (List Char) := do
  let rest ← afterNewline? text
  let rest ← afterBlankLine? rest
  some (afterBlankLines rest rest.length)

/-- The parts of a text between separators. A separator takes characters, so the length of the text
bounds the work. -/
def chunksWithin (chunk : List Char) (text : List Char) : Nat → List (List Char)
  | 0 => [chunk.reverse ++ text]
  | limit + 1 => match separator? text with
    | some rest => chunk.reverse :: chunksWithin [] rest limit
    | none => match text with
      | [] => [chunk.reverse]
      | c :: rest => chunksWithin (c :: chunk) rest limit

def chunks (text : List Char) : List (List Char) := chunksWithin [] text (text.length + 1)

/-- Grids separated by blank lines. -/
def readGrids (text : String) : Except Error (List Grid) :=
  ((chunks text.toList).filter fun chunk => !Text.isAllBlank chunk).mapM fun chunk =>
    readGridChars (chunk.dropWhile fun c => c == '\r' || c == '\n')

end Haystack.Zinc
