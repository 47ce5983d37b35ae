import Haystack.Text.Utf8

/-!
Comma-separated records.

A field that starts with a double quote runs to the next quote that is not doubled; what follows
that quote up to the comma or the end of the line still belongs to the field.
-/
namespace Haystack.Csv

/-! ## Reading -/

/-- Where the reader stands: at the start of a record or of a field, in a bare field, in a quoted
one, after a quote in one, or after a quote that closed one. -/
inductive Stage where
  | recordStart
  | fieldStart
  | bare
  | quoted
  | afterQuote
deriving DecidableEq

/-- The records read so far, the fields of the current one and the characters of the current field,
all in reverse. -/
structure Progress where
  stage : Stage
  records : List (List String)
  fields : List String
  field : List Char

namespace Progress

def start : Progress := ⟨.recordStart, [], [], []⟩

def push (p : Progress) (stage : Stage) (c : Char) : Progress :=
  { p with stage, field := c :: p.field }

def endField (p : Progress) : Progress :=
  { p with stage := .fieldStart, fields := String.ofList p.field.reverse :: p.fields, field := [] }

def endRecord (p : Progress) : Progress :=
  let p := p.endField
  { p with stage := .recordStart, records := p.fields.reverse :: p.records, fields := [] }

/-- A character outside of quotes. -/
def unquoted (p : Progress) (c : Char) : Progress :=
  if c = ',' then p.endField
  else if c = '\n' ∨ c = '\r' then p.endRecord
  else p.push .bare c

def step (p : Progress) (c : Char) : Progress :=
  match p.stage with
  | .recordStart =>
      if c = '\n' ∨ c = '\r' then p
      else if c = '"' then { p with stage := .quoted }
      else p.unquoted c
  | .fieldStart => if c = '"' then { p with stage := .quoted } else p.unquoted c
  | .bare => p.unquoted c
  | .quoted => if c = '"' then { p with stage := .afterQuote } else p.push .quoted c
  | .afterQuote => if c = '"' then p.push .quoted c else p.unquoted c

/-- The end of the text ends a record that has begun. -/
def finish (p : Progress) : List (List String) :=
  match p.stage with
  | .recordStart => p.records.reverse
  | _ => p.endRecord.records.reverse

end Progress

/-- The records of a text. Empty lines are none, and a byte order mark in front is skipped. -/
def readRecords (text : List Char) : List (List String) :=
  ((Text.Utf8.withoutMark text).foldl Progress.step .start).finish

/-! ## Writing -/

def needsQuotes (field : List Char) : Bool :=
  field.any fun c => c == ',' || c == '"' || c == '\n' || c == '\r'

def quoteField (field : List Char) : List Char :=
  '"' :: (field.flatMap fun c => if c = '"' then ['"', '"'] else [c]) ++ ['"']

def writeField (field : String) : String :=
  if needsQuotes field.toList then String.ofList (quoteField field.toList) else field

/-- One line. A record that would leave it empty is written as a pair of quotes. -/
def writeRecord (fields : List String) : String :=
  let line := String.intercalate "," (fields.map writeField)
  (if fields = [] ∨ fields = [""] then "\"\"" else line) ++ "\n"

end Haystack.Csv
