import Haystack.Sql.Piece
import Haystack.Sql.Query

/-!
Statements over a table of stored entities, in the dialects of PostgreSQL and SQLite.

The table holds a row for every entity, customer and span of time in which the entity was as stored;
the present state of an entity has the end of time as its end.
-/
namespace Haystack.Sql

open Script

inductive Dialect where
  /-- Entities are stored in a binary JSON column. -/
  | postgres
  /-- Entities are stored as JSON text. -/
  | sqlite
deriving DecidableEq

/-- Where and as of when entities are looked up. -/
structure Source where
  dialect : Dialect := .postgres
  table : String
  customer : String
  /-- In seconds since the start of 1970. -/
  instant : Int

namespace Source

variable (source : Source)

def instantText : String := DateTime.rfc3339 ⟨⟨source.instant, 0⟩, .utc⟩ false

/-- The row was stored as it is at the instant asked for. -/
def validity (row : Nat) : Script :=
  match source.dialect with
  | .postgres =>
      quoted source.instantText ++ code " BETWEEN " ++ [.row row] ++ code ".start_datetime AND " ++
        [.row row] ++ code ".end_datetime\n"
  | .sqlite =>
      code "datetime(" ++ quoted source.instantText ++ code ") BETWEEN datetime(" ++ [.row row] ++
        code ".start_datetime) AND datetime(" ++ [.row row] ++ code ".end_datetime)\n"

/-- The row belongs to the customer. -/
def ownership (row : Nat) : Script :=
  code "AND " ++ [.row row] ++ code ".customer_id=" ++ quoted source.customer ++ code "\n"

end Source

/-! ## Stored values -/

namespace Dialect

/-- The stored text of a tag. -/
def value (dialect : Dialect) (field : Field) : Script :=
  match dialect with
  | .postgres => [.row field.row] ++ code ".entity->>" ++ tag field.tag
  | .sqlite =>
      code "json_extract(" ++ [.row field.row] ++ code ".entity," ++ tag ("$." ++ field.tag) ++
        code ")"

/-- The text up to the first space: the name of a reference, the magnitude of a number, the instant
of a moment. -/
def firstWord (dialect : Dialect) (script : Script) : Script :=
  match dialect with
  | .postgres => code "split_part(" ++ script ++ code "," ++ quoted " " ++ code ",1)"
  | .sqlite =>
      code "substr(" ++ script ++ code "||" ++ quoted " " ++ code ",1,instr(" ++ script ++
        code "||" ++ quoted " " ++ code "," ++ quoted " " ++ code ")-1)"

/-- The stored text without the letter and colon that tell its kind. -/
def payload (dialect : Dialect) (field : Field) : Script :=
  match dialect with
  | .postgres => code "SUBSTRING(" ++ dialect.value field ++ code ",3)"
  | .sqlite => code "substr(" ++ dialect.value field ++ code ",3)"

/-- An expression for values of the kind with a letter, and nothing for others. -/
def ofKind (dialect : Dialect) (letter : String) (field : Field) (script : Script) : Script :=
  code "CASE WHEN " ++ dialect.value field ++ code " LIKE " ++ quoted (letter ++ ":%") ++
    code " THEN " ++ script ++ code " END"

/-! ## Tests -/

def present (dialect : Dialect) (field : Field) : Script :=
  match dialect with
  | .postgres => [.row field.row] ++ code ".entity ? " ++ tag field.tag
  | .sqlite => dialect.value field ++ code " IS NOT NULL"

def absent (dialect : Dialect) (field : Field) : Script :=
  match dialect with
  | .postgres => code "NOT " ++ [.row field.row] ++ code ".entity ? " ++ tag field.tag
  | .sqlite => dialect.value field ++ code " IS NULL"

/-- The operator for tags of an array. That none is there is that not any is, and that some are
missing is that not all are there. -/
def arrayOperator : Junction → Presence → String × String
  | .all, .present => ("", "?&")
  | .any, .present => ("", "?|")
  | .all, .absent => ("NOT ", "?|")
  | .any, .absent => ("NOT ", "?&")

def tags (dialect : Dialect) (row : Nat) (junction : Junction) (presence : Presence)
    (names : List String) : Script :=
  match dialect with
  | .postgres =>
      let (negation, operator) := arrayOperator junction presence
      code negation ++ [.row row] ++ code (".entity " ++ operator ++ " array[") ++
        separated "," (names.map tag) ++ code "]"
  | .sqlite =>
      let single (name : String) : Script :=
        match presence with
        | .present => dialect.present ⟨row, name⟩
        | .absent => dialect.absent ⟨row, name⟩
      let connective := match junction with
        | .all => " AND "
        | .any => " OR "
      code "(" ++ separated connective (names.map single) ++ code ")"

def equalitySign (holds : Bool) : String := if holds then " = " else " != "

def equal (dialect : Dialect) (holds : Bool) (field : Field) (value : Match) : Script :=
  let found := dialect.value field
  let sign := code (equalitySign holds)
  match value with
  | .null => found ++ code (if holds then " IS NULL" else " IS NOT NULL")
  | .ref name => dialect.firstWord found ++ sign ++ quoted ("r:" ++ name)
  | .bool b =>
      match dialect with
      | .postgres => found ++ sign ++ quoted (if b then "true" else "false")
      | .sqlite => found ++ sign ++ code (if b then "1" else "0")
  | .magnitude stored =>
      code (if holds then "(" else "NOT (") ++ found ++ code " = " ++ quoted stored ++
        code " OR " ++ found ++ code " LIKE " ++ quoted (stored ++ " %") ++ code ")"
  | .container json =>
      match dialect with
      | .postgres =>
          [.row field.row] ++ code ".entity->" ++ tag field.tag ++ sign ++ quoted json ++
            code "::jsonb"
      | .sqlite => found ++ sign ++ quoted json
  | .stored text => found ++ sign ++ quoted text

def ordered (dialect : Dialect) (comparison : Comparison) (field : Field) (limit : Limit) :
    Script :=
  let payload := dialect.payload field
  let sign := code (" " ++ comparison.symbol ++ " ")
  match dialect, limit with
  | .postgres, .number x =>
      dialect.ofKind "n" field (dialect.firstWord payload ++ code "::float") ++ sign ++
        code (Decimal.write Decimal.plain x)
  | .sqlite, .number x =>
      dialect.ofKind "n" field (code "CAST(" ++ dialect.firstWord payload ++ code " AS REAL)") ++
        sign ++ code (Decimal.write Decimal.plain x)
  | .postgres, .time t =>
      dialect.ofKind "h" field (payload ++ code "::TIME") ++ sign ++ code "TIME " ++ quoted t.text
  | .sqlite, .time t =>
      dialect.ofKind "h" field (code "time(" ++ payload ++ code ")") ++ sign ++ code "time(" ++
        quoted t.text ++ code ")"
  | .postgres, .dateTime d =>
      dialect.ofKind "t" field (dialect.firstWord payload ++ code "::TIMESTAMPTZ") ++ sign ++
        code "TIMESTAMPTZ " ++ quoted (d.rfc3339 false)
  | .sqlite, .dateTime d =>
      dialect.ofKind "t" field (code "datetime(" ++ dialect.firstWord payload ++ code ")") ++
        sign ++ code "datetime(" ++ quoted (d.rfc3339 false) ++ code ")"
  | .postgres, .date d =>
      dialect.ofKind "d" field (payload ++ code "::DATE") ++ sign ++ code "DATE " ++ quoted d.text
  | .sqlite, .date d =>
      dialect.ofKind "d" field (code "date(" ++ payload ++ code ")") ++ sign ++ code "date(" ++
        quoted d.text ++ code ")"
  | _, .str s => dialect.ofKind "s" field (dialect.value field) ++ sign ++ quoted ("s:" ++ s)

def test (dialect : Dialect) : Test → Script
  | .present field => dialect.present field
  | .absent field => dialect.absent field
  | .tags row junction presence names => dialect.tags row junction presence names
  | .equal holds field value => dialect.equal holds field value
  | .ordered comparison field limit => dialect.ordered comparison field limit
  | .and left right =>
      code "(" ++ dialect.test left ++ code ")\nAND (" ++ dialect.test right ++ code ")"
  | .or left right =>
      code "(" ++ dialect.test left ++ code ")\nOR (" ++ dialect.test right ++ code ")"

end Dialect

/-! ## Statements -/

namespace Source

variable (source : Source)

/-- A row of the table whose id is the reference in a field. -/
def join (join : Join) : Script :=
  code ("INNER JOIN " ++ source.table ++ " AS ") ++ [.newRow join.row] ++ code " ON\n" ++
    source.validity join.row ++ source.ownership join.row ++ code "AND " ++
    source.dialect.firstWord (source.dialect.value join.reference) ++ code " = " ++
    source.dialect.firstWord (source.dialect.value ⟨join.row, "id"⟩) ++ code "\n"

def select (select : Select) : Script :=
  code "SELECT " ++ [.row select.row] ++ code (".entity\nFROM " ++ source.table ++ " as ") ++
    [.newRow select.row] ++ code "\n" ++ select.joins.flatMap source.join ++ code "WHERE\n" ++
    source.validity select.row ++ source.ownership select.row ++
    match select.test with
    | some test => code "AND " ++ source.dialect.test test ++ code "\n"
    | none => []

/-- A side of an intersection or union. SQLite takes no parentheses around a plain select. -/
def side (query : Query) (script : Script) : Script :=
  match source.dialect with
  | .postgres => code "(\n" ++ script ++ code ")\n"
  | .sqlite =>
      if query.isCompound then code "SELECT entity FROM (\n" ++ script ++ code ")\n" else script

def query : Query → Script
  | .select select => source.select select
  | .intersect left right =>
      source.side left (query left) ++ code "INTERSECT\n" ++ source.side right (query right)
  | .union left right =>
      source.side left (query left) ++ code "UNION\n" ++ source.side right (query right)

/-- The line of a statement that shows its filter. -/
def remark (filter : String) : String :=
  "-- " ++ String.ofList (filter.toList.map fun c => if c = '\r' ∨ c = '\n' then ' ' else c) ++ "\n"

def limitClause : Option Nat → Script
  | some (count + 1) => code ("LIMIT " ++ Nat.repr (count + 1) ++ "\n")
  | _ => []

/-- The statement that selects the entities that a filter keeps. A limit of zero is none. -/
def statement (filter : String) (limit : Option Nat) : Except Error String := do
  let query ← Query.ofFilter filter
  pure (remark filter ++ (source.query query ++ limitClause limit).text)

end Source

/-- The statement that creates the table. -/
def createTable (dialect : Dialect) (table : String) : String :=
  "CREATE TABLE IF NOT EXISTS " ++ table ++ "\n(\n" ++
    match dialect with
    | .postgres =>
        "id text,\ncustomer_id text NOT NULL,\n" ++
        "start_datetime timestamp WITH TIME ZONE NOT NULL,\n" ++
        "end_datetime timestamp WITH TIME ZONE NOT NULL,\nentity jsonb NOT NULL\n);\n"
    | .sqlite =>
        "id TEXT,\ncustomer_id TEXT NOT NULL,\nstart_datetime TEXT NOT NULL,\n" ++
        "end_datetime TEXT NOT NULL,\nentity JSON NOT NULL\n);\n"

end Haystack.Sql
