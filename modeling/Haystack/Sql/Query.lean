import Haystack.Filter.Reader
import Haystack.Json.Writer
import Haystack.Sql.Plan

/-!
Queries over a table of stored entities, before they are written down.

The rows of the table that a query looks at are numbered from one: for each select the row that is
selected, and for each step of a path the row that the step leads to. Values are stored as the texts
that the JSON encoding has for them, so that a query compares texts, or what they mean once cast.
-/
namespace Haystack.Sql

/-- A tag of a numbered row. -/
structure Field where
  row : Nat
  tag : String
deriving DecidableEq

/-- What a stored value is compared with for equality. -/
inductive Match where
  | null
  | bool (b : Bool)
  /-- The name of a reference, whatever its display name. -/
  | ref (name : String)
  /-- A stored number, whatever its unit. -/
  | magnitude (stored : String)
  /-- A list, dict or grid as JSON. -/
  | container (json : String)
  | stored (text : String)
deriving DecidableEq

/-- What a stored value can be ordered against. -/
inductive Limit where
  | number (magnitude : Binary64)
  | time (t : TimeOfDay)
  | dateTime (d : DateTime)
  | date (d : Date)
  | str (s : String)
deriving DecidableEq

inductive Test where
  | present (field : Field)
  | absent (field : Field)
  | tags (row : Nat) (junction : Junction) (presence : Presence) (names : List String)
  | equal (holds : Bool) (field : Field) (value : Match)
  | ordered (comparison : Comparison) (field : Field) (limit : Limit)
  | and (left right : Test)
  | or (left right : Test)

/-- A row whose id is the reference that a field of an earlier row holds. -/
structure Join where
  row : Nat
  reference : Field
deriving DecidableEq

structure Select where
  row : Nat
  joins : List Join
  test : Option Test

inductive Query where
  | select (select : Select)
  | intersect (left right : Query)
  | union (left right : Query)

def Query.isCompound : Query → Bool
  | .select _ => false
  | _ => true

/-! ## Literals -/

/-- The text that a value is stored as. -/
def storedText (literal : Value) : Except Error String := do
  match ← Json.treeOf literal .latest with
  | .string text => pure text
  | tree => pure tree.print

def matchOf (literal : Value) : Except Error Match :=
  match literal with
  | .null => .ok .null
  | .bool b => .ok (.bool b)
  | .ref r => .ok (.ref r.name)
  | .number n =>
      let stored := storedText literal
      if n.isQuantity then stored.map .stored else stored.map .magnitude
  | .list _ | .dict _ | .grid _ => (Json.writeValue literal .latest).map .container
  | other => (storedText other).map .stored

/-- What can be ordered in a query: texts, dates, times, moments and finite numbers. -/
def limitOf (comparison : Comparison) (literal : Value) : Except Error Limit :=
  match literal with
  | .number n =>
      if n.magnitude.isFinite then .ok (.number n.magnitude)
      else .error (.misuse (.unboundedInSql literal.display))
  | .time t => .ok (.time t)
  | .dateTime d => .ok (.dateTime d)
  | .date d => .ok (.date d)
  | .str s => .ok (.str s)
  | other => .error (.misuse (.unorderedInSql comparison.symbol other.kind))

def compareField (comparison : Comparison) (field : Field) (literal : Value) :
    Except Error Test :=
  match comparison with
  | .eq => (matchOf literal).map (.equal true field)
  | .ne => (matchOf literal).map (.equal false field)
  | _ => (limitOf comparison literal).map (.ordered comparison field)

/-! ## Rows -/

/-- The rows that the steps of a path lead to, numbered from `next` on. -/
def joinsAlong (row next : Nat) : List String → List Join
  | [] => []
  | tag :: rest => ⟨next, ⟨row, tag⟩⟩ :: joinsAlong next (next + 1) rest

/-- A path from a row, when the numbers up to `used` are taken: the joins, the field at its end, and
the last number taken then. -/
structure Walk where
  joins : List Join
  field : Field
  used : Nat

def walk (row used : Nat) (path : Path) : Walk :=
  let steps := path.segments.dropLast
  { joins := joinsAlong row (used + 1) steps
    field := ⟨if steps.isEmpty then row else used + steps.length, path.segments.getLastD ""⟩
    used := used + steps.length }

/-- A test with the joins that it needs and the last number taken. -/
structure Prepared where
  joins : List Join
  test : Test
  used : Nat

def Walk.prepare (w : Walk) (test : Test) : Prepared := ⟨w.joins, test, w.used⟩

/-- Test a row, when the numbers up to `used` are taken. -/
def prepare (row used : Nat) : RowTest → Except Error Prepared
  | .has path =>
      let walk := walk row used path
      .ok (walk.prepare (.present walk.field))
  | .missing path =>
      let walk := walk row used path
      .ok (walk.prepare (.absent walk.field))
  | .tags junction presence names => .ok ⟨[], .tags row junction presence names, used⟩
  | .compare comparison path literal => do
      let walk := walk row used path
      let test ← compareField comparison walk.field literal
      pure (walk.prepare test)
  | .and left right => do
      let left ← prepare row used left
      let right ← prepare row left.used right
      pure ⟨left.joins ++ right.joins, .and left.test right.test, right.used⟩
  | .or left right => do
      let left ← prepare row used left
      let right ← prepare row left.used right
      pure ⟨left.joins ++ right.joins, .or left.test right.test, right.used⟩

/-! ## Queries -/

/-- The query of a plan whose first row has the number `first`, and the last number taken. -/
def queryFrom (first : Nat) : Plan → Except Error (Query × Nat)
  | .rows test => do
      let prepared ← prepare first first test
      pure (.select ⟨first, prepared.joins, some prepared.test⟩, prepared.used)
  | .intersect left right => do
      let (left, used) ← queryFrom first left
      let (right, used) ← queryFrom (used + 1) right
      pure (.intersect left right, used)
  | .union left right => do
      let (left, used) ← queryFrom first left
      let (right, used) ← queryFrom (used + 1) right
      pure (.union left right, used)

/-- All rows. -/
def Query.everything : Query := .select ⟨1, [], none⟩

def Query.ofPlan (plan : Plan) : Except Error Query := (queryFrom 1 plan).map (·.1)

/-- The query of a filter; a blank one selects everything. -/
def Query.ofFilter (text : String) : Except Error Query := do
  let body := Text.trim text.toList
  if body.isEmpty then pure everything
  else
    let filter ← Filter.read (String.ofList body)
    let condition ← filter.condition
    ofPlan (.ofCondition condition)

end Haystack.Sql
