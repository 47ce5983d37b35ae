import Haystack.Filter.Condition

/-!
How a condition is divided into selects.

One select can test the tags of a row, and follow the path of a single test; each further path needs
a select of its own, and the selects are intersected or united. Tests of single tags that are joined
alike become one test of several tags.
-/
namespace Haystack.Sql

/-- Whether a tag is there. -/
inductive Presence where
  | present
  | absent
deriving DecidableEq

/-- How many of several tests have to hold. -/
inductive Junction where
  | all
  | any
deriving DecidableEq

/-- What one select tests of a row. -/
inductive RowTest where
  | has (path : Path)
  | missing (path : Path)
  | tags (junction : Junction) (presence : Presence) (names : List String)
  | compare (comparison : Comparison) (path : Path) (literal : Value)
  | and (left right : RowTest)
  | or (left right : RowTest)

/-- The selects that a condition takes. -/
inductive Plan where
  | rows (test : RowTest)
  | intersect (left right : Plan)
  | union (left right : Plan)

namespace RowTest

/-- Tests of single tags, joined by `junction`: whether they are to be there, and their names. -/
def tagTests? (junction : Junction) : RowTest → Option (Presence × List String)
  | .has path => if path.isSimple then some (.present, [path.head]) else none
  | .missing path => if path.isSimple then some (.absent, [path.head]) else none
  | .tags own presence names => if own = junction then some (presence, names) else none
  | _ => none

/-- One test for two that are joined, if both are tests of single tags and of one kind. -/
def merge? (junction : Junction) (left right : RowTest) : Option RowTest :=
  match left.tagTests? junction, right.tagTests? junction with
  | some (presence, names), some (other, more) =>
      if presence = other then some (.tags junction presence (names ++ more)) else none
  | _, _ => none

/-- Whether the test is one of a path of several tags. -/
def followsPath : RowTest → Bool
  | .has path | .missing path | .compare _ path _ => !path.isSimple
  | _ => false

def join : Junction → RowTest → RowTest → RowTest
  | .all, left, right => .and left right
  | .any, left, right => .or left right

end RowTest

namespace Plan

def combine : Junction → Plan → Plan → Plan
  | .all, left, right => .intersect left right
  | .any, left, right => .union left right

/-- Join two plans: in one select if they need no more than that. -/
def join (junction : Junction) (left right : Plan) : Plan :=
  match left, right with
  | .rows a, .rows b =>
      match a.merge? junction b with
      | some merged => .rows merged
      | none =>
          if a.followsPath || b.followsPath then combine junction left right
          else .rows (a.join junction b)
  | _, _ => combine junction left right

def ofCondition : Condition → Plan
  | .has path => .rows (.has path)
  | .missing path => .rows (.missing path)
  | .compare comparison path literal => .rows (.compare comparison path literal)
  | .and left right => join .all (ofCondition left) (ofCondition right)
  | .or left right => join .any (ofCondition left) (ofCondition right)

end Plan

end Haystack.Sql
