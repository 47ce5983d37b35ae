import Haystack.Filter.Basic
import Haystack.Grid.Basic
import Haystack.Value.Order

/-!
Conditions: the filters that rows can be tested with, and what they mean.

A path follows references to rows of the same grid, and goes into dicts. Where a step of it is
missing, the path leads nowhere, and no comparison with a value holds.
-/
namespace Haystack

inductive Condition where
  | has (path : Path)
  | missing (path : Path)
  | compare (comparison : Comparison) (path : Path) (value : Value)
  | and (left right : Condition)
  | or (left right : Condition)

namespace Condition

instance : Inhabited Condition := ⟨.has default⟩

/-- The filter that says the same. -/
def filter : Condition → Filter
  | .has path => .has (.path path)
  | .missing path => .missing (.path path)
  | .compare comparison path value => .compare comparison (.path path) (.value value)
  | .and left right => .and left.filter right.filter
  | .or left right => .or left.filter right.filter

end Condition

namespace Filter

/-- The path that a test needs as its operand. -/
def tested (test : String) (make : Path → Condition) : Filter → Except Error Condition
  | .path tags => .ok (make tags)
  | operand => .error (.misuse (.notAPath test operand.text))

/-- What a filter tests. A path by itself has to lead somewhere. -/
def condition : Filter → Except Error Condition
  | .path tags => .ok (.has tags)
  | .value literal => .error (.misuse (.notACondition literal.display))
  | .has operand => tested "Has" .has operand
  | .missing operand => tested "Not" .missing operand
  | .and left right => do
      let left ← left.condition
      let right ← right.condition
      pure (.and left right)
  | .or left right => do
      let left ← left.condition
      let right ← right.condition
      pure (.or left right)
  | .compare comparison left right =>
      match left, right with
      | .path tags, .value literal => .ok (.compare comparison tags literal)
      | left, right => .error (.misuse (.incomparable left.text right.text))

end Filter

/-! ## Paths -/

namespace GridOf

/-- The entity that a tag of an entity leads to: the row that its reference names, or its dict. -/
def follow (grid : Grid) (entity : Entity) (name : String) : Option Entity :=
  match entity.get? name with
  | some (.ref id) => grid.rowOf? id
  | some (.dict tags) => some tags
  | _ => none

def resolveNames (grid : Grid) (entity : Entity) : List String → Option Value
  | [] => none
  | [name] => (entity.get? name).filter (!·.isNull)
  | name :: rest => (grid.follow entity name).bind fun next => resolveNames grid next rest

/-- The value that a path leads to from a row; nulls are nowhere. -/
def resolve (grid : Grid) (row : Entity) (path : Path) : Option Value :=
  resolveNames grid row path.segments

end GridOf

/-! ## Meaning -/

namespace Comparison

/-- Whether a comparison holds between a value and a literal that is not null. -/
def holds (comparison : Comparison) (found literal : Value) : Bool :=
  match comparison with
  | .eq => found.filterEquals literal
  | .ne => !found.filterEquals literal
  | .lt => found.filterCompare? literal == some .lt
  | .le => found.filterCompare? literal == some .lt || found.filterCompare? literal == some .eq
  | .gt => found.filterCompare? literal == some .gt
  | .ge => found.filterCompare? literal == some .gt || found.filterCompare? literal == some .eq

/-- Whether a comparison with null holds, given whether there is a value: equality tests that there
is none. -/
def holdsOfNull (comparison : Comparison) (isFound : Bool) : Bool :=
  match comparison with
  | .eq => !isFound
  | .ne => isFound
  | _ => false

end Comparison

namespace Condition

/-- Whether a condition holds of a row of a grid. -/
def holds (grid : Grid) (row : Entity) : Condition → Bool
  | .has path => (grid.resolve row path).isSome
  | .missing path => (grid.resolve row path).isNone
  | .compare comparison path literal =>
      if literal.isNull then comparison.holdsOfNull (grid.resolve row path).isSome
      else (grid.resolve row path).any (comparison.holds · literal)
  | .and left right => left.holds grid row && right.holds grid row
  | .or left right => left.holds grid row || right.holds grid row

end Condition

end Haystack
