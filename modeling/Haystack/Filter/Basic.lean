import Haystack.Zinc.Writer

/-!
Filters: conditions on the tags of a row, as trees.

A tree may be one that no text denotes, such as a test of something that is not a path;
`Filter.condition` tells which trees are conditions.
-/
namespace Haystack

/-- Tag names, the first to be looked up in a row and each other in what the one before leads to. -/
structure Path where
  segments : List String
deriving DecidableEq

namespace Path

instance : Inhabited Path := ⟨⟨[]⟩⟩

/-- The first tag. -/
def head (path : Path) : String := path.segments.headD ""

def isSimple (path : Path) : Bool := path.segments.length == 1

def text (path : Path) : String := String.intercalate "->" path.segments

end Path

inductive Comparison where
  | eq
  | ne
  | lt
  | le
  | gt
  | ge
deriving DecidableEq

def Comparison.symbol : Comparison → String
  | .eq => "=="
  | .ne => "!="
  | .lt => "<"
  | .le => "<="
  | .gt => ">"
  | .ge => ">="

inductive Filter where
  | path (tags : Path)
  | value (literal : Value)
  | has (operand : Filter)
  | missing (operand : Filter)
  | compare (comparison : Comparison) (left right : Filter)
  | and (left right : Filter)
  | or (left right : Filter)

namespace Filter

instance : Inhabited Filter := ⟨.path default⟩

/-- A literal. Truth values are written out, all else as the newest version writes it. -/
def literalText : Value → String
  | .bool b => if b then "true" else "false"
  | literal => literal.display

/-- A text of the filter, with parentheses around every `and` and `or`. -/
def text : Filter → String
  | .path tags => tags.text
  | .value literal => literalText literal
  | .has operand => operand.text
  | .missing operand => "not " ++ operand.text
  | .compare sign left right => left.text ++ " " ++ sign.symbol ++ " " ++ right.text
  | .and left right => "(" ++ left.text ++ " and " ++ right.text ++ ")"
  | .or left right => "(" ++ left.text ++ " or " ++ right.text ++ ")"

/-- Equality of filters, their literals being compared as values. -/
def same : Filter → Filter → Bool
  | .path a, .path b => a == b
  | .value a, .value b => a.same b
  | .has a, .has b => a.same b
  | .missing a, .missing b => a.same b
  | .compare c a b, .compare d x y => c == d && a.same x && b.same y
  | .and a b, .and x y => a.same x && b.same y
  | .or a b, .or x y => a.same x && b.same y
  | _, _ => false

end Filter

end Haystack
