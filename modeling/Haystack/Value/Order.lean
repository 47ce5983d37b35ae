import Haystack.Value.Near

/-!
Values as filters compare them, and as rows are sorted.
-/
namespace Haystack.Value

/-- Equality in filters: a number without a unit equals a quantity of the same magnitude. -/
def filterEquals : Value → Value → Bool
  | .number a, .number b => a.isCompatible b && a.magnitude.equals b.magnitude
  | a, b => same a b

/-- Order in filters: only values of one kind, and numbers of compatible units, are ordered. -/
def filterCompare? : Value → Value → Option Ordering
  | .number a, .number b => if a.isCompatible b then a.magnitude.compare? b.magnitude else none
  | .bool a, .bool b => some (compare a b)
  | .str a, .str b => some (compare a b)
  | .uri a, .uri b => some (compare a b)
  | .ref a, .ref b => some (compare a.name b.name)
  | .date a, .date b => some (compare a b)
  | .time a, .time b => some (compare a b)
  | .dateTime a, .dateTime b => some (compare a.instant b.instant)
  | _, _ => none

/-- The place of a kind among the kinds when rows are sorted. -/
def kindRank : Value → Nat
  | .null => 0
  | .marker => 1
  | .na => 2
  | .remove => 3
  | .bool _ => 4
  | .number _ => 5
  | .str _ => 6
  | .uri _ => 7
  | .bin _ => 8
  | .xstr _ => 9
  | .ref _ => 10
  | .date _ => 11
  | .time _ => 12
  | .dateTime _ => 13
  | .coord _ => 14
  | .list _ => 15
  | .dict _ => 16
  | .grid _ => 17

/-- Order when rows are sorted: as in filters, else by kind. -/
def sortCompare (a b : Value) : Ordering :=
  (filterCompare? a b).getD (compare a.kindRank b.kindRank)

end Haystack.Value
