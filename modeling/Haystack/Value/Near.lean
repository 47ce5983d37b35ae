import Haystack.Value.Basic

/-!
Equality of values, exact and approximate.

Grids are compared without regard to the order of metadata, columns and rows, and with a tolerance
for floating-point numbers: rows with an id against the row with that id, rows without one against
any row without one that no earlier row was paired with.
-/
namespace Haystack

namespace Value

/-- Equality of values that hold no others. References are equal by name, encoded bytes by content,
moments by instant. -/
def sameLeaf : Value → Value → Bool
  | .null, .null => true
  | .marker, .marker => true
  | .na, .na => true
  | .remove, .remove => true
  | .bool a, .bool b => a == b
  | .number a, .number b => a.magnitude.equals b.magnitude && a.unit == b.unit
  | .str a, .str b => a == b
  | .uri a, .uri b => a == b
  | .bin a, .bin b => a == b
  | .xstr a, .xstr b => a.data == b.data
  | .ref a, .ref b => a.name == b.name
  | .date a, .date b => a == b
  | .time a, .time b => a == b
  | .dateTime a, .dateTime b => a.instant == b.instant
  | .coord a, .coord b => a.latitude.equals b.latitude && a.longitude.equals b.longitude
  | _, _ => false

/-- The tags on the right that the left lacks are nulls. -/
def restIsNull (left right : Entity) : Bool :=
  right.items.all fun item => left.contains item.1 || item.2.isNull

mutual

/-- Equality up to the tolerance for numbers, the second of times and the microsecond of moments. -/
def near : Value → Value → Bool
  | .number a, .number b => a.unit == b.unit && a.magnitude.isNear b.magnitude
  | .time a, .time b => a.second == b.second
  | .dateTime a, .dateTime b => a.microseconds == b.microseconds
  | .coord a, .coord b => a.latitude.isNear b.latitude && a.longitude.isNear b.longitude
  | .list a, .list b => nearList a b
  | .dict a, .dict b => nearEntity a b
  | .grid a, .grid b => nearGrid a b
  | a, b => sameLeaf a b
termination_by structural left => left

def nearList : List Value → List Value → Bool
  | [], [] => true
  | a :: as, b :: bs => near a b && nearList as bs
  | _, _ => false
termination_by structural left => left

/-- Tags are compared by key, an absent one being a null. -/
def nearEntity : Entity → Entity → Bool
  | ⟨items⟩, right => nearTags items right && restIsNull ⟨items⟩ right
termination_by structural left => left

def nearTags : List (String × Value) → Entity → Bool
  | [], _ => true
  | (key, value) :: rest, right =>
      near value ((right.get? key).getD .null) && nearTags rest right
termination_by structural left => left

/-- Metadata have the same keys with near values. -/
def nearMetadata : Metadata → Metadata → Bool
  | ⟨items⟩, right => items.length == right.size && nearItems items right
termination_by structural left => left

def nearItems : List (String × Value) → Metadata → Bool
  | [], _ => true
  | (key, value) :: rest, right =>
      (match right.get? key with
        | some other => near value other
        | none => false) && nearItems rest right
termination_by structural left => left

def nearColumns : Columns → Columns → Bool
  | ⟨items⟩, right => items.length == right.size && nearColumnItems items right
termination_by structural left => left

def nearColumnItems : List (String × Metadata) → Columns → Bool
  | [], _ => true
  | (name, metadata) :: rest, right =>
      (match right.get? name with
        | some other => nearMetadata metadata other
        | none => false) && nearColumnItems rest right
termination_by structural left => left

/-- The rows on the left against those on the right, `pending` being the rows without id that are
not paired yet. -/
def nearRows : List Entity → List Entity → List Entity → Bool
  | [], _, _ => true
  | row :: rest, right, pending =>
      match row.id? with
      | some id =>
          (match (GridOf.lastWithId? id.name right).bind (right[·]?) with
            | some other => nearEntity row other
            | none => false) && nearRows rest right pending
      | none =>
          match pending.findIdx? fun other => nearEntity row other with
          | some index => nearRows rest right (pending.eraseIdx index)
          | none => false
termination_by structural left => left

/-- Grids are compared whatever their versions. -/
def nearGrid : Grid → Grid → Bool
  | ⟨_, _, metadata, columns, rows⟩, right =>
      nearMetadata metadata right.metadata && nearColumns columns right.columns &&
        rows.length == right.rows.length &&
        nearRows rows right.rows (right.rows.filter fun row => row.id?.isNone)
termination_by structural left => left

end

mutual

/-- Equality. Containers are equal by their parts, dicts in any order; nested grids are compared
with tolerance. -/
def same : Value → Value → Bool
  | .list a, .list b => sameList a b
  | .dict a, .dict b => sameEntity a b
  | .grid a, .grid b => nearGrid a b
  | a, b => sameLeaf a b
termination_by structural left => left

def sameList : List Value → List Value → Bool
  | [], [] => true
  | a :: as, b :: bs => same a b && sameList as bs
  | _, _ => false
termination_by structural left => left

def sameEntity : Entity → Entity → Bool
  | ⟨items⟩, right => items.length == right.size && sameTags items right
termination_by structural left => left

def sameTags : List (String × Value) → Entity → Bool
  | [], _ => true
  | (key, value) :: rest, right =>
      (match right.get? key with
        | some other => same value other
        | none => false) && sameTags rest right
termination_by structural left => left

end

end Value

namespace Entity

def near (left right : Entity) : Bool := Value.nearEntity left right

end Entity

namespace GridOf

def near (left right : Grid) : Bool := Value.nearGrid left right

end GridOf

end Haystack
