import Haystack.OrderedMap

/-!
JSON documents as trees.
-/
namespace Haystack.Json

inductive Tree where
  | null
  | bool (b : Bool)
  /-- A number that was written without decimals and exponent. -/
  | integer (i : Int)
  | decimal (x : Binary64)
  | string (s : String)
  | array (items : List Tree)
  /-- The members in order; of a repeated name the first place and the last value. -/
  | object (members : OrderedMap Tree)

namespace Tree

instance : Inhabited Tree := ⟨.null⟩

def string? : Tree → Option String
  | .string s => some s
  | _ => none

def array? : Tree → Option (List Tree)
  | .array items => some items
  | _ => none

def object? : Tree → Option (OrderedMap Tree)
  | .object members => some members
  | _ => none

end Tree

end Haystack.Json
