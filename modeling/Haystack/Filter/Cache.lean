import Haystack.Grid.Selection
import Haystack.Recency

/-!
Conditions kept by the texts of their filters, so that a filter in use is read only once.
-/
namespace Haystack

abbrev FilterCache : Type := Recency String Condition

namespace FilterCache

/-- How many filters a cache holds unless it is told otherwise. -/
def defaultCapacity : Nat := 500

instance : Inhabited FilterCache := ⟨Recency.empty defaultCapacity⟩

/-- The condition that a text denotes. A text that denotes none leaves the cache as it is. -/
def condition (text : String) : ExceptT Error (StateM FilterCache) Condition := fun cache =>
  match cache.get? text with
  | (some condition, cache) => (.ok condition, cache)
  | (none, cache) =>
      match Condition.read text with
      | .error refusal => (.error refusal, cache)
      | .ok condition => (.ok condition, (cache.put text condition).2)

/-- The rows of a grid that a filter keeps. -/
def filter (grid : Grid) (text : String) (limit : Option Nat) :
    ExceptT Error (StateM FilterCache) Grid :=
  grid.filterBy text limit condition

end FilterCache

end Haystack
