import Haystack.Proofs.Filter.Cache
import Haystack.Proofs.Value.RowsById

/-!
Filters on grids whose rows stand in another order.

A condition looks at other rows through their ids only. Where ids are distinct, an id leads to the
same row wherever that stands, so a row is kept in one order exactly when it is kept in another.
-/
namespace Haystack

namespace GridOf

variable {g h : Grid}

theorem follow_of_perm (distinct : DistinctIds g.rows) (reordered : h.rows.Perm g.rows)
    (entity : Entity) (name : String) : h.follow entity name = g.follow entity name := by
  unfold follow
  split
  · next id _ => exact (rowNamed?_of_perm distinct reordered.symm id.name).symm
  · rfl
  · rfl

/-- A path of any length leads to the same value, by induction on its tags. -/
theorem resolveNames_of_perm (distinct : DistinctIds g.rows) (reordered : h.rows.Perm g.rows)
    (entity : Entity) (names : List String) : h.resolveNames entity names = g.resolveNames entity names := by
  induction names generalizing entity with
  | nil => rfl
  | cons name rest ih => cases rest with
    | nil => rfl
    | cons second further =>
        change (h.follow entity name).bind _ = (g.follow entity name).bind _
        rw [follow_of_perm distinct reordered]
        exact congrArg _ (funext ih)

end GridOf

open GridOf

variable {g h : Grid}

theorem Condition.holds_of_perm (distinct : DistinctIds g.rows) (reordered : h.rows.Perm g.rows)
    (condition : Condition) (row : Entity) : condition.holds h row = condition.holds g row := by
  have resolve (path : Path) : h.resolve row path = g.resolve row path :=
    resolveNames_of_perm distinct reordered row path.segments
  induction condition with
  | has path => exact congrArg Option.isSome (resolve path)
  | missing path => exact congrArg Option.isNone (resolve path)
  | compare sign path literal => rw [holds, holds, resolve]
  | and left right leftSame rightSame => rw [holds, holds, leftSame, rightSame]
  | or left right leftSame rightSame => rw [holds, holds, leftSame, rightSame]

namespace GridOf

theorem perm_sortByTag (grid : Grid) (tag : String) : (grid.sortByTag tag).rows.Perm grid.rows :=
  List.mergeSort_perm ..

/-- Of grids with the same rows, whose ids are distinct, a filter keeps the same rows, each grid's in
its own order; or is refused by both. -/
theorem filter_of_perm (distinct : DistinctIds g.rows) (reordered : h.rows.Perm g.rows)
    (text : String) :
    (∃ refusal, g.filter text none = .error refusal ∧ h.filter text none = .error refusal) ∨
      ∃ keeps : Entity → Bool,
        g.filter text none = .ok (g.withRows (g.rows.filter keeps)) ∧
          h.filter text none = .ok (h.withRows (h.rows.filter keeps)) ∧
          (h.rows.filter keeps).Perm (g.rows.filter keeps) := by
  simp only [FilterCache.filter_eq, limited]
  split
  · refine .inr ⟨fun _ => true, ?_, ?_, reordered.filter _⟩
    · rw [List.filter_true]
    · rw [List.filter_true]
  · cases Condition.read text with
    | error refusal => exact .inl ⟨refusal, rfl, rfl⟩
    | ok condition =>
        have same : condition.holds h = condition.holds g :=
          funext (condition.holds_of_perm distinct reordered)
        refine .inr ⟨condition.holds g, rfl, ?_, reordered.filter _⟩
        rw [← same]
        rfl

/-- Devices and the sites that they refer to. -/
def sites : Grid where
  version := .three
  pinned := true
  metadata := .empty
  columns := .ofList [("id", .empty), ("siteRef", .empty), ("area", .empty)]
  rows := [⟨[("id", .ref ⟨"pump", none⟩), ("siteRef", .ref ⟨"hall", none⟩)]⟩,
    ⟨[("id", .ref ⟨"fan", none⟩), ("siteRef", .ref ⟨"yard", none⟩)]⟩,
    ⟨[("id", .ref ⟨"yard", none⟩)]⟩,
    ⟨[("id", .ref ⟨"hall", none⟩), ("area", .marker)]⟩]

theorem filter_of_perm_sites :
    DistinctIds sites.rows ∧ (sites.sortByTag "id").rows.Perm sites.rows ∧
      ∃ keeps : Entity → Bool,
        sites.filter "siteRef->area" none = .ok (sites.withRows (sites.rows.filter keeps)) ∧
          ((sites.sortByTag "id").rows.filter keeps).Perm (sites.rows.filter keeps) := by
  have distinct : DistinctIds sites.rows := by decide
  have reordered := perm_sortByTag sites "id"
  have accepted : (sites.filter "siteRef->area" none).isOk = true := by decide +kernel
  refine ⟨distinct, reordered, ?_⟩
  rcases filter_of_perm distinct reordered "siteRef->area" with ⟨_, refused, _⟩ | ⟨keeps, kept, _, same⟩
  · rw [refused] at accepted
    contradiction
  · exact ⟨keeps, kept, same⟩

end GridOf

end Haystack
