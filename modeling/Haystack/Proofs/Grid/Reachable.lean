import Haystack.Proofs.Grid.Writing

/-!
What comes of a new grid, or of one that was read, under checked operations.

Its values fit its version, so that every writer takes it, if the grids in it have come about in the
same way. Its version is kept if it is pinned, and is never lowered.
-/
namespace Haystack

namespace GridOf

variable {grid : Grid}

/-- The grids that operations start from: new ones and those that were read. -/
inductive IsOrigin : Grid → Prop where
  | new : IsOrigin .new
  | withVersion (version : Version) : IsOrigin (.withVersion version)
  | zinc {grid : Grid} (text : String) (read : Zinc.readGrid text = .ok grid) : IsOrigin grid
  | zincs {grid : Grid} {grids : List Grid} (text : String) (read : Zinc.readGrids text = .ok grids)
      (member : grid ∈ grids) : IsOrigin grid
  | json {grid : Grid} (text : String) (read : Json.readGrid text = .ok grid) : IsOrigin grid
  | jsons {grid : Grid} {grids : List Grid} (text : String) (read : Json.readGrids text = .ok grids)
      (member : grid ∈ grids) : IsOrigin grid
  | csv {grid : Grid} (text : String) (read : Csv.readGrid text = .ok grid) : IsOrigin grid

/-- A grid that checked operations leave. -/
def IsReachable (grid : Grid) : Prop :=
  ∃ start operations, IsOrigin start ∧
    (∀ operation ∈ operations, IndexedGrid.Operation.IsChecked operation) ∧
    ((IndexedGrid.ofGrid start).run operations).grid = grid

theorem IsOrigin.within (origin : grid.IsOrigin) : grid.Within := by
  cases origin with
  | new => exact fun _ member => nomatch member
  | withVersion version => exact fun _ member => nomatch member
  | zinc text read => exact Zinc.within_of_readGrid read
  | zincs text read member => exact Zinc.within_of_readGrids read member
  | json text read => exact Json.within_of_readGrid read
  | jsons text read member => exact Json.within_of_readGrids read member
  | csv text read => exact Csv.within_of_readGrid read

theorem IsReachable.within (reachable : grid.IsReachable) : grid.Within := by
  obtain ⟨start, operations, origin, checked, rfl⟩ := reachable
  exact (@IndexedGrid.evolves_run (.ofGrid start) operations checked).within origin.within

variable {after : Grid}

theorem Evolves.version_eq (evolves : grid.Evolves after) (pinned : grid.pinned = true) :
    after.version = grid.version := by
  rcases evolves.raises with same | ⟨unpinned, _⟩
  · exact same
  · rw [pinned] at unpinned
    exact nomatch unpinned

theorem Evolves.version_le (evolves : grid.Evolves after) : grid.version ≤ after.version := by
  change (compare grid.version after.version).isLE = true
  rcases evolves.raises with same | ⟨_, below, raised⟩
  · rw [same, Version.compare_self]
    rfl
  · rw [raised, below]
    rfl

end GridOf

namespace IndexedGrid

theorem run_append {g : IndexedGrid} (earlier later : List Operation) :
    g.run (earlier ++ later) = (g.run earlier).run later := List.foldl_append

/-- A grid that has come about by checked operations holds what fits its version, whatever they were,
and between any two moments the version is kept or has moved up. No writer refuses the grid if the
grids in it have come about in the same way. -/
theorem writes_run {start : Grid} (origin : start.IsOrigin) {earlier later : List Operation}
    (checked : ∀ operation ∈ earlier ++ later, operation.IsChecked) :
    let before := ((ofGrid start).run earlier).grid
    let grid := ((ofGrid start).run (earlier ++ later)).grid
    (∀ value ∈ grid.values, value.fits grid.version = true) ∧
    grid.pinned = before.pinned ∧ (before.pinned = true → grid.version = before.version) ∧
    before.version ≤ grid.version ∧
    ((∀ value ∈ grid.values, value.Throughout fun part =>
        ∀ inner, part = .grid inner → inner.IsReachable) →
      (∃ text, Zinc.writeGrid grid = .ok text) ∧ (∃ text, Json.writeGrid grid = .ok text) ∧
        ∃ text, Csv.writeGrid grid = .ok text) := by
  intro before grid
  have within : grid.Within := GridOf.IsReachable.within ⟨start, _, origin, checked, rfl⟩
  have evolves : before.Evolves grid := by
    rw [show grid = ((ofGrid start).run (earlier ++ later)).grid from rfl, run_append]
    exact evolves_run fun operation member => checked operation (List.mem_append_right earlier member)
  refine ⟨within, evolves.pinned, evolves.version_eq, evolves.version_le, fun nested => ?_⟩
  refine GridOf.succeeds_write ⟨.grid grid, ?_, fun value member => ?_⟩
  · rintro _ ⟨⟩
    exact within
  · exact (nested value member).imp fun part reachable inner isGrid => (reachable inner isGrid).within

/-- A new grid whose only row holds a grid: until that is appended the version is 2.0. -/
def siteColumns : List Operation :=
  [.setMeta "dis" (.str "Sites"), .addColumn "id" .empty .last, .addColumn "points" .empty .last]

def siteRows : List Operation :=
  [.append ⟨[("id", .ref ⟨"p1", none⟩), ("points", .grid (.withVersion .three))]⟩, .contains ⟨"p1", none⟩]

def sites : Grid := ((ofGrid .new).run (siteColumns ++ siteRows)).grid

theorem writes_run_sites : (∀ operation ∈ siteColumns ++ siteRows, operation.IsChecked) ∧
    ((ofGrid .new).run siteColumns).grid.version = .two ∧ sites.version = .three ∧
    (∃ text, Zinc.writeGrid sites = .ok text) ∧ (∃ text, Json.writeGrid sites = .ok text) ∧
      ∃ text, Csv.writeGrid sites = .ok text := by
  have checked : ∀ operation ∈ siteColumns ++ siteRows, operation.IsChecked := by
    simp [siteColumns, siteRows, Operation.IsChecked]
  refine ⟨checked, rfl, rfl, (writes_run .new checked).2.2.2.2 fun value member => ?_⟩
  have values : sites.values = [.str "Sites", .ref ⟨"p1", none⟩, .grid (.withVersion .three)] := rfl
  change value ∈ sites.values at member
  simp only [values, List.mem_cons, List.not_mem_nil, or_false] at member
  rcases member with rfl | rfl | rfl
  · exact Value.throughout_of_childless (fun _ isGrid => nomatch isGrid) rfl
  · exact Value.throughout_of_childless (fun _ isGrid => nomatch isGrid) rfl
  · refine Value.throughout_of_childless (fun inner isGrid => ?_) rfl
    obtain rfl := Value.grid.inj isGrid
    exact ⟨.withVersion .three, [], .withVersion .three, (fun _ member => nomatch member), rfl⟩

end IndexedGrid

end Haystack
