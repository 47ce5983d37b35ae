import Haystack.Proofs.Filter.Cache
import Haystack.Proofs.Filter.RoundTrip
import Haystack.Proofs.Grid.Edits
import Haystack.Proofs.Value.RowsById
import Haystack.Provider

/-!
Reading by ids, compared with reading by filters.

Ids are looked up and their rows appended to an empty grid; a filter on an id is read, compiled and
tried on every row. Where ids are distinct, both find the same rows.
-/
namespace Haystack

open GridOf

/-! ## The filter on an id -/

namespace Ref

/-- The text of the filter that keeps the rows with an id. -/
def filterText (id : Ref) : String := "id == @" ++ id.name

/-- The condition on an id, which leaves the display name out. -/
def condition (id : Ref) : Condition := .compare .eq ⟨["id"]⟩ (.ref ⟨id.name, none⟩)

variable {id : Ref}

theorem filterText_eq : id.filterText = id.condition.filter.text := by
  have path : Path.text ⟨["id"]⟩ = "id" := rfl
  change _ = Path.text ⟨["id"]⟩ ++ " " ++ "==" ++ " " ++ ("@" ++ id.name)
  have start : "id == @" = "id" ++ " " ++ "==" ++ " " ++ "@" := rfl
  rw [path, filterText, start, String.append_assoc]

/-- The text denotes the condition, whatever the name. -/
theorem condition_filterText (chars : id.name.toList.all Zinc.isRefChar = true) :
    Condition.read id.filterText = .ok id.condition := by
  have spelled : id.condition.filter.IsSpelled :=
    .compare .eq _ _ ⟨by simp, by decide⟩ (Value.throughout_of_childless chars rfl)
  rw [Condition.read, filterText_eq, Filter.read_text spelled]
  rfl

theorem isAllBlank_filterText : Text.isAllBlank id.filterText.toList = false := by
  rw [filterText, String.toList_append, Text.isAllBlank, List.all_append]
  rfl

/-- The condition holds of the rows that are known by the name of the id. -/
theorem holds_condition (grid : Grid) (row : Entity) :
    id.condition.holds grid row = Entity.hasId id.name row := by
  change ((row.get? "id").filter (!·.isNull)).any (fun found => found.filterEquals (.ref ⟨id.name, none⟩)) = _
  unfold Entity.hasId Entity.id?
  cases row.get? "id" with
  | none => rfl
  | some value => cases value <;> rfl

end Ref

namespace GridOf

variable {grid : Grid} {rows : List Entity} {name : String}

/-- The rows that are known by a name are the one row that it stands for. -/
theorem filter_hasId (distinct : DistinctIds rows) :
    rows.filter (Entity.hasId name) = (rowNamed? name rows).toList := by
  induction rows with
  | nil => rfl
  | cons row rest ih =>
      have distinctRest : DistinctIds rest := (List.sublist_cons_self row rest).filterMap _ |>.nodup distinct
      have middle := @rowNamed?_middle name row [] rest distinct
      rw [List.nil_append, List.nil_append] at middle
      rw [middle]
      by_cases known : row.name? = some name
      · have unknown : name ∉ idNames rest := by
          unfold DistinctIds at distinct
          rw [idNames_cons_known known] at distinct
          exact (List.nodup_cons.mp distinct).1
        rw [if_pos known, List.filter_cons_of_pos (Entity.hasId_iff.mpr known), ih distinctRest,
          rowNamed?_eq_none_iff.mpr unknown]
        rfl
      · rw [if_neg known, List.filter_cons_of_neg (mt Entity.hasId_iff.mp known), ih distinctRest]

/-- What a selection leaves of a grid does not depend on the rows. -/
theorem select_withRows (grid : Grid) (rows : List Entity) (selection : String) :
    (grid.withRows rows).select selection = (grid.select selection).map (·.withRows rows) := by
  unfold select
  simp only
  split
  · rfl
  · split
    · split <;> rfl
    · rfl

end GridOf

namespace GridProvider

variable {server : GridProvider} {request : ReadRequest} {cache : FilterCache}

/-- What is left of a grid when some of the columns, or all, are selected. -/
def selected (grid : Grid) : Option String → Except Error Grid
  | some selection => grid.select selection
  | none => .ok grid

theorem selected_withRows (grid : Grid) (rows : List Entity) (selection : Option String) :
    selected (grid.withRows rows) selection = (selected grid selection).map (·.withRows rows) := by
  cases selection with
  | none => rfl
  | some selection => exact select_withRows grid rows selection

/-- The rows of ids, where these fit the version of their grid. -/
theorem rowsOf_eq {grid : Grid} (ids : List Ref)
    (fits : ∀ row ∈ grid.rows, ∀ value ∈ row.values, value.fits grid.version = true) :
    rowsOf grid ids = .ok (grid.withRows (ids.filterMap grid.rowOf?)) := by
  have found : ∀ row ∈ ids.filterMap grid.rowOf?, ∀ value ∈ row.values,
      value.fits grid.version = true := by
    intro row member
    obtain ⟨id, _, named⟩ := List.mem_filterMap.mp member
    exact fits row (mem_of_rowNamed? named).1
  rw [rowsOf, @extend_apply grid.emptyLike _ found]
  rfl

/-- What comes after is given the outcome, and the state after it. -/
theorem bind_apply {σ α β : Type} (first : ExceptT Error (StateM σ) α)
    (next : α → ExceptT Error (StateM σ) β) (state : σ) : (first >>= next) state =
      match first state with
      | (.ok a, after) => next a after
      | (.error refusal, after) => (.error refusal, after) := by
  change (StateT.bind first (ExceptT.bindCont next)) state = _
  rw [StateT.bind]
  rcases first state with ⟨refusal | a, after⟩ <;> rfl

/-- A selection is made of whatever rows are found. -/
theorem answer_eq (found : ExceptT Error (StateM FilterCache) Grid) (selection : Option String) :
    ((do
      let rows ← found
      match selection with
      | some selection => liftExcept (rows.select selection)
      | none => pure rows : ExceptT Error (StateM FilterCache) Grid) cache).1 =
      (found cache).1.bind fun rows => selected rows selection := by
  rw [bind_apply]
  rcases found cache with ⟨refusal | rows, after⟩
  · rfl
  · cases selection with
    | none => rfl
    | some selection =>
        simp only [Except.bind, selected]
        cases rows.select selection <;> rfl

theorem read_of_ids (given : request.ids ≠ []) : (server.read request cache).1 =
    (rowsOf server.grid request.ids).bind fun rows => selected rows request.selection := by
  have isGiven : request.ids.isEmpty = false := List.isEmpty_eq_false_iff.mpr given
  unfold read
  simp only [isGiven, Bool.false_eq_true, if_false]
  refine (answer_eq _ _).trans ?_
  cases rowsOf server.grid request.ids <;> rfl

theorem read_of_filter (none : request.ids = []) : (server.read request cache).1 =
    (FilterCache.filter server.grid (request.filter.getD "") request.limit cache).1.bind
      fun rows => selected rows request.selection := by
  unfold read
  simp only [none, List.isEmpty_nil, if_true]
  exact answer_eq ..

/-! ## Both ways -/

/-- A request for the rows of one id by its filter. -/
def alone (id : Ref) (selection : Option String) : ReadRequest :=
  { filter := some id.filterText, selection }

/-- Whatever the cache was used for, the filter on an id finds the row of the id. -/
theorem read_alone {id : Ref} (chars : id.name.toList.all Zinc.isRefChar = true)
    (distinct : DistinctIds server.grid.rows) (reached : ∃ items, FilterCache.Holds cache items)
    (selection : Option String) : (server.read (alone id selection) cache).1 =
      (selected server.grid selection).map (·.withRows (server.grid.rowOf? id).toList) := by
  obtain ⟨items, holds⟩ := reached
  have filtered := (holds.filter server.grid id.filterText none).1
  have condition : id.condition.holds server.grid = Entity.hasId id.name :=
    funext (id.holds_condition server.grid)
  rw [FilterCache.filter_eq, Ref.isAllBlank_filterText, if_neg (by simp),
    Ref.condition_filterText chars] at filtered
  rw [read_of_filter rfl]
  change ((FilterCache.filter server.grid id.filterText none cache).1.bind _) = _
  rw [filtered]
  change selected (server.grid.withRows (server.grid.rows.filter (id.condition.holds server.grid))) _ = _
  rw [condition, filter_hasId distinct, selected_withRows]
  rfl

/-- A request with ids answers the rows that the filters of the ids find, one id after the other, or
the refusal of the selection; a filter and a limit beside the ids have no influence. The filters are
answered whatever they or others were asked before, through a cache of any capacity. -/
theorem read_eq_of_ids (cache : FilterCache) (distinct : DistinctIds server.grid.rows)
    (fits : ∀ row ∈ server.grid.rows, ∀ value ∈ row.values, value.fits server.grid.version = true)
    (given : request.ids ≠ [])
    (chars : ∀ id ∈ request.ids, id.name.toList.all Zinc.isRefChar = true) :
    ∃ found : Ref → List Entity,
      (∀ id ∈ request.ids, ∀ capacity uses selection,
        (server.read (alone id selection) (FilterCache.run (Recency.empty capacity) uses)).1 =
          (selected server.grid selection).map (·.withRows (found id))) ∧
      (server.read request cache).1 =
        (selected server.grid request.selection).map (·.withRows (request.ids.flatMap found)) ∧
      ∀ filter limit, (server.read { request with filter, limit } cache).1 =
        (server.read request cache).1 := by
  refine ⟨fun id => (server.grid.rowOf? id).toList, ?_, ?_, fun filter limit => ?_⟩
  · intro id member capacity uses selection
    obtain ⟨_, items, holds⟩ := (FilterCache.holds_empty capacity).run uses
    exact read_alone (chars id member) distinct ⟨items, holds⟩ selection
  · rw [read_of_ids given, rowsOf_eq _ fits]
    change selected (server.grid.withRows (request.ids.filterMap server.grid.rowOf?)) _ = _
    rw [selected_withRows, List.filterMap_eq_flatMap_toList]
  · have withOthers : (server.read { request with filter, limit } cache).1 = _ := read_of_ids given
    rw [withOthers, read_of_ids given]

/-- A server of two rooms. -/
def rooms : GridProvider where
  name := "rooms"
  grid :=
    { version := .three
      pinned := true
      metadata := .empty
      columns := .ofList [("id", .empty), ("dis", .empty)]
      rows := [⟨[("id", .ref ⟨"attic", none⟩), ("dis", .str "Attic")]⟩,
        ⟨[("id", .ref ⟨"hall:1", some "Hall"⟩)]⟩] }

/-- Of the ids that are asked for, one is unknown and one is repeated; the filter denotes nothing. -/
def roomsRequest : ReadRequest where
  ids := [⟨"hall:1", none⟩, ⟨"cellar", none⟩, ⟨"attic", none⟩, ⟨"hall:1", some "again"⟩]
  filter := some "dis =="
  limit := some 1
  selection := some "!dis"

theorem read_eq_of_ids_rooms :
    DistinctIds rooms.grid.rows ∧
      (∀ row ∈ rooms.grid.rows, ∀ value ∈ row.values, value.fits rooms.grid.version = true) ∧
      roomsRequest.ids ≠ [] ∧
      (∀ id ∈ roomsRequest.ids, id.name.toList.all Zinc.isRefChar = true) ∧
      ∃ found : Ref → List Entity,
        (∀ id ∈ roomsRequest.ids, (rooms.read (alone id none) (Recency.empty 1)).1 =
          .ok (rooms.grid.withRows (found id))) ∧
        (rooms.read roomsRequest default).1 =
          (rooms.grid.select "!dis").map (·.withRows (roomsRequest.ids.flatMap found)) := by
  have distinct : DistinctIds rooms.grid.rows := by decide
  have fits : ∀ row ∈ rooms.grid.rows, ∀ value ∈ row.values,
      value.fits rooms.grid.version = true := by decide
  have given : roomsRequest.ids ≠ [] := by decide
  have chars : ∀ id ∈ roomsRequest.ids, id.name.toList.all Zinc.isRefChar = true := by decide
  obtain ⟨found, lone, both, _⟩ := read_eq_of_ids default distinct fits given chars
  exact ⟨distinct, fits, given, chars, found, fun id member => lone id member 1 [] none, both⟩

end GridProvider

end Haystack
