import Haystack.Grid.Indexed

/-!
Sequences of operations on a grid.

An operation is a look-up, a change of the rows or of what stands above them, or a grid made of the
one before. One that is refused may still have moved the version, and a look-up may have made the
index; either way the next operation starts from the grid it leaves.
-/
namespace Haystack.IndexedGrid

inductive Operation where
  -- look-ups
  | position (id : Ref)
  | row (id : Ref)
  | contains (id : Ref)
  -- rows
  | append (row : Entity)
  | extend (rows : List Entity)
  | insert (index : Nat) (row : Entity)
  | set (index : Nat) (row : Entity)
  | remove (index : Nat)
  | removeId (id : Ref)
  | clear
  | sort (tag : String)
  | reindex
  /-- An unchecked change of a row. -/
  | change (index : Nat) (change : Entity → Entity)
  /-- An unchecked change of the row of an id. -/
  | changeId (id : Ref) (change : Entity → Entity)
  -- version, metadata and columns
  | setVersion (version : Version) (pinned : Bool)
  | setMeta (key : String) (value : Value)
  | removeMeta (key : String)
  | setMetadata (metadata : Metadata)
  | addColumn (name : String) (metadata : Metadata) (position : Position)
  | setColumnMeta (column key : String) (value : Value)
  | removeColumn (name : String)
  | setColumns (columns : Columns)
  | packColumns
  | extendColumns
  -- grids made of others
  | emptyLike
  | slice (lower upper : Option Bound)
  | satisfying (condition : Condition) (limit : Option Nat)
  | filter (text : String) (limit : Option Nat)
  | select (selection : String)
  | purge

/-- The grid that a change leaves, whether it is refused or not. -/
def after {α : Type} (edit : ExceptT Error (StateM IndexedGrid) α) (g : IndexedGrid) : IndexedGrid :=
  (edit.run g).2

/-- The grid made of another, or the other one where that is refused. -/
def orElse (g : IndexedGrid) (made : Except Error IndexedGrid) : IndexedGrid :=
  match made with
  | .ok other => other
  | .error _ => g

/-- The grid that an operation leaves. -/
def perform (g : IndexedGrid) : Operation → IndexedGrid
  | .position id => (positionOf? id g).2
  | .row id => (rowOf? id g).2
  | .contains id => (containsId id g).2
  | .append row => g.after (IndexedGrid.append row)
  | .extend rows => g.after (IndexedGrid.extend rows)
  | .insert index row => g.after (insertRow index row)
  | .set index row => g.after (setRow index row)
  | .remove index => (removeRow? index g).2
  | .removeId id => (removeId? id g).2
  | .clear => g.clearRows
  | .sort tag => g.sortByTag tag
  | .reindex => g.reindex
  | .change index change => (changeRow index change g).2
  | .changeId id change => (IndexedGrid.changeId id change g).2
  | .setVersion version pinned => g.mapHeader (·.setVersion version pinned)
  | .setMeta key value => g.after (editHeader (GridOf.setMeta key value))
  | .removeMeta key => g.mapHeader (·.removeMeta key)
  | .setMetadata metadata => g.after (editHeader (GridOf.setMetadata metadata))
  | .addColumn name metadata position => g.after (editHeader (GridOf.addColumnAt name metadata position))
  | .setColumnMeta column key value => g.after (editHeader (GridOf.setColumnMeta column key value))
  | .removeColumn name => g.mapHeader (·.removeColumn name)
  | .setColumns columns => g.after (editHeader (GridOf.setColumns columns))
  | .packColumns => g.mapHeader (·.packColumns)
  | .extendColumns => g.mapHeader (·.extendColumns)
  | .emptyLike => g.emptyLike
  | .slice lower upper => g.slice lower upper
  | .satisfying condition limit => g.satisfying condition limit
  | .filter text limit => g.orElse (g.filter text limit)
  | .select selection => g.orElse (g.select selection)
  | .purge => g.purge

/-- The grid that operations leave, one after the other. -/
def run (g : IndexedGrid) (operations : List Operation) : IndexedGrid := operations.foldl perform g

/-- What each operation keeps a sequence of them keeps. -/
theorem run_induction {motive : IndexedGrid → Prop} {operations : List Operation} {g : IndexedGrid}
    (start : motive g)
    (step : ∀ operation ∈ operations, ∀ g, motive g → motive (g.perform operation)) :
    motive (g.run operations) := by
  induction operations generalizing g with
  | nil => exact start
  | cons operation rest ih =>
      rw [List.forall_mem_cons] at step
      exact ih (step.1 g start) step.2

variable {g other : IndexedGrid}

theorem of_filter {text : String} {limit : Option Nat} (made : g.filter text limit = .ok other) :
    other = g ∨ ∃ grid, g.grid.filter text limit = .ok grid ∧ other = ofGrid grid := by
  unfold filter at made
  split at made
  · exact .inl (Except.ok.inj made).symm
  · cases kept : g.grid.filter text limit with
    | error refusal => simp [kept, Except.map] at made
    | ok grid =>
        rw [kept] at made
        exact .inr ⟨grid, rfl, (Except.ok.inj made).symm⟩

theorem of_select {selection : String} (made : g.select selection = .ok other) :
    ∃ grid, g.grid.select selection = .ok grid ∧ other = { g with grid } := by
  unfold select at made
  cases selected : g.grid.select selection with
  | error refusal => simp [selected, Except.map] at made
  | ok grid =>
      rw [selected] at made
      exact ⟨grid, rfl, (Except.ok.inj made).symm⟩

theorem orElse_cases {motive : IndexedGrid → Prop} {made : Except Error IndexedGrid}
    (kept : motive g) (isMade : ∀ other, made = .ok other → motive other) : motive (g.orElse made) := by
  cases made with
  | ok other => exact isMade other rfl
  | error refusal => exact kept

end Haystack.IndexedGrid
