import Haystack.Value.Basic

/-!
What lies inside a value, and properties that hold of a value and of everything in it.

Lists, dicts and grids hold values, which may hold others. `Value.Throughout` carries a condition on
single values to all depths, and is what proofs about nested values go by induction on.
-/
namespace Haystack

/-- All values of a grid: of its metadata, of the metadata of its columns and of its rows. -/
def GridOf.values {α : Type} (grid : GridOf α) : List α :=
  grid.metadata.values ++ grid.columns.values.flatMap (·.values) ++ grid.rows.flatMap (·.values)

namespace Value

/-- The values that a value holds itself. -/
def children : Value → List Value
  | .list items => items
  | .dict tags => tags.values
  | .grid g => g.values
  | _ => []

/-- A condition holds of a value and of all that is in it, at any depth. -/
inductive Throughout (holds : Value → Prop) : Value → Prop where
  | intro (value : Value) (here : holds value)
      (inside : ∀ part ∈ value.children, Throughout holds part) : Throughout holds value

end Value

/-- A condition holds of a grid as a value and of all that is in it. -/
abbrev GridOf.Throughout (holds : Value → Prop) (grid : Grid) : Prop :=
  Value.Throughout holds (.grid grid)

namespace Value

theorem sizeOf_lt_of_mem_values {tags : OrderedMap Value} {part : Value}
    (member : part ∈ tags.values) : sizeOf part < sizeOf tags := by
  obtain ⟨items⟩ := tags
  obtain ⟨item, inItems, rfl⟩ := List.mem_map.mp member
  have smaller := List.sizeOf_lt_of_mem inItems
  obtain ⟨key, value⟩ := item
  simp only [OrderedMap.mk.sizeOf_spec, Prod.mk.sizeOf_spec] at smaller ⊢
  omega

theorem sizeOf_lt_of_mem_columns {columns : Columns} {metadata : Metadata}
    (member : metadata ∈ columns.values) : sizeOf metadata < sizeOf columns := by
  obtain ⟨items⟩ := columns
  obtain ⟨item, inItems, rfl⟩ := List.mem_map.mp member
  have smaller := List.sizeOf_lt_of_mem inItems
  obtain ⟨key, value⟩ := item
  simp only [OrderedMap.mk.sizeOf_spec, Prod.mk.sizeOf_spec] at smaller ⊢
  omega

theorem sizeOf_lt_of_mem_children {value part : Value} (member : part ∈ value.children) :
    sizeOf part < sizeOf value := by
  cases value with
  | list items =>
      have smaller := List.sizeOf_lt_of_mem (show part ∈ items from member)
      simp only [Value.list.sizeOf_spec]
      omega
  | dict tags =>
      have smaller := sizeOf_lt_of_mem_values (show part ∈ tags.values from member)
      simp only [Value.dict.sizeOf_spec]
      omega
  | grid g =>
      obtain ⟨version, pinned, metadata, columns, rows⟩ := g
      simp only [Value.grid.sizeOf_spec, GridOf.mk.sizeOf_spec]
      simp only [children, GridOf.values, List.mem_append, List.mem_flatMap] at member
      rcases member with (inMetadata | ⟨held, inColumns, inside⟩) | ⟨row, inRows, inside⟩
      · have smaller := sizeOf_lt_of_mem_values inMetadata
        omega
      · have smaller := sizeOf_lt_of_mem_values inside
        have columnSmaller := sizeOf_lt_of_mem_columns inColumns
        omega
      · have smaller := sizeOf_lt_of_mem_values inside
        have rowSmaller := List.sizeOf_lt_of_mem inRows
        omega
  | _ => simp [children] at member

variable {holds weaker : Value → Prop}

theorem throughout_iff {value : Value} :
    value.Throughout holds ↔ holds value ∧ ∀ part ∈ value.children, part.Throughout holds :=
  ⟨fun ⟨_, here, inside⟩ => ⟨here, inside⟩, fun ⟨here, inside⟩ => ⟨value, here, inside⟩⟩

theorem Throughout.here {value : Value} (all : value.Throughout holds) : holds value :=
  (throughout_iff.mp all).1

theorem Throughout.inside {value part : Value} (all : value.Throughout holds)
    (member : part ∈ value.children) : part.Throughout holds :=
  (throughout_iff.mp all).2 part member

theorem Throughout.imp {value : Value} (all : value.Throughout holds)
    (implies : ∀ part, holds part → weaker part) : value.Throughout weaker := by
  induction all with
  | intro value here inside ih => exact ⟨value, implies value here, ih⟩

theorem Throughout.and {value : Value} (all : value.Throughout holds) (further : value.Throughout weaker) :
    value.Throughout fun part => holds part ∧ weaker part := by
  induction all with
  | intro value here inside ih =>
      exact ⟨value, ⟨here, further.here⟩, fun part member => ih part member (further.inside member)⟩

/-- Whether a condition holds of a value and of all that is in it, which is nested less than a depth. -/
def holdsWithin (holds : Value → Prop) [DecidablePred holds] : Nat → Value → Bool
  | 0, _ => false
  | depth + 1, value => decide (holds value) && value.children.all (holdsWithin holds depth)

theorem throughout_of_holdsWithin [DecidablePred holds] {depth : Nat} {value : Value}
    (within : holdsWithin holds depth value = true) : value.Throughout holds := by
  induction depth generalizing value with
  | zero => exact nomatch within
  | succ depth ih =>
      rw [holdsWithin, Bool.and_eq_true, decide_eq_true_eq, List.all_eq_true] at within
      exact .intro value within.1 fun part member => ih (within.2 part member)

theorem throughout_of_childless {value : Value} (here : holds value) (none : value.children = []) :
    value.Throughout holds :=
  .intro value here fun part member => by
    rw [none] at member
    exact nomatch member

end Value

namespace GridOf

variable {grid : Grid} {holds : Value → Prop}

theorem forall_mem_values : (∀ value ∈ grid.values, holds value) ↔
    (∀ value ∈ grid.metadata.values, holds value) ∧
    (∀ held ∈ grid.columns.values, ∀ value ∈ held.values, holds value) ∧
    ∀ row ∈ grid.rows, ∀ value ∈ row.values, holds value := by
  simp only [values, List.forall_mem_append, List.forall_mem_flatMap, and_assoc]

theorem mem_values_of_metadata {part : Value} (member : part ∈ grid.metadata.values) :
    part ∈ grid.values := by
  simp [values, member]

theorem mem_values_of_column {part : Value} {metadata : Metadata}
    (column : metadata ∈ grid.columns.values) (member : part ∈ metadata.values) :
    part ∈ grid.values := by
  simp only [values, List.mem_append, List.mem_flatMap]
  exact .inl (.inr ⟨metadata, column, member⟩)

theorem mem_values_of_row {part : Value} {row : Entity} (inRows : row ∈ grid.rows)
    (member : part ∈ row.values) : part ∈ grid.values := by
  simp only [values, List.mem_append, List.mem_flatMap]
  exact .inr ⟨row, inRows, member⟩

end GridOf

end Haystack
