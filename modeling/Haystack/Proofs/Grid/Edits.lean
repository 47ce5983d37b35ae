import Haystack.Grid.Basic
import Haystack.Proofs.OrderedMap

/-!
What each change of a grid does when it admits every value.

A value that fits the version passes the check and leaves the version alone, so a change of which all
values fit succeeds and changes nothing but its own part.
-/
namespace Haystack

/-! ## Steps -/

namespace Edit

variable {α β : Type} {grid after : Grid}

@[simp] theorem apply_pure (value : α) : (pure value : Edit α).apply grid = (.ok value, grid) := rfl

@[simp] theorem apply_get : (get : Edit Grid).apply grid = (.ok grid, grid) := rfl

@[simp] theorem apply_set : (set after : Edit Unit).apply grid = (.ok (), after) := rfl

@[simp] theorem apply_modify (change : Grid → Grid) :
    (modify change : Edit Unit).apply grid = (.ok (), change grid) := rfl

@[simp] theorem apply_throw (refusal : Error) :
    (throw refusal : Edit α).apply grid = (.error refusal, grid) := rfl

/-- After a step that succeeds the next one runs. -/
theorem apply_bind {first : Edit α} {next : α → Edit β} {value : α}
    (succeeds : first.apply grid = (.ok value, after)) :
    (first >>= next).apply grid = (next value).apply after := by
  unfold apply at succeeds ⊢
  simp only [bind, ExceptT.bind, ExceptT.mk, StateT.bind, succeeds]
  rfl

/-- After a step that is refused nothing runs. -/
theorem apply_bind_error {first : Edit α} {next : α → Edit β} {refusal : Error}
    (fails : first.apply grid = (.error refusal, after)) :
    (first >>= next).apply grid = (.error refusal, after) := by
  unfold apply at fails ⊢
  simp only [bind, ExceptT.bind, ExceptT.mk, StateT.bind, fails]
  rfl

/-- Steps that succeed one after the other. -/
theorem of_bind {first : Edit α} {next : α → Edit β} {value : β}
    (applied : (first >>= next).apply grid = (.ok value, after)) : ∃ made middle,
      first.apply grid = (.ok made, middle) ∧ (next made).apply middle = (.ok value, after) := by
  generalize step : first.apply grid = result
  obtain ⟨outcome, middle⟩ := result
  cases outcome with
  | error refusal =>
      rw [apply_bind_error step] at applied
      exact nomatch (Prod.mk.inj applied).1
  | ok made => exact ⟨made, middle, rfl, by rwa [apply_bind step] at applied⟩

@[simp] theorem apply_get_bind {next : Grid → Edit β} :
    ((get : Edit Grid) >>= next).apply grid = (next grid).apply grid := rfl

end Edit

namespace GridOf

variable {grid : Grid} {value : Value} {metadata : Metadata} {row : Entity} {index : Nat}

theorem check_apply (fits : value.fits grid.version = true) :
    (check value).apply grid = (.ok (), grid) := by
  rw [check, Edit.apply_get_bind, admitted, if_pos fits]
  rfl

theorem checkAll_apply {values : List Value} (fits : ∀ value ∈ values, value.fits grid.version = true) :
    (checkAll values).apply grid = (.ok (), grid) := by
  induction values with
  | nil => rfl
  | cons value rest ih =>
      rw [List.forall_mem_cons] at fits
      rw [checkAll, Edit.apply_bind (check_apply fits.1), ih fits.2]

/-! ## Changes that fit -/

theorem setMetadata_apply (fits : ∀ value ∈ metadata.values, value.fits grid.version = true) :
    (setMetadata metadata).apply grid = (.ok (), { grid with metadata }) := by
  rw [setMetadata, Edit.apply_bind (checkAll_apply fits), Edit.apply_modify]

theorem setColumns_apply {columns : Columns} (fits : ∀ held ∈ columns.values,
    ∀ value ∈ held.values, value.fits grid.version = true) :
    (setColumns columns).apply grid = (.ok (), { grid with columns }) := by
  have all : ∀ value ∈ columns.values.flatMap (·.values), value.fits grid.version = true := by
    intro value member
    obtain ⟨held, inColumns, inside⟩ := List.mem_flatMap.mp member
    exact fits held inColumns value inside
  rw [setColumns, Edit.apply_bind (checkAll_apply all), Edit.apply_modify]

theorem addColumn_apply {name : String}
    (fits : ∀ value ∈ metadata.values, value.fits grid.version = true)
    (fresh : name ∉ grid.columns.keys) :
    (addColumn name metadata).apply grid =
      (.ok (), { grid with columns := ⟨grid.columns.items ++ [(name, metadata)]⟩ }) := by
  rw [addColumn, addColumnAt, Edit.apply_bind (checkAll_apply fits), Edit.apply_get_bind,
    OrderedMap.addItem_last_fresh fresh]
  rfl

theorem append_apply (fits : ∀ value ∈ row.values, value.fits grid.version = true) :
    (append row).apply grid = (.ok (), grid.withRows (grid.rows ++ [row])) := by
  rw [append, Edit.apply_bind (checkAll_apply fits), Edit.apply_modify]
  rfl

theorem extend_apply {rows : List Entity}
    (fits : ∀ row ∈ rows, ∀ value ∈ row.values, value.fits grid.version = true) :
    (extend rows).apply grid = (.ok (), grid.withRows (grid.rows ++ rows)) := by
  induction rows generalizing grid with
  | nil => simp [extend, withRows]
  | cons row rows ih =>
      rw [List.forall_mem_cons] at fits
      have rest := @ih (grid.withRows (grid.rows ++ [row])) fits.2
      rw [extend, Edit.apply_bind (append_apply fits.1), rest]
      simp [withRows]

theorem setRow_apply (fits : ∀ value ∈ row.values, value.fits grid.version = true)
    (bound : index < grid.rows.length) :
    (setRow index row).apply grid = (.ok (), grid.withRows (grid.rows.set index row)) := by
  have inside : ¬ grid.rows.length ≤ index := by omega
  rw [setRow, Edit.apply_get_bind, if_neg inside]
  change (checkAll row.values >>= fun _ => modify _).apply grid = _
  rw [Edit.apply_bind (checkAll_apply fits), Edit.apply_modify]
  rfl

end GridOf

end Haystack
