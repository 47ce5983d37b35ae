import Haystack.Proofs.Grid.Changes
import Haystack.Proofs.Grid.Edits

/-!
What each row of a difference does to a grid.

A change sets the row with its id, takes it out or adds it; a removal without an id takes out the
first row that is near. The look-ups by name and the rows without an id say what is left.
-/
namespace Haystack.GridOf

open OrderedMap Value Pairing

variable {grid after : Grid} {change row : Entity} {id : Ref} {position : Nat} {name : String}

/-! ## One row of a difference -/

theorem patchRow_set (isId : change.id? = some id) (stays : change.contains removalKey = false)
    (found : grid.positionOf? id = some position) (there : grid.rows[position]? = some row)
    (fits : ∀ value ∈ (row.applyChanges change).values, value.fits grid.version = true) :
    (patchRow change).apply grid =
      (.ok (), grid.withRows (grid.rows.set position (row.applyChanges change))) := by
  obtain ⟨bound, _⟩ := List.getElem?_eq_some_iff.mp there
  rw [patchRow, Edit.apply_get_bind]
  simp only [isId, found, stays, there, Option.getD_some, Bool.false_eq_true, if_false]
  exact setRow_apply fits bound

theorem patchRow_remove (isId : change.id? = some id) (gone : change.contains removalKey = true)
    (found : grid.positionOf? id = some position) :
    (patchRow change).apply grid = (.ok (), grid.withRows (grid.rows.eraseIdx position)) := by
  rw [patchRow, Edit.apply_get_bind]
  simp only [isId, found, gone, if_true]
  rfl

theorem patchRow_append (stays : change.contains removalKey = false)
    (fresh : ∀ id, change.id? = some id → grid.positionOf? id = none)
    (fits : ∀ value ∈ change.values, value.fits grid.version = true) :
    (patchRow change).apply grid = (.ok (), grid.withRows (grid.rows ++ [change])) := by
  rw [patchRow, Edit.apply_get_bind]
  cases isId : change.id? with
  | none =>
      simp only [stays, Bool.false_eq_true, if_false]
      exact append_apply fits
  | some id =>
      simp only [fresh id isId, stays, Bool.false_eq_true, if_false]
      exact append_apply fits

theorem patchRow_removeNear (anonymous : change.id? = none)
    (gone : change.contains removalKey = true) :
    (patchRow change).apply grid = (.ok (),
      grid.withRows (grid.rows.eraseP (nearEntity · (change.erase removalKey)))) := by
  rw [patchRow, Edit.apply_get_bind]
  simp only [anonymous, gone, if_true]
  have removed : grid.removeNear (change.erase removalKey) =
      grid.withRows (grid.rows.eraseP (nearEntity · (change.erase removalKey))) := by
    unfold removeNear removeRow
    rw [List.eraseP_eq_eraseIdx]
    unfold Entity.near
    cases grid.rows.findIdx? (nearEntity · (change.erase removalKey)) <;> rfl
  rw [removed]
  rfl

/-- The removal of a row without an id takes out the first row that is near to it. -/
theorem patchRow_removal (fresh : row.contains removalKey = false) (unknown : row.id? = none) :
    (patchRow (row.insert removalKey .remove)).apply grid =
      (.ok (), grid.withRows (grid.rows.eraseP (nearEntity · row))) := by
  have stillUnknown : Entity.id? (row.insert removalKey .remove) = none := by
    have other : "id" ≠ removalKey := by decide
    rw [Entity.id?, get?_insert, if_neg other]
    exact unknown
  have gone : (row.insert removalKey .remove).contains removalKey = true :=
    contains_eq_true_iff.mpr (mem_keys_insert.mpr (.inl rfl))
  rw [patchRow_removeNear stillUnknown gone, erase_insert_fresh fresh]

theorem patchRows_append {first last : List Entity}
    (succeeds : (patchRows first).apply grid = (.ok (), after)) :
    (patchRows (first ++ last)).apply grid = (patchRows last).apply after := by
  induction first generalizing grid with
  | nil =>
      obtain rfl : grid = after := (Prod.mk.inj succeeds).2
      rfl
  | cons change rest ih =>
      rw [patchRows] at succeeds
      rw [List.cons_append, patchRows]
      cases outcome : (patchRow change).apply grid with
      | mk result middle =>
          cases result with
          | ok done =>
              rw [Edit.apply_bind outcome] at succeeds ⊢
              exact ih succeeds
          | error refusal => exact nomatch (Edit.apply_bind_error outcome).symm.trans succeeds

theorem patchRows_one (change : Entity) : (patchRows [change]).apply grid = (patchRow change).apply grid := by
  rw [patchRows]
  cases outcome : (patchRow change).apply grid with
  | mk result middle =>
      cases result with
      | ok done => rw [Edit.apply_bind outcome]; rfl
      | error refusal => exact Edit.apply_bind_error outcome

/-- Rows with fresh ids are added in their order. -/
theorem patchRows_fresh {added : List Entity} (distinct : DistinctIds (grid.rows ++ added))
    (stay : ∀ row ∈ added, row.contains removalKey = false)
    (fits : ∀ row ∈ added, ∀ value ∈ row.values, value.fits grid.version = true) :
    (patchRows added).apply grid = (.ok (), grid.withRows (grid.rows ++ added)) := by
  induction added generalizing grid with
  | nil =>
      rw [List.append_nil]
      rfl
  | cons row rest ih =>
      rw [List.forall_mem_cons] at stay fits
      have fresh : ∀ id, row.id? = some id → grid.positionOf? id = none := by
        intro id isId
        refine lastWithId?_eq_none_iff.mpr fun member => ?_
        unfold DistinctIds at distinct
        rw [idNames_append, idNames_cons_known (Entity.name?_of_id? isId), List.nodup_append]
          at distinct
        exact distinct.2.2 _ member _ (List.mem_cons_self ..) rfl
      have regrouped : grid.rows ++ row :: rest = (grid.rows ++ [row]) ++ rest := by simp
      rw [regrouped] at distinct ⊢
      rw [patchRows, Edit.apply_bind (patchRow_append stay.1 fresh fits.1)]
      exact ih distinct stay.2 fits.2

/-- A difference is applied where its metadata and columns fit and its rows can be applied. -/
theorem patch_eq {difference : Grid} {metadata : Metadata} {columns : Columns} {rows : List Entity}
    (isMetadata : patchMetadata grid.metadata difference.metadata = metadata)
    (metadataFits : ∀ value ∈ metadata.values, value.fits difference.version = true)
    (areColumns : patchColumns grid.columns difference.columns = columns)
    (columnsFit : ∀ held ∈ columns.values, ∀ value ∈ held.values,
      value.fits difference.version = true)
    (patches : (patchRows difference.rows).apply
        ⟨difference.version, difference.pinned, metadata, columns, grid.rows⟩ =
      (.ok (), ⟨difference.version, difference.pinned, metadata, columns, rows⟩)) :
    grid.patch difference =
      .ok ⟨difference.version, difference.pinned, metadata, columns, rows⟩ := by
  let start : Grid := grid.setVersion difference.version difference.pinned
  let described : Grid := { start with metadata }
  let declared : Grid := { described with columns }
  have setsMetadata : (setMetadata metadata).apply start = (.ok (), described) :=
    setMetadata_apply metadataFits
  have setsColumns : (setColumns columns).apply described = (.ok (), declared) :=
    setColumns_apply columnsFit
  unfold patch
  simp only [isMetadata, areColumns]
  rw [(Edit.apply_bind setsMetadata).trans ((Edit.apply_bind setsColumns).trans patches)]

/-! ## Rows after a change -/

variable {rows before later : List Entity} {other : Entity}

theorem anonymous_append : anonymous (before ++ later) = anonymous before ++ anonymous later :=
  List.filter_append ..

theorem anonymous_cons_known (known : row.id? = some id) :
    anonymous (row :: rows) = anonymous rows := by
  simp [anonymous, known]

theorem anonymous_cons_anonymous (unknown : row.id? = none) :
    anonymous (row :: rows) = row :: anonymous rows := by
  simp [anonymous, unknown]

/-- The row at the position of an id has rows around it. -/
theorem exists_split_of_rowNamed? (found : rowNamed? name rows = some row) :
    ∃ position before later, lastWithId? name rows = some position ∧
      rows[position]? = some row ∧ rows = before ++ row :: later ∧ before.length = position := by
  obtain ⟨position, here, there⟩ := Option.bind_eq_some_iff.mp found
  obtain ⟨bound, rfl⟩ := List.getElem?_eq_some_iff.mp there
  refine ⟨position, rows.take position, rows.drop (position + 1), here, there, ?_, ?_⟩
  · rw [List.getElem_cons_drop, List.take_append_drop]
  · rw [List.length_take]
    omega

/-- A row that is near to one without an id has none. -/
theorem id?_eq_none_of_near (otherDistinct : other.Distinct) (distinct : row.Distinct)
    (unknown : row.id? = none) (near : nearEntity other row = true) : other.id? = none := by
  have here := (nearEntity_iff otherDistinct distinct).mp near "id"
  cases isId : other.id? with
  | none => rfl
  | some id =>
      rw [Entity.valueOf_eq (Entity.id?_eq_some_iff.mp isId)] at here
      have kinds := kind_eq_of_near here
      cases found : row.get? "id" with
      | none => simp [Entity.valueOf, found, kind] at kinds
      | some value =>
          rw [Entity.valueOf_eq found] at kinds
          cases value <;> simp [kind] at kinds
          simp [Entity.id?, found, ref?] at unknown

/-- A row that agrees with one that has an id is known by the same name. -/
theorem name?_of_agreesNear (agrees : other.AgreesNear row) (known : row.name? = some name) :
    other.name? = some name := by
  obtain ⟨id, isId, rfl⟩ := Option.map_eq_some_iff.mp known
  obtain ⟨value, found, related⟩ := agrees.exists_left (Entity.id?_eq_some_iff.mp isId)
  obtain ⟨held, rfl, same⟩ := near_ref_iff.mp related
  rw [Entity.name?_of_id? (Entity.id?_eq_some_iff.mpr found), same]

theorem nearEntity_of_agreesNear (distinct : row.Distinct) (otherDistinct : other.Distinct)
    (agrees : row.AgreesNear other) : nearEntity row other = true := by
  rw [nearEntity_iff distinct otherDistinct]
  intro key
  have here := agrees key
  cases found : row.get? key with
  | none =>
      cases present : other.get? key with
      | none => simp [Entity.valueOf, found, present, isNull]
      | some value =>
          rw [found, present] at here
          cases here
  | some value =>
      obtain ⟨held, present, related⟩ := agrees.exists_right found
      rw [Entity.valueOf_eq found, Entity.valueOf_eq present]
      exact related

end Haystack.GridOf
