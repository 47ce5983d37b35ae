import Haystack.Proofs.Grid.Admission
import Haystack.Proofs.Grid.Operations
import Haystack.Proofs.OrderedMap.Steps

/-!
What a refused change leaves behind.

A change of the rows looks for its place before its values are admitted, and a change of the metadata
looks for none. A change of one column admits its values first, and on a grid that is not pinned the
version stays at 3.0 when the column turns out to be wrong. Nothing else is left behind.
-/
namespace Haystack

namespace GridOf

variable {grid after : Grid} {value : Value} {values : List Value} {refusal : Error}

/-! ## Checks -/

/-- Some of the values need a newer version than a grid has. -/
def Outgrows (values : List Value) (grid : Grid) : Prop :=
  ∃ value ∈ values, value.fits grid.version = false

instance (values : List Value) (grid : Grid) : Decidable (Outgrows values grid) :=
  inferInstanceAs (Decidable (∃ value ∈ values, value.fits grid.version = false))

theorem not_outgrows_iff :
    ¬ Outgrows values grid ↔ ∀ value ∈ values, value.fits grid.version = true := by
  simp [Outgrows]

/-- The version that a grid which is not pinned gets by the first value that needs it. -/
def raised (grid : Grid) : Grid := { grid with version := .three }

theorem requiredVersion_of_not_fits (unfit : value.fits grid.version = false) :
    value.requiredVersion = some .three ∧ compare grid.version .three = .lt := by
  cases value <;> simp_all [Value.fits, Value.requiredVersion]

theorem raised_ne (outgrows : Outgrows values grid) : grid.raised ≠ grid := by
  obtain ⟨value, _, unfit⟩ := outgrows
  intro same
  have below := (requiredVersion_of_not_fits unfit).2
  rw [← congrArg GridOf.version same] at below
  have equal : compare Version.three Version.three ≠ .lt := by decide
  exact equal below

theorem check_apply_unpinned (unfit : value.fits grid.version = false)
    (unpinned : grid.pinned = false) : (check value).apply grid = (.ok (), grid.raised) := by
  rw [check, Edit.apply_get_bind, admitted, if_neg (by simp [unfit]), if_neg (by simp [unpinned]),
    (requiredVersion_of_not_fits unfit).1]
  rfl

theorem check_apply_pinned (unfit : value.fits grid.version = false) (pinned : grid.pinned = true) :
    (check value).apply grid = (.error (.featureGate value.kind grid.version), grid) := by
  rw [check, Edit.apply_get_bind, admitted, if_neg (by simp [unfit]), if_pos pinned]
  rfl

/-- A grid that is not pinned admits all values. -/
theorem checkAll_apply_unpinned (unpinned : grid.pinned = false) (outgrows : Outgrows values grid) :
    (checkAll values).apply grid = (.ok (), grid.raised) := by
  induction values with
  | nil => simp [Outgrows] at outgrows
  | cons first rest ih =>
      by_cases fits : first.fits grid.version = true
      · have later : Outgrows rest grid := by simpa [Outgrows, fits] using outgrows
        rw [checkAll, Edit.apply_bind (check_apply fits), ih later]
      · rw [Bool.not_eq_true] at fits
        rw [checkAll, Edit.apply_bind (check_apply_unpinned fits unpinned)]
        exact checkAll_apply fun value _ => fits_three value

/-- A pinned grid refuses the first value that it cannot hold. -/
theorem checkAll_apply_pinned (pinned : grid.pinned = true) (outgrows : Outgrows values grid) :
    ∃ kind, (checkAll values).apply grid = (.error (.featureGate kind grid.version), grid) := by
  induction values with
  | nil => simp [Outgrows] at outgrows
  | cons first rest ih =>
      by_cases fits : first.fits grid.version = true
      · have later : Outgrows rest grid := by simpa [Outgrows, fits] using outgrows
        rw [checkAll, Edit.apply_bind (check_apply fits)]
        exact ih later
      · rw [Bool.not_eq_true] at fits
        exact ⟨first.kind, by rw [checkAll, Edit.apply_bind_error (check_apply_pinned fits pinned)]⟩

/-- Where a change is refused that checks its values first: by the gate, or afterwards. -/
theorem cases_of_checkAll_bind {next : Edit Unit}
    (refused : (checkAll values >>= fun _ => next).apply grid = (.error refusal, after)) :
    (grid.pinned = true ∧ after = grid ∧ ∃ kind, refusal = .featureGate kind grid.version) ∨
      (¬ Outgrows values grid ∧ next.apply grid = (.error refusal, after)) ∨
      (grid.pinned = false ∧ Outgrows values grid ∧
        next.apply grid.raised = (.error refusal, after)) := by
  by_cases outgrows : Outgrows values grid
  · by_cases pinned : grid.pinned = true
    · obtain ⟨kind, gated⟩ := checkAll_apply_pinned pinned outgrows
      rw [Edit.apply_bind_error gated] at refused
      obtain ⟨sameRefusal, sameGrid⟩ := Prod.mk.inj refused
      exact .inl ⟨pinned, sameGrid.symm, kind, (Except.error.inj sameRefusal).symm⟩
    · rw [Bool.not_eq_true] at pinned
      rw [Edit.apply_bind (checkAll_apply_unpinned pinned outgrows)] at refused
      exact .inr (.inr ⟨pinned, outgrows, refused⟩)
  · rw [Edit.apply_bind (checkAll_apply (not_outgrows_iff.mp outgrows))] at refused
    exact .inr (.inl ⟨outgrows, refused⟩)

/-! ## Changes -/

/-- What refusals say: the version cannot hold a value, the place of a row is out of range, a column
is there already, or a key is not. -/
inductive IsRefusal (version : Version) : Error → Prop where
  | gate (kind : String) : IsRefusal version (.featureGate kind version)
  | place (index : Nat) : IsRefusal version (.invalidValue (.rowIndex index))
  | duplicate (name : String) : IsRefusal version (.duplicateKey name)
  | missing (key : String) : IsRefusal version (.keyNotFound key)

/-- A change that checks its values and then does its work is refused by the gate only. -/
theorem kept_of_checkAll_modify {change : Grid → Grid}
    (refused : (checkAll values >>= fun _ => modify change).apply grid = (.error refusal, after)) :
    after = grid ∧ IsRefusal grid.version refusal := by
  rcases cases_of_checkAll_bind refused with ⟨_, same, kind, rfl⟩ | ⟨_, later⟩ | ⟨_, _, later⟩
  · exact ⟨same, .gate kind⟩
  · exact nomatch (Prod.mk.inj later).1
  · exact nomatch (Prod.mk.inj later).1

/-- A change that checks its values and then looks for something leaves the version raised if the
values needed that. -/
theorem cases_of_checkAll_seek {next : Edit Unit}
    (seeks : ∀ grid : Grid, (∃ made, next.apply grid = (.ok (), made)) ∨
      ∃ refusal, next.apply grid = (.error refusal, grid) ∧ ∀ version, IsRefusal version refusal)
    (refused : (checkAll values >>= fun _ => next).apply grid = (.error refusal, after)) :
    after = (if grid.pinned = false ∧ Outgrows values grid then grid.raised else grid) ∧
      IsRefusal grid.version refusal := by
  have kept {start : Grid} (later : next.apply start = (.error refusal, after)) :
      after = start ∧ IsRefusal grid.version refusal := by
    rcases seeks start with ⟨made, succeeds⟩ | ⟨cause, fails, isRefusal⟩
    · exact nomatch (Prod.mk.inj (succeeds.symm.trans later)).1
    · obtain ⟨sameRefusal, rfl⟩ := Prod.mk.inj (fails.symm.trans later)
      exact ⟨rfl, Except.error.inj sameRefusal ▸ isRefusal grid.version⟩
  rcases cases_of_checkAll_bind refused with ⟨pinned, same, kind, rfl⟩ | ⟨fit, later⟩ |
    ⟨unpinned, outgrows, later⟩
  · exact ⟨by rw [if_neg (by simp [pinned]), same], .gate kind⟩
  · exact ⟨by rw [if_neg (fun both => fit both.2), (kept later).1], (kept later).2⟩
  · exact ⟨by rw [if_pos ⟨unpinned, outgrows⟩, (kept later).1], (kept later).2⟩

/-- A key that is not there, or one too many, is what stops an item from being added. -/
theorem isRefusal_of_addItem {α : Type} {m : OrderedMap α} {key : String} {held : α}
    {position : Position} (refused : m.addItem key held position false = .error refusal)
    (version : Version) : IsRefusal version refusal := by
  rw [OrderedMap.addItem_eq] at refused
  rcases m.target_cases position with ⟨anchor, _, _, noTarget⟩ | ⟨_, index, found⟩
  · rw [noTarget] at refused
    exact Except.error.inj refused ▸ .missing anchor
  · rw [found] at refused
    simp only [Except.bind] at refused
    split at refused
    · exact Except.error.inj refused ▸ .duplicate key
    · cases refused

theorem check_eq (value : Value) : check value = checkAll [value] := by
  simp [checkAll]

theorem kept_of_setMeta {key : String}
    (refused : (setMeta key value).apply grid = (.error refusal, after)) :
    after = grid ∧ IsRefusal grid.version refusal := by
  rw [setMeta, check_eq] at refused
  exact kept_of_checkAll_modify refused

/-- A change that looks for the place of its row first is refused there, or by the gate. -/
theorem kept_of_place {out : Prop} [Decidable out] {index : Nat} {change : Grid → Grid}
    (refused : (do
        if out then throw (.invalidValue (.rowIndex index))
        checkAll values
        modify change : Edit Unit).apply grid = (.error refusal, after)) :
    after = grid ∧ IsRefusal grid.version refusal := by
  by_cases isOut : out
  · rw [if_pos isOut] at refused
    obtain ⟨sameRefusal, rfl⟩ := Prod.mk.inj refused
    exact ⟨rfl, Except.error.inj sameRefusal ▸ .place index⟩
  · rw [if_neg isOut] at refused
    exact kept_of_checkAll_modify refused

theorem cases_of_addColumnAt {name : String} {metadata : Metadata} {position : Position}
    (refused : (addColumnAt name metadata position).apply grid = (.error refusal, after)) :
    after = (if grid.pinned = false ∧ Outgrows metadata.values grid then grid.raised else grid) ∧
      IsRefusal grid.version refusal := by
  refine cases_of_checkAll_seek (fun middle => ?_) refused
  rw [Edit.apply_get_bind]
  cases added : middle.columns.addItem name metadata position false with
  | ok columns => exact .inl ⟨_, rfl⟩
  | error cause => exact .inr ⟨cause, rfl, isRefusal_of_addItem added⟩

theorem cases_of_setColumnMeta {column key : String}
    (refused : (setColumnMeta column key value).apply grid = (.error refusal, after)) :
    after = (if grid.pinned = false ∧ Outgrows [value] grid then grid.raised else grid) ∧
      IsRefusal grid.version refusal := by
  rw [setColumnMeta, check_eq] at refused
  refine cases_of_checkAll_seek (fun middle => ?_) refused
  rw [Edit.apply_get_bind]
  cases found : middle.columns.get? column with
  | some metadata => exact .inl ⟨_, rfl⟩
  | none => exact .inr ⟨_, rfl, fun version => .missing column⟩

end GridOf

namespace IndexedGrid

open GridOf (Outgrows IsRefusal)

/-- The changes that may be refused. -/
inductive Change where
  | append (row : Entity)
  | insert (index : Nat) (row : Entity)
  | set (index : Nat) (row : Entity)
  | setMeta (key : String) (value : Value)
  | setMetadata (metadata : Metadata)
  | addColumn (name : String) (metadata : Metadata)
  | addColumnAt (name : String) (metadata : Metadata) (position : Position)
  | setColumnMeta (column key : String) (value : Value)
  | setColumns (columns : Columns)

namespace Change

/-- What a change answers, and the grid after it. -/
def apply : Change → IndexedGrid → Except Error Unit × IndexedGrid
  | .append row => IndexedGrid.append row
  | .insert index row => insertRow index row
  | .set index row => setRow index row
  | .setMeta key value => editHeader (GridOf.setMeta key value)
  | .setMetadata metadata => editHeader (GridOf.setMetadata metadata)
  | .addColumn name metadata => editHeader (GridOf.addColumn name metadata)
  | .addColumnAt name metadata position => editHeader (GridOf.addColumnAt name metadata position)
  | .setColumnMeta column key value => editHeader (GridOf.setColumnMeta column key value)
  | .setColumns columns => editHeader (GridOf.setColumns columns)

/-- What a change does to the grid itself, whatever becomes of the index. -/
def edit : Change → Edit Unit
  | .append row => GridOf.append row
  | .insert index row => GridOf.insertRow index row
  | .set index row => GridOf.setRow index row
  | .setMeta key value => GridOf.setMeta key value
  | .setMetadata metadata => GridOf.setMetadata metadata
  | .addColumn name metadata => GridOf.addColumn name metadata
  | .addColumnAt name metadata position => GridOf.addColumnAt name metadata position
  | .setColumnMeta column key value => GridOf.setColumnMeta column key value
  | .setColumns columns => GridOf.setColumns columns

/-- The values that are admitted before a column is looked for. -/
def early : Change → List Value
  | .addColumn _ metadata | .addColumnAt _ metadata _ => metadata.values
  | .setColumnMeta _ _ value => [value]
  | _ => []

/-- A change of one column moves the version of a grid that is not pinned, refused or not. -/
def Raises (change : Change) (grid : Grid) : Prop :=
  grid.pinned = false ∧ Outgrows change.early grid

instance (change : Change) (grid : Grid) : Decidable (change.Raises grid) :=
  inferInstanceAs (Decidable (_ ∧ _))

variable {change : Change} {grid left : Grid} {g after : IndexedGrid} {refusal : Error}

theorem not_raises (none : change.early = []) : ¬ change.Raises grid := by
  rintro ⟨_, value, member, _⟩
  rw [none] at member
  exact nomatch member

/-- Only the version of a grid may differ after a refusal. -/
theorem cases_of_edit (refused : change.edit.apply grid = (.error refusal, left)) :
    left = (if change.Raises grid then grid.raised else grid) ∧ IsRefusal grid.version refusal := by
  have kept (none : change.early = []) (whole : left = grid ∧ IsRefusal grid.version refusal) :
      left = (if change.Raises grid then grid.raised else grid) ∧ IsRefusal grid.version refusal :=
    ⟨by rw [if_neg (not_raises none), whole.1], whole.2⟩
  cases change with
  | append row => exact kept rfl (GridOf.kept_of_checkAll_modify refused)
  | insert index row =>
      rw [edit, GridOf.insertRow, Edit.apply_get_bind] at refused
      exact kept rfl (GridOf.kept_of_place refused)
  | set index row =>
      rw [edit, GridOf.setRow, Edit.apply_get_bind] at refused
      exact kept rfl (GridOf.kept_of_place refused)
  | setMeta key value => exact kept rfl (GridOf.kept_of_setMeta refused)
  | setMetadata metadata => exact kept rfl (GridOf.kept_of_checkAll_modify refused)
  | addColumn name metadata => exact GridOf.cases_of_addColumnAt refused
  | addColumnAt name metadata position => exact GridOf.cases_of_addColumnAt refused
  | setColumnMeta column key value => exact GridOf.cases_of_setColumnMeta refused
  | setColumns columns => exact kept rfl (GridOf.kept_of_checkAll_modify refused)

/-- A change that makes another grid where it is admitted leaves the index where it is refused. -/
theorem refused_of_match {edit : Edit Unit} {made : Grid → IndexedGrid}
    (refused : (match edit.apply g.grid with
      | (.ok _, grid) => (.ok (), made grid)
      | (.error cause, grid) => (.error cause, { g with grid })) =
        ((.error refusal, after) : Except Error Unit × IndexedGrid)) :
    edit.apply g.grid = (.error refusal, after.grid) ∧ after.index = g.index := by
  split at refused
  · cases refused
  · next cause grid applied =>
    obtain ⟨sameRefusal, rfl⟩ := Prod.mk.inj refused
    exact ⟨Except.error.inj sameRefusal ▸ applied, rfl⟩

/-- The index is forgotten or extended by changes that are admitted only. -/
theorem apply_refused (refused : change.apply g = (.error refusal, after)) :
    change.edit.apply g.grid = (.error refusal, after.grid) ∧ after.index = g.index := by
  have ofHeader {edit : Edit Unit} (refused : editHeader edit g = (.error refusal, after)) :
      edit.apply g.grid = (.error refusal, after.grid) ∧ after.index = g.index := by
    obtain ⟨outcome, rfl⟩ := Prod.mk.inj refused
    exact ⟨Prod.ext outcome rfl, rfl⟩
  cases change with
  | append row =>
      exact @refused_of_match _ _ _ _ (⟨·, g.index.map (IdIndex.add · row g.grid.rows.length)⟩) refused
  | insert | set => exact @refused_of_match _ _ _ _ (⟨·, none⟩) refused
  | setMeta | setMetadata | addColumn | addColumnAt | setColumnMeta | setColumns => exact ofHeader refused

end Change

/-- After a refusal a grid is as it was, with its look-ups, but for its version: a grid that is not
pinned keeps the 3.0 of values that came with a column, though they were not added. -/
theorem kept_of_refused {change : Change} {g after : IndexedGrid} {refusal : Error}
    (refused : change.apply g = (.error refusal, after)) :
    after = { g with grid := if change.Raises g.grid then g.grid.raised else g.grid } ∧
      (after = g ↔ ¬ change.Raises g.grid) ∧
      (∀ id, (positionOf? id after).1 = (positionOf? id g).1 ∧ (rowOf? id after).1 = (rowOf? id g).1) ∧
      IsRefusal g.grid.version refusal := by
  obtain ⟨applied, sameIndex⟩ := Change.apply_refused refused
  obtain ⟨left, isRefusal⟩ := Change.cases_of_edit applied
  have shape : after = { g with grid := if change.Raises g.grid then g.grid.raised else g.grid } := by
    rw [← left, ← sameIndex]
  refine ⟨shape, ?_, fun id => ?_, isRefusal⟩
  · by_cases raises : change.Raises g.grid
    · rw [shape, if_pos raises]
      exact ⟨fun same => absurd (congrArg grid same) (GridOf.raised_ne raises.2), fun no => absurd raises no⟩
    · rw [shape, if_neg raises]
      exact ⟨fun _ => raises, fun _ => rfl⟩
  · rw [shape]
    split <;> exact ⟨rfl, rfl⟩

/-- A pinned grid with one meter, which has been looked up. -/
def meters : IndexedGrid := (ofGrid (.withVersion .two)).run
  [.append ⟨[("id", .ref ⟨"m1", none⟩), ("elec", .marker)]⟩, .position ⟨"m1", none⟩]

/-- A meter with a list of points, which needs 3.0. -/
def listedMeter : Change := .append ⟨[("id", .ref ⟨"m2", none⟩), ("points", .list [.marker])]⟩

theorem kept_of_refused_meters : listedMeter.apply meters = (.error (.featureGate "List" .two), meters) ∧
    ¬ listedMeter.Raises meters.grid ∧ IsRefusal .two (.featureGate "List" .two) := by
  have refused : listedMeter.apply meters = (.error (.featureGate "List" .two), meters) := rfl
  obtain ⟨_, same, _, isRefusal⟩ := kept_of_refused refused
  exact ⟨refused, same.mp rfl, isRefusal⟩

/-- A grid that is not pinned, with a column. -/
def areas : IndexedGrid := (ofGrid .new).run [.addColumn "area" .empty .last]

/-- A second column of the same name is refused, and its metadata, which is not kept, moves the
version. -/
theorem not_kept_by_addColumn : ¬ ∀ (change : Change) (g after : IndexedGrid) (refusal : Error),
    change.apply g = (.error refusal, after) → after = g := by
  intro claim
  have same := claim (.addColumn "area" ⟨[("doc", .na)]⟩) areas _ _ rfl
  exact absurd (congrArg (·.grid.version) same) (by decide)

end IndexedGrid

end Haystack
