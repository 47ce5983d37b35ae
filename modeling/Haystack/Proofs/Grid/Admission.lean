import Haystack.Proofs.Grid.Edits
import Haystack.Proofs.Version

/-!
What each checked change of a grid does, whether it is admitted or refused.

Values are admitted one after the other. Until one is refused the version of a grid that is not pinned
may move up to 3.0, and it stays there. What has been checked fits the version after the change.
-/
namespace Haystack

/-- The versions that a grid can have once it has admitted values. -/
def GridOf.Raises (grid : Grid) (version : Version) : Prop :=
  version = grid.version ∨
    grid.pinned = false ∧ compare grid.version .three = .lt ∧ version = .three

namespace GridOf

variable {α : Type} {grid after : Grid} {version : Version} {value : Value} {values : List Value}

theorem fits_three (value : Value) : value.fits .three = true := by
  cases value <;> rfl

theorem Raises.fits (raises : grid.Raises version) (fits : value.fits grid.version = true) :
    value.fits version = true := by
  cases raises with
  | inl same => rwa [same]
  | inr raised =>
      obtain ⟨_, _, rfl⟩ := raised
      exact fits_three value

theorem Raises.trans {later : Version} (raises : grid.Raises version)
    (further : ({ grid with version } : Grid).Raises later) : grid.Raises later := by
  cases raises with
  | inl same =>
      subst same
      exact further
  | inr raised =>
      obtain ⟨unpinned, below, rfl⟩ := raised
      cases further with
      | inl same => exact .inr ⟨unpinned, below, same⟩
      | inr raised => exact .inr ⟨unpinned, below, raised.2.2⟩

/-! ## Checks -/

/-- A check of values that may be followed by other changes. -/
inductive Checked (grid : Grid) (values : List Value) : Except Error Unit × Grid → Prop where
  | admitted (version : Version) (raises : grid.Raises version)
      (fits : ∀ value ∈ values, value.fits version = true) :
      Checked grid values (.ok (), { grid with version })
  | refused (version : Version) (raises : grid.Raises version) (refusal : Error) :
      Checked grid values (.error refusal, { grid with version })

theorem checked_check (value : Value) (grid : Grid) :
    Checked grid [value] ((check value).apply grid) := by
  by_cases fits : value.fits grid.version = true
  · rw [check_apply fits]
    exact .admitted grid.version (.inl rfl) (by simpa using fits)
  · have below : compare grid.version .three = .lt ∧ value.requiredVersion = some .three := by
      cases value <;> simp_all [Value.fits, Value.requiredVersion]
    have step : (check value).apply grid =
        match admitted grid.version grid.pinned value with
        | .ok version => (.ok (), { grid with version })
        | .error refusal => (.error refusal, grid) := by
      unfold check
      rw [Edit.apply_get_bind]
      cases admitted grid.version grid.pinned value <;> rfl
    rw [step, admitted, if_neg fits]
    by_cases pinned : grid.pinned = true
    · rw [if_pos pinned]
      exact .refused grid.version (.inl rfl) _
    · rw [if_neg pinned, below.2]
      rw [Bool.not_eq_true] at pinned
      exact .admitted .three (.inr ⟨pinned, below.1, rfl⟩) fun value _ => fits_three value

theorem checked_checkAll (values : List Value) (grid : Grid) :
    Checked grid values ((checkAll values).apply grid) := by
  induction values generalizing grid with
  | nil => exact .admitted grid.version (.inl rfl) fun _ member => nomatch member
  | cons value rest ih =>
      rw [checkAll]
      generalize first : (check value).apply grid = result
      have checked := checked_check value grid
      rw [first] at checked
      cases checked with
      | refused version raises refusal =>
          rw [Edit.apply_bind_error first]
          exact .refused version raises refusal
      | admitted version raises fits =>
          rw [Edit.apply_bind first]
          generalize (checkAll rest).apply { grid with version } = result, ih { grid with version } = checked
          cases checked with
          | refused later further refusal => exact .refused later (raises.trans further) refusal
          | admitted later further others =>
              refine .admitted later (raises.trans further) (List.forall_mem_cons.mpr ⟨?_, others⟩)
              exact further.fits (fits value (by simp))

/-- A check that admits every value leaves all but the version alone. -/
theorem exists_version_of_checkAll (checked : (checkAll values).apply grid = (.ok (), after)) :
    ∃ version, grid.Raises version ∧ after = { grid with version } := by
  have cases := checked_checkAll values grid
  rw [checked] at cases
  cases cases with
  | admitted version raises fits => exact ⟨version, raises, rfl⟩

/-- What holds of a grid after a check, whether the next change runs or nothing does. -/
theorem Checked.cases_bind {first : Edit Unit} {next : Edit α} {motive : Grid → Prop}
    (checked : Checked grid values (first.apply grid))
    (admitted : ∀ version, grid.Raises version → (∀ value ∈ values, value.fits version = true) →
      motive (next.apply { grid with version }).2)
    (refused : ∀ version, grid.Raises version → motive { grid with version }) :
    motive ((first >>= fun _ => next).apply grid).2 := by
  generalize applied : first.apply grid = result at checked
  cases checked with
  | admitted version raises fits =>
      rw [Edit.apply_bind applied]
      exact admitted version raises fits
  | refused version raises refusal =>
      rw [Edit.apply_bind_error applied]
      exact refused version raises

end GridOf

end Haystack
