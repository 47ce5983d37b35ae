import Haystack.Json.Reader
import Haystack.Proofs.Version

/-!
The official versions that stand in for others.

A version from 3.0 on is taken for 3.0 and an older one for 2.0. So the nearest official version lies
on the same side of 3.0, and readers, which look at it, draw the line where grids and writers do,
which look at the version itself.
-/
namespace Haystack.Version

open Std (TransCmp)

variable {u v w : Version} {value : Value}

theorem nearest_eq (v : Version) : v.nearest = if v.IsAtLeastThree then .three else .two := by
  split
  · next new => exact nearest_of_isAtLeastThree new
  · next old => exact nearest_of_not_isAtLeastThree old

theorem isAtLeastThree_nearest_iff : v.nearest.IsAtLeastThree ↔ v.IsAtLeastThree := by
  have three : three.IsAtLeastThree := by decide
  have two : ¬ two.IsAtLeastThree := by decide
  rw [nearest_eq]
  split
  · next new => exact iff_of_true three new
  · next old => exact iff_of_false two old

theorem isAtLeastThree_iff_isLE : v.IsAtLeastThree ↔ (compare Version.three v).isLE = true := by
  rw [IsAtLeastThree, compare_swap v three]
  cases compare v three <;> simp

theorem IsAtLeastThree.mono (new : v.IsAtLeastThree) (before : (compare v w).isLE = true) :
    w.IsAtLeastThree :=
  isAtLeastThree_iff_isLE.mpr (TransCmp.isLE_trans (isAtLeastThree_iff_isLE.mp new) before)

/-- Of two versions the older one is not taken for a newer one. -/
theorem nearest_mono (before : (compare v w).isLE = true) :
    (compare v.nearest w.nearest).isLE = true := by
  rw [nearest_eq, nearest_eq]
  by_cases old : v.IsAtLeastThree
  · rw [if_pos old, if_pos (old.mono before)]
    decide
  · rw [if_neg old]
    split <;> decide

/-! ## Gates -/

theorem requiredVersion_eq_three (needs : value.requiredVersion ≠ none) :
    value.requiredVersion = some .three := by
  cases value <;> first | rfl | exact absurd rfl needs

theorem fits_iff (needs : value.requiredVersion ≠ none) : value.fits v = true ↔ v.IsAtLeastThree := by
  rw [Value.fits, requiredVersion_eq_three needs]
  exact bne_iff_ne

/-- A value that needs 3.0 moves up an older version that is not pinned, and is refused by one that
is; either way the version does not stay as it was. -/
theorem admitted_iff (pinned : Bool) (needs : value.requiredVersion ≠ none) :
    GridOf.admitted v pinned value = .ok v ↔ v.IsAtLeastThree := by
  rw [← fits_iff needs, GridOf.admitted]
  cases fits : value.fits v with
  | true => simp
  | false =>
      have old : v ≠ three := by
        rintro rfl
        have new : value.fits three = true := (fits_iff needs).mpr (by decide)
        exact nomatch new.symm.trans fits
      cases pinned with
      | true => simp
      | false => simp [requiredVersion_eq_three needs, Ne.symm old]

/-- Readers, grids and writers tell old from new at the same versions. -/
structure DrawsLine (v : Version) : Prop where
  zinc (offset : Nat) (feature : String) :
    Zinc.requireThree v.nearest offset feature = .ok () ↔ v.IsAtLeastThree
  json (feature : String) : Json.requireThree v.nearest feature = .ok () ↔ v.IsAtLeastThree
  grids (value : Value) (pinned : Bool) : value.requiredVersion ≠ none →
    (GridOf.admitted v pinned value = .ok v ↔ v.IsAtLeastThree)
  writers (value : Value) : value.requiredVersion ≠ none →
    (value.ensureFits v = .ok () ↔ v.IsAtLeastThree)

theorem drawsLine (v : Version) : v.DrawsLine where
  zinc offset feature := by
    rw [← isAtLeastThree_nearest_iff, IsAtLeastThree, Zinc.requireThree]
    cases compare v.nearest three <;> simp
  json feature := by
    rw [← isAtLeastThree_nearest_iff, IsAtLeastThree, Json.requireThree]
    cases compare v.nearest three <;> simp [Json.refused]
  grids _ pinned needs := admitted_iff pinned needs
  writers value needs := by
    rw [← fits_iff needs, Value.ensureFits]
    cases value.fits v <;> simp

/-! ## The order and the nearest versions -/

/-- The laws of the order, for any three versions. -/
structure Preordered (u v w : Version) : Prop where
  refl : compare v v = .eq
  swap : compare w v = (compare v w).swap
  trans : (compare u v).isLE = true → (compare v w).isLE = true → (compare u w).isLE = true
  same : same v w = true ↔ compare v w = .eq
  /-- Groups of zeros behind the others do not count. -/
  zeros (left right : Nat) : compare (v.withZeros left) (w.withZeros right) = compare v w

/-- Versions are totally preordered, whatever groups and text they have. The nearest official version
is 2.0 or 3.0; it keeps the order and is its own nearest, and it is before 3.0 for the versions before
3.0, so that all gates let the same values pass. -/
theorem preordered_and_nearest (u v w : Version) :
    Preordered u v w ∧
      ((compare v w).isLE = true → (compare v.nearest w.nearest).isLE = true) ∧
      v.nearest.nearest = v.nearest ∧ (v.nearest = .two ∨ v.nearest = .three) ∧
      (compare v.nearest .three = .lt ↔ compare v .three = .lt) ∧ v.DrawsLine := by
  have official : v.nearest = .two ∨ v.nearest = .three := by
    rw [nearest_eq]
    split
    · exact .inr rfl
    · exact .inl rfl
  have idempotent : v.nearest.nearest = v.nearest := by
    rcases official with two | three
    · rw [two]; decide
    · rw [three]; decide
  have side : compare v.nearest .three = .lt ↔ compare v .three = .lt :=
    not_iff_not.mp isAtLeastThree_nearest_iff
  exact ⟨⟨compare_self v, compare_swap v w, TransCmp.isLE_trans, beq_iff_eq, compare_withZeros v w⟩,
    nearest_mono, idempotent, official, side, drawsLine v⟩

/-- Three versions of different lengths, the middle one with a text. -/
theorem preordered_and_nearest_beta :
    let u : Version := ⟨[2, 9, 9], none⟩
    let v : Version := ⟨[2, 10], some "-beta"⟩
    let w : Version := ⟨[3, 0, 0, 1], none⟩
    (compare u v).isLE = true ∧ (compare v w).isLE = true ∧ (compare u w).isLE = true ∧
      (compare v.nearest w.nearest).isLE = true := by
  intro u v w
  have first : (compare u v).isLE = true := by decide
  have second : (compare v w).isLE = true := by decide
  have laws := preordered_and_nearest u v w
  exact ⟨first, second, laws.1.trans first second, laws.2.1 second⟩

end Haystack.Version
