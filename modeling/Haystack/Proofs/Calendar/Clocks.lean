import Haystack.Calendar.DateTime
import Mathlib.Data.List.Chain

/-!
When clocks show a local time.

Clocks go on evenly from one change to the next. A local time that no change skips, and that no change
sets the clocks back behind, divides all instants into those before it and those from it on: it is shown
at the first of the latter.
-/
namespace Haystack

/-- A change of clocks: from an instant on they have another offset than before. -/
structure Shift where
  instant : Int
  before : Int
  after : Int

namespace Shift

/-- The clocks go forward past a local time without showing it. -/
def Skips (shift : Shift) (localTime : Int) : Prop :=
  shift.instant + shift.before ≤ localTime ∧ localTime < shift.instant + shift.after

/-- The clocks go back behind a local time that they have shown. -/
def Returns (shift : Shift) (localTime : Int) : Prop :=
  shift.instant + shift.after < localTime ∧ localTime < shift.instant + shift.before

instance (shift : Shift) (localTime : Int) : Decidable (shift.Skips localTime) :=
  inferInstanceAs (Decidable (_ ∧ _))

instance (shift : Shift) (localTime : Int) : Decidable (shift.Returns localTime) :=
  inferInstanceAs (Decidable (_ ∧ _))

end Shift

namespace Clocks

/-- Changes with the offset before each. -/
def shiftsFrom (before : Int) : List (Int × Int) → List Shift
  | [] => []
  | (instant, after) :: rest => ⟨instant, before, after⟩ :: shiftsFrom after rest

def shifts (clocks : Clocks) : List Shift := shiftsFrom clocks.first clocks.changes

/-- No change skips a local time, and none goes back behind it. -/
def Steady (clocks : Clocks) (localTime : Int) : Prop :=
  ∀ shift ∈ clocks.shifts, ¬ shift.Skips localTime ∧ ¬ shift.Returns localTime

instance (clocks : Clocks) (localTime : Int) : Decidable (clocks.Steady localTime) :=
  inferInstanceAs (Decidable (∀ shift ∈ clocks.shifts, _))

/-- Clocks as the time zone database has them: their changes are in order, and they are never set back
by more than a day. -/
structure Sound (clocks : Clocks) : Prop where
  ordered : clocks.changes.Pairwise (·.1 < ·.1)
  modest : ∀ earlier later, earlier < later →
    clocks.localAt earlier < clocks.localAt later + TimeOfDay.secondsPerDay

variable {clocks : Clocks} {first after instant localTime : Int} {rest : List (Int × Int)}

/-! ## Offsets -/

theorem offsetAt_cons (first : Int) (change : Int × Int) (rest : List (Int × Int)) (time : Int) :
    offsetAt ⟨first, change :: rest⟩ time =
      offsetAt ⟨if change.1 ≤ time then change.2 else first, rest⟩ time := rfl

/-- Before all changes clocks have the first offset. -/
theorem localAt_of_before {changes : List (Int × Int)}
    (before : ∀ change ∈ changes, instant < change.1) :
    localAt ⟨first, changes⟩ instant = instant + first := by
  induction changes with
  | nil => rfl
  | cons change rest ih =>
      rw [List.forall_mem_cons] at before
      rw [localAt, offsetAt_cons, if_neg (Int.not_le.mpr before.1)]
      exact ih before.2

/-- What clocks show before their first change, and from it on. -/
theorem localAt_cons (ordered : ((instant, after) :: rest).Pairwise (·.1 < ·.1)) (time : Int) :
    localAt ⟨first, (instant, after) :: rest⟩ time =
      if time < instant then time + first else localAt ⟨after, rest⟩ time := by
  obtain ⟨later, _⟩ := List.pairwise_cons.mp ordered
  split
  · next before =>
    refine localAt_of_before (List.forall_mem_cons.mpr ⟨before, fun change member => ?_⟩)
    exact Int.lt_trans before (later change member)
  · next reached => rw [localAt, offsetAt_cons, if_pos (Int.not_lt.mp reached), localAt]

/-- Up to the first change the clocks that have been changed by it go on evenly. -/
theorem localAt_changed (ordered : ((instant, after) :: rest).Pairwise (·.1 < ·.1)) {time : Int}
    (early : time ≤ instant) : localAt ⟨after, rest⟩ time = time + after :=
  localAt_of_before fun change member =>
    Int.lt_of_le_of_lt early ((List.pairwise_cons.mp ordered).1 change member)

/-- A steady local time is shown at an instant that divides what is shown before it from what is shown
later. -/
theorem exists_instant_of_steady (ordered : clocks.changes.Pairwise (·.1 < ·.1))
    (steady : clocks.Steady localTime) :
    ∃ shown, clocks.localAt shown = localTime ∧ ∀ time, shown ≤ time ↔ localTime ≤ clocks.localAt time := by
  obtain ⟨first, changes⟩ := clocks
  induction changes generalizing first with
  | nil =>
      have even : ∀ time, localAt ⟨first, []⟩ time = time + first := fun _ => rfl
      refine ⟨localTime - first, ?_, fun time => ?_⟩ <;> rw [even] <;> omega
  | cons change rest ih =>
      obtain ⟨instant, after⟩ := change
      obtain ⟨⟨noSkip, noReturn⟩, steady⟩ := List.forall_mem_cons.mp steady
      obtain ⟨shown, isShown, divides⟩ := ih after (List.pairwise_cons.mp ordered).2 steady
      have atChange := localAt_changed ordered (Int.le_refl instant)
      simp only [Shift.Skips, Shift.Returns] at noSkip noReturn
      by_cases passed : localTime < instant + first
      · -- It is shown before the change, and no later time is before it.
        refine ⟨localTime - first, ?_, fun time => ?_⟩
        · rw [localAt_cons ordered, if_pos (by omega)]
          omega
        · rw [localAt_cons ordered]
          split
          · omega
          · next reached =>
            have fromChange := (divides instant).mpr (by omega)
            exact iff_of_true (by omega) ((divides time).mp (by omega))
      · have reached : instant ≤ shown := Int.not_lt.mp fun early => by
          have before := localAt_changed ordered (Int.le_of_lt early)
          omega
        refine ⟨shown, ?_, fun time => ?_⟩
        · rw [localAt_cons ordered, if_neg (by omega), isShown]
        · rw [localAt_cons ordered]
          split
          · omega
          · exact divides time

/-! ## Looking local times up -/

theorem offsetAt_mem (clocks : Clocks) (instant : Int) :
    clocks.offsetAt instant ∈ clocks.first :: clocks.changes.map (·.2) := by
  obtain ⟨first, changes⟩ := clocks
  induction changes generalizing first with
  | nil => exact List.mem_singleton_self first
  | cons change rest ih =>
      rw [offsetAt_cons, List.map_cons]
      split
      · exact List.mem_cons_of_mem _ (ih change.2)
      · rcases List.mem_cons.mp (ih first) with isFirst | inRest
        · exact isFirst ▸ List.mem_cons_self
        · exact List.mem_cons_of_mem _ (List.mem_cons_of_mem _ inRest)

theorem mem_instantsOf : instant ∈ clocks.instantsOf localTime ↔ clocks.localAt instant = localTime := by
  simp only [instantsOf, List.mem_filter, List.mem_map, List.mem_eraseDups, beq_iff_eq,
    and_iff_right_iff_imp]
  intro shown
  refine ⟨clocks.offsetAt instant, clocks.offsetAt_mem instant, ?_⟩
  rw [← shown, localAt]
  omega

/-- The instant that is found is the first one at which the local time is shown. -/
theorem earliest?_eq_some_iff : clocks.earliest? localTime = some instant ↔
    clocks.localAt instant = localTime ∧ ∀ time, clocks.localAt time = localTime → instant ≤ time := by
  simp only [earliest?, List.min?_eq_some_iff, mem_instantsOf]

theorem earliest?_eq_none_iff :
    clocks.earliest? localTime = none ↔ ∀ time, clocks.localAt time ≠ localTime := by
  rw [earliest?, List.min?_eq_none_iff, List.eq_nil_iff_forall_not_mem]
  simp only [mem_instantsOf, Ne]

/-! ## Clocks that are sound -/

/-- No offset is more than a day behind the greatest one before it. -/
def withinADay (greatest : Int) : List Int → Bool
  | [] => true
  | offset :: rest =>
      greatest ≤ offset + TimeOfDay.secondsPerDay && withinADay (max greatest offset) rest

theorem le_of_withinADay {greatest : Int} {offsets : List Int}
    (within : withinADay greatest offsets = true) :
    ∀ offset ∈ offsets, greatest ≤ offset + TimeOfDay.secondsPerDay := by
  induction offsets generalizing greatest with
  | nil => exact fun _ member => nomatch member
  | cons offset rest ih =>
      simp only [withinADay, Bool.and_eq_true, decide_eq_true_eq] at within
      refine List.forall_mem_cons.mpr ⟨within.1, fun other member => ?_⟩
      exact Int.le_trans (Int.le_max_left _ _) (ih within.2 other member)

/-- Clocks that lose no more than a day from any offset to a later one. -/
theorem sound_of_withinADay (ordered : clocks.changes.IsChain (·.1 < ·.1))
    (within : withinADay clocks.first (clocks.changes.map (·.2)) = true) : clocks.Sound := by
  replace ordered : clocks.changes.Pairwise (·.1 < ·.1) := List.isChain_iff_pairwise.mp ordered
  refine ⟨ordered, fun earlier later isEarlier => ?_⟩
  obtain ⟨first, changes⟩ := clocks
  suffices bounded : ∀ greatest, first ≤ greatest → withinADay greatest (changes.map (·.2)) = true →
      offsetAt ⟨first, changes⟩ earlier ≤ offsetAt ⟨first, changes⟩ later + TimeOfDay.secondsPerDay by
    have offsets := bounded first (Int.le_refl first) within
    unfold localAt
    omega
  clear within
  induction changes generalizing first with
  | nil => exact fun _ _ _ => Int.le_add_of_nonneg_right (by decide)
  | cons change rest ih =>
      intro greatest isGreatest within
      have each := le_of_withinADay within
      simp only [List.map_cons, withinADay, Bool.and_eq_true] at within
      have restOrdered := (List.pairwise_cons.mp ordered).2
      by_cases reached : change.1 ≤ earlier
      · rw [offsetAt_cons, offsetAt_cons, if_pos reached,
          if_pos (Int.le_trans reached (Int.le_of_lt isEarlier))]
        exact ih change.2 restOrdered _ (Int.le_max_right _ _) within.2
      · have even : localAt ⟨first, change :: rest⟩ earlier = earlier + first := by
          rw [localAt_cons ordered, if_pos (Int.not_le.mp reached)]
        have isFirst : offsetAt ⟨first, change :: rest⟩ earlier = first := Int.add_left_cancel even
        rw [isFirst]
        rcases List.mem_cons.mp (offsetAt_mem ⟨first, change :: rest⟩ later) with same | inRest
        · rw [same]
          exact Int.le_add_of_nonneg_right (by decide)
        · exact Int.le_trans isGreatest (each _ inRest)

end Clocks

theorem Zone.zoneOffsets_sound : ∀ entry ∈ zoneOffsets, entry.2.2.IsChain (·.1 < ·.1) ∧
    Clocks.withinADay entry.2.1 (entry.2.2.map (·.2)) = true := by
  decide +kernel

/-- The clocks that are recorded are sound. -/
theorem Zone.sound_clocks (zone : Zone) : zone.clocks.Sound := by
  have even (first : Int) : Clocks.Sound ⟨first, []⟩ := Clocks.sound_of_withinADay .nil rfl
  unfold clocks
  split
  · exact even _
  split
  · next first changes found =>
    obtain ⟨before, after, shape, _⟩ := List.lookup_eq_some_iff.mp found
    obtain ⟨ordered, within⟩ := zoneOffsets_sound (zone.name, first, changes) (shape ▸ by simp)
    exact Clocks.sound_of_withinADay ordered within
  · exact even 0

end Haystack
