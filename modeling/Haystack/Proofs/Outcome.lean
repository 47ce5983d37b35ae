import Mathlib.Data.List.Forall2

/-!
Computations that may be refused: taken apart where they succeed, and put together of others that do.
-/
namespace Haystack.Outcome

variable {ε α β : Type} {first : Except ε α} {a : α} {b : β}

/-! ## Computations that succeed -/

theorem of_bind {next : α → Except ε β} (succeeds : (first >>= next) = .ok b) :
    ∃ a, first = .ok a ∧ next a = .ok b := by
  cases first with
  | error refusal => exact nomatch succeeds
  | ok a => exact ⟨a, rfl, succeeds⟩

theorem of_map {make : α → β} (succeeds : first.map make = .ok b) :
    ∃ a, first = .ok a ∧ make a = b := by
  cases first with
  | error refusal => exact nomatch succeeds
  | ok a => exact ⟨a, rfl, Except.ok.inj succeeds⟩

/-- Applying to each element succeeds with what it succeeds with on each. -/
theorem mapM_ok_iff {f : α → Except ε β} {elements : List α} {bs : List β} :
    elements.mapM f = .ok bs ↔ List.Forall₂ (fun a b => f a = .ok b) elements bs := by
  induction elements generalizing bs with
  | nil =>
      rw [List.forall₂_nil_left_iff]
      exact ⟨fun same => (Except.ok.inj same).symm, fun same => congrArg Except.ok same.symm⟩
  | cons a elements ih =>
      rw [List.mapM_cons, List.forall₂_cons_left_iff]
      constructor
      · intro succeeds
        obtain ⟨b, here, succeeds⟩ := of_bind succeeds
        obtain ⟨others, rest, succeeds⟩ := of_bind succeeds
        exact ⟨b, others, here, ih.mp rest, (Except.ok.inj succeeds).symm⟩
      · rintro ⟨b, others, here, rest, rfl⟩
        rw [here, ih.mpr rest]
        rfl

theorem of_mapM {f : α → Except ε β} {elements : List α} {bs : List β}
    (succeeds : elements.mapM f = .ok bs) (member : b ∈ bs) : ∃ a ∈ elements, f a = .ok b := by
  induction mapM_ok_iff.mp succeeds with
  | nil => exact nomatch member
  | @cons a made elements bs here others ih =>
      rcases List.mem_cons.mp member with rfl | member
      · exact ⟨a, List.mem_cons_self, here⟩
      · obtain ⟨other, inRest, isMade⟩ := ih (mapM_ok_iff.mpr others) member
        exact ⟨other, List.mem_cons_of_mem _ inRest, isMade⟩

theorem of_mapM_map {γ : Type} {f : α → Except ε β} {make : β → γ} {elements : List α} {made : List γ}
    (succeeds : elements.mapM (fun a => (f a).map make) = .ok made) :
    ∃ bs, elements.mapM f = .ok bs ∧ made = bs.map make := by
  induction mapM_ok_iff.mp succeeds with
  | nil => exact ⟨[], rfl, rfl⟩
  | @cons a made elements others here rest ih =>
      obtain ⟨b, isMade, rfl⟩ := of_map here
      obtain ⟨bs, areMade, rfl⟩ := ih (mapM_ok_iff.mpr rest)
      exact ⟨b :: bs, mapM_ok_iff.mpr (.cons isMade (mapM_ok_iff.mp areMade)), rfl⟩

theorem bind_ok {next : α → Except ε β} (succeeds : first = .ok a) : (first >>= next) = next a := by
  rw [succeeds]
  rfl

/-! ## Success of a whole -/

/-- A computation is not refused. -/
def Succeeds (computation : Except ε α) : Prop := ∃ a, computation = .ok a

theorem succeeds_ok (a : α) : Succeeds (.ok a : Except ε α) := ⟨a, rfl⟩

theorem succeeds_of_isOk (isOk : first.isOk = true) : Succeeds first := by
  cases first with
  | error refusal => exact nomatch isOk
  | ok a => exact succeeds_ok a

theorem Succeeds.bind {next : α → Except ε β} (succeeds : Succeeds first)
    (further : ∀ a, Succeeds (next a)) : Succeeds (first >>= next) := by
  obtain ⟨a, rfl⟩ := succeeds
  exact further a

theorem Succeeds.map {make : α → β} (succeeds : Succeeds first) : Succeeds (first.map make) := by
  obtain ⟨a, rfl⟩ := succeeds
  exact succeeds_ok (make a)

theorem succeeds_mapM {f : α → Except ε β} {elements : List α}
    (each : ∀ a ∈ elements, Succeeds (f a)) : Succeeds (elements.mapM f) := by
  induction elements with
  | nil => exact succeeds_ok []
  | cons a elements ih =>
      rw [List.forall_mem_cons] at each
      rw [List.mapM_cons]
      exact each.1.bind fun _ => (ih each.2).bind fun _ => succeeds_ok _

end Haystack.Outcome
