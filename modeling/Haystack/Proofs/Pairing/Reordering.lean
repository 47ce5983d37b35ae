import Haystack.Proofs.Pairing
import Mathlib.Data.List.Perm.Basic

/-!
Pairing as a reordering of one of the lists, and pairing from the other side.

Each element on the left takes the first on the right that will do. Seen from the right that is no
other choice if the relation is symmetric between the lists, so neither side is distinguished among
lists of one length. That takes no equivalence, and no counts of its classes.
-/
namespace Haystack.Pairing

variable {α : Type} {relates : α → α → Bool} {left right : List α}

theorem pairsOff_cons_of_findIdx? {first : α} {rest : List α} {index : Nat}
    (found : right.findIdx? (relates first) = some index) :
    pairsOff relates (first :: rest) right = pairsOff relates rest (right.eraseIdx index) := by
  rw [pairsOff, found]

theorem pairsOff_cons_of_none {first : α} {rest : List α}
    (none : ∀ other ∈ right, relates first other = false) :
    pairsOff relates (first :: rest) right = false := by
  rw [pairsOff, List.findIdx?_eq_none_iff.mpr none]

/-- A pending element that nothing relates to might as well not be there. -/
theorem pairsOff_pending_cons {pending : α} (none : ∀ element ∈ left, relates element pending = false) :
    pairsOff relates left (pending :: right) = pairsOff relates left right := by
  induction left generalizing right with
  | nil => rfl
  | cons first rest ih =>
      rw [List.forall_mem_cons] at none
      simp only [pairsOff, List.findIdx?_cons, none.1, Bool.false_eq_true, if_false]
      cases right.findIdx? (relates first) with
      | none => rfl
      | some index => exact ih none.2

/-- The first pending element goes to the first one that relates to it. -/
theorem pairsOff_pending_taken {pending taker : α} {before after : List α}
    (none : ∀ element ∈ before, relates element pending = false)
    (taken : relates taker pending = true) :
    pairsOff relates (before ++ taker :: after) (pending :: right) =
      pairsOff relates (before ++ after) right := by
  induction before generalizing right with
  | nil => simp [pairsOff, List.findIdx?_cons, taken]
  | cons first rest ih =>
      rw [List.forall_mem_cons] at none
      simp only [List.cons_append, pairsOff, List.findIdx?_cons, none.1, Bool.false_eq_true, if_false]
      cases right.findIdx? (relates first) with
      | none => rfl
      | some index => exact ih none.2

/-- Pairing lists of one length succeeds from either side or from none, be the relation transitive or
not: the first element on the left and the first on the right that it relates to are paired both
ways, since no earlier one on the right competes. -/
theorem pairsOff_comm (symm : ∀ a ∈ left, ∀ b ∈ right, relates a b = relates b a)
    (sizes : left.length = right.length) :
    pairsOff relates left right = pairsOff relates right left := by
  induction left generalizing right with
  | nil => rw [List.length_eq_zero_iff.mp sizes.symm]
  | cons first rest ih =>
      rw [List.forall_mem_cons] at symm
      cases found : right.findIdx? (relates first) with
      | none =>
          have none := List.findIdx?_eq_none_iff.mp found
          have noneBack : ∀ b ∈ right, relates b first = false := fun b member =>
            (symm.1 b member).symm.trans (none b member)
          rw [pairsOff_cons_of_none none, pairsOff_pending_cons noneBack]
          cases paired : pairsOff relates right rest with
          | false => rfl
          | true =>
              have fewer := length_le_of_pairsOff paired
              rw [List.length_cons] at sizes
              omega
      | some index =>
          obtain ⟨bound, accepted, earlier⟩ := List.findIdx?_eq_some_iff_getElem.mp found
          have shape : right = right.take index ++ right[index] :: right.drop (index + 1) := by simp
          have erased : right.eraseIdx index = right.take index ++ right.drop (index + 1) :=
            List.eraseIdx_eq_take_drop_succ ..
          have noneBack : ∀ b ∈ right.take index, relates b first = false := by
            intro b member
            obtain ⟨position, inside, rfl⟩ := List.mem_iff_getElem.mp member
            rw [List.length_take] at inside
            rw [List.getElem_take, ← symm.1 _ (List.getElem_mem _)]
            exact Bool.eq_false_iff.mpr (earlier position (by omega))
          have back : relates right[index] first = true :=
            (symm.1 _ (List.getElem_mem bound)).symm.trans accepted
          have others : pairsOff relates rest (right.eraseIdx index) =
              pairsOff relates (right.eraseIdx index) rest :=
            ih (fun a member b inRight => symm.2 a member b (List.mem_of_mem_eraseIdx inRight)) (by
              rw [List.length_eraseIdx_of_lt bound, ← sizes]
              rfl)
          calc pairsOff relates (first :: rest) right
            _ = pairsOff relates (right.eraseIdx index) rest := by
                rw [pairsOff_cons_of_findIdx? found, others]
            _ = pairsOff relates (right.take index ++ right[index] :: right.drop (index + 1))
                  (first :: rest) := by rw [pairsOff_pending_taken noneBack back, erased]
            _ = pairsOff relates right (first :: rest) := by rw [← shape]

/-- What pairs off is related in order once the right is reordered, with what it has over at its end. -/
theorem exists_perm_of_pairsOff (paired : pairsOff relates left right = true) :
    ∃ partners spare, (partners ++ spare).Perm right ∧
      List.Forall₂ (fun a b => relates a b = true) left partners := by
  induction left generalizing right with
  | nil => exact ⟨[], right, .refl right, .nil⟩
  | cons first rest ih =>
      simp only [pairsOff] at paired
      split at paired
      · next index found =>
        obtain ⟨bound, accepted, _⟩ := List.findIdx?_eq_some_iff_getElem.mp found
        obtain ⟨partners, spare, reordered, related⟩ := ih paired
        refine ⟨right[index] :: partners, spare, ?_, .cons accepted related⟩
        exact (reordered.cons _).trans (List.getElem_cons_eraseIdx_perm bound)
      · contradiction

end Haystack.Pairing
