import Haystack.Proofs.Pairing

/-!
What pairing leaves over on either side, and what becomes of the left if it is replaced.

Elements without a partner are taken out of the left again, each time the first one that relates to
them, and what no element has taken is added from the right. The outcome pairs off with the right if
no element is taken out in the place of another one, or if the relation is transitive, where one is
as good as another.
-/
namespace Haystack.Pairing

variable {α : Type} {relates : α → α → Bool}

/-- Each element with its partner, the first pending one that it relates to, which is pending no
more. -/
def partnersOf (relates : α → α → Bool) : List α → List α → List (α × Option α)
  | [], _ => []
  | first :: rest, pending =>
      (first, pending.find? (relates first)) :: partnersOf relates rest (pending.eraseP (relates first))

/-- The elements that find a partner. -/
def matched (relates : α → α → Bool) (left right : List α) : List α :=
  ((partnersOf relates left right).filter (·.2.isSome)).map (·.1)

/-- The elements that find none. -/
def unmatched (relates : α → α → Bool) (left right : List α) : List α :=
  ((partnersOf relates left right).filter (·.2.isNone)).map (·.1)

/-- The elements that are still pending in the end. -/
def leftover (relates : α → α → Bool) : List α → List α → List α
  | [], pending => pending
  | first :: rest, pending => leftover relates rest (pending.eraseP (relates first))

/-- No element with a partner stands before one without a partner that it relates to. -/
def TellsApart (relates : α → α → Bool) (left right : List α) : Prop :=
  (partnersOf relates left right).Pairwise fun earlier later =>
    earlier.2.isSome = true → later.2 = none → relates earlier.1 later.1 = false

instance (left right : List α) : Decidable (TellsApart relates left right) :=
  inferInstanceAs (Decidable (List.Pairwise _ _))

variable {scope : α → Prop} {left right rest pending base wanted : List α} {first partner : α}
  {property : α → Bool}

section Steps

theorem matched_cons_of_some (found : pending.find? (relates first) = some partner) :
    matched relates (first :: rest) pending =
      first :: matched relates rest (pending.eraseP (relates first)) := by
  simp [matched, partnersOf, found]

theorem unmatched_cons_of_some (found : pending.find? (relates first) = some partner) :
    unmatched relates (first :: rest) pending =
      unmatched relates rest (pending.eraseP (relates first)) := by
  simp [unmatched, partnersOf, found]

theorem eraseP_of_find?_none (none : pending.find? (relates first) = none) :
    pending.eraseP (relates first) = pending :=
  List.eraseP_of_forall_not fun other member => by simpa using List.find?_eq_none.mp none other member

theorem matched_cons_of_none (none : pending.find? (relates first) = none) :
    matched relates (first :: rest) pending = matched relates rest pending := by
  simp [matched, partnersOf, none, eraseP_of_find?_none none]

theorem unmatched_cons_of_none (none : pending.find? (relates first) = none) :
    unmatched relates (first :: rest) pending = first :: unmatched relates rest pending := by
  simp [unmatched, partnersOf, none, eraseP_of_find?_none none]

theorem partnersOf_map_fst : (partnersOf relates left right).map (·.1) = left := by
  induction left generalizing right with
  | nil => rfl
  | cons first rest ih => rw [partnersOf, List.map_cons, ih]

theorem unmatched_sublist : (unmatched relates left right).Sublist left := by
  have fewer := (List.filter_sublist (p := fun pair : α × Option α => pair.2.isNone)
    (l := partnersOf relates left right)).map (·.1)
  rwa [partnersOf_map_fst] at fewer

theorem leftover_sublist : (leftover relates left right).Sublist right := by
  induction left generalizing right with
  | nil => exact List.Sublist.refl _
  | cons first rest ih => exact ih.trans List.eraseP_sublist

end Steps

/-! ## The matched and what is left over -/

/-- Elements with partners take them again, and leave over the same. -/
theorem pairsOff_matched_append (more : List α) :
    pairsOff relates (matched relates left right ++ more) right =
      pairsOff relates more (leftover relates left right) := by
  induction left generalizing right with
  | nil => rfl
  | cons first rest ih =>
      rw [leftover]
      cases found : right.find? (relates first) with
      | none => rw [matched_cons_of_none found, eraseP_of_find?_none found, ih]
      | some partner =>
          have isFound : (right.findIdx? (relates first)).isSome = true :=
            List.findIdx?_isSome.trans (List.any_eq_true.mpr
              ⟨partner, List.mem_of_find?_eq_some found, List.find?_some found⟩)
          obtain ⟨index, place⟩ := Option.isSome_iff_exists.mp isFound
          rw [matched_cons_of_some found, List.cons_append, pairsOff, place]
          simp only
          rw [eraseIdx_of_findIdx? place, ih]

theorem length_matched_add_leftover :
    (matched relates left right).length + (leftover relates left right).length = right.length := by
  induction left generalizing right with
  | nil => simp [matched, partnersOf, leftover]
  | cons first rest ih =>
      have step := @ih (right.eraseP (relates first))
      rw [leftover]
      cases found : right.find? (relates first) with
      | none =>
          rw [eraseP_of_find?_none found] at step ⊢
          rw [matched_cons_of_none found, step]
      | some partner =>
          have shorter := List.length_eraseP_add_one (List.mem_of_find?_eq_some found)
            (List.find?_some found)
          rw [matched_cons_of_some found, List.length_cons]
          omega

/-- The matched and what is left over pair off with the right. -/
theorem pairsOff_matched_leftover (refl : ∀ b ∈ right, relates b b = true) :
    pairsOff relates (matched relates left right ++ leftover relates left right) right = true := by
  rw [pairsOff_matched_append]
  exact pairsOff_of_forall₂ (List.forall₂_same.mpr fun b member =>
    refl b (leftover_sublist.subset member))

/-! ## Without the unmatched -/

theorem removeEach_cons_of_forall (none : ∀ element ∈ wanted, relates first element = false) :
    removeEach relates (first :: base) wanted = first :: removeEach relates base wanted := by
  induction wanted generalizing base with
  | nil => rfl
  | cons element others ih =>
      rw [List.forall_mem_cons] at none
      have kept : (first :: base).eraseP (relates · element) =
          first :: base.eraseP (relates · element) := List.eraseP_cons_of_neg (by simp [none.1])
      unfold removeEach at ih ⊢
      rw [List.foldl_cons, List.foldl_cons, kept, ih none.2]

/-- Where they are told apart, each unmatched element is taken out itself. -/
theorem removeEach_unmatched (apart : TellsApart relates left right)
    (refl : ∀ a ∈ left, relates a a = true) :
    removeEach relates left (unmatched relates left right) = matched relates left right := by
  induction left generalizing right with
  | nil => rfl
  | cons first rest ih =>
      obtain ⟨here, others⟩ := List.pairwise_cons.mp apart
      rw [List.forall_mem_cons] at refl
      have step := ih others refl.2
      cases found : right.find? (relates first) with
      | none =>
          rw [eraseP_of_find?_none found] at step
          rw [unmatched_cons_of_none found, matched_cons_of_none found, ← step]
          have itself : (first :: rest).eraseP (relates · first) = rest := List.eraseP_cons_of_pos refl.1
          unfold removeEach
          rw [List.foldl_cons, itself]
      | some partner =>
          rw [unmatched_cons_of_some found, matched_cons_of_some found, ← step]
          refine removeEach_cons_of_forall fun element member => ?_
          obtain ⟨pair, inPairs, rfl⟩ := List.mem_map.mp member
          obtain ⟨later, isNone⟩ := List.mem_filter.mp inPairs
          exact here pair later (by simp [found]) (by simpa using isNone)

/-! ## Counts -/

/-- Of each class, the matched leave the right as they leave the left. -/
theorem countP_leftover (leftIn : ∀ a ∈ left, scope a) (rightIn : ∀ b ∈ right, scope b)
    (respects : Respects scope relates property) :
    (leftover relates left right).countP property + left.countP property =
      right.countP property + (unmatched relates left right).countP property := by
  induction left generalizing right with
  | nil => simp [leftover, unmatched, partnersOf]
  | cons first rest ih =>
      rw [List.forall_mem_cons] at leftIn
      have step := @ih (right.eraseP (relates first)) leftIn.2 fun b member =>
        rightIn b (List.mem_of_mem_eraseP member)
      rw [leftover, List.countP_cons]
      cases found : right.find? (relates first) with
      | none =>
          rw [eraseP_of_find?_none found] at step ⊢
          rw [unmatched_cons_of_none found, List.countP_cons]
          omega
      | some partner =>
          obtain ⟨taken, inRight, related, _, counts⟩ :=
            countP_eraseP (List.mem_of_find?_eq_some found) (List.find?_some found)
          have alike := respects first taken leftIn.1 (rightIn taken inRight) related
          rw [unmatched_cons_of_some found, counts property, alike]
          omega

/-- Among equivalent elements it does not matter which one is taken out. -/
theorem pairsOff_of_equivalence (equivalence : EquivalenceOn scope relates)
    (leftIn : ∀ a ∈ left, scope a) (rightIn : ∀ b ∈ right, scope b) :
    (removeEach relates left (unmatched relates left right) ++
        leftover relates left right).length = right.length ∧
      pairsOff relates (removeEach relates left (unmatched relates left right) ++
        leftover relates left right) right = true := by
  have counts : ∀ property, Respects scope relates property →
      (removeEach relates left (unmatched relates left right) ++
        leftover relates left right).countP property = right.countP property := by
    intro property respects
    have within : (unmatched relates left right).Sublist left := unmatched_sublist
    have kept := countP_removeEach equivalence leftIn (fun b member => leftIn b (within.subset member))
      (fun _ _ => within.countP_le) respects
    have accounted := countP_leftover leftIn rightIn respects
    rw [List.countP_append]
    omega
  have sizes := counts (fun _ => true) fun _ _ _ _ _ => rfl
  simp only [List.countP_true] at sizes
  refine ⟨sizes, (pairsOff_iff_countP_eq equivalence (fun a member => ?_) rightIn sizes).mpr
    fun x xIn => counts _ (equivalence.respects xIn)⟩
  rcases List.mem_append.mp member with kept | added
  · exact leftIn a (removeEach_sublist.subset kept)
  · exact rightIn a (leftover_sublist.subset added)

end Haystack.Pairing
