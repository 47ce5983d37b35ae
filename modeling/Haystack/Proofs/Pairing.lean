import Mathlib.Data.List.Forall2

/-!
Pairing the elements of two lists, each with the first one on the other side that will do.

Where what will do is an equivalence the choice does not matter: pairing succeeds exactly if every
class has no more elements on the left than on the right, so that counts of classes say it all.
-/
namespace Haystack.Pairing

variable {α : Type} {relates : α → α → Bool}

/-- Pair each element with the first pending one that it relates to, which is pending no more. -/
def pairsOff (relates : α → α → Bool) : List α → List α → Bool
  | [], _ => true
  | first :: rest, pending =>
      match pending.findIdx? (relates first) with
      | some index => pairsOff relates rest (pending.eraseIdx index)
      | none => false

/-- Take out, for each of the wanted elements, the first one that relates to it. -/
def removeEach (relates : α → α → Bool) (base wanted : List α) : List α :=
  wanted.foldl (fun left element => left.eraseP (relates · element)) base

/-- A relation is an equivalence among the elements that a condition holds of. -/
structure EquivalenceOn (scope : α → Prop) (relates : α → α → Bool) : Prop where
  refl : ∀ {a}, scope a → relates a a = true
  symm : ∀ {a b}, scope a → scope b → relates a b = true → relates b a = true
  trans : ∀ {a b c}, scope a → scope b → scope c →
    relates a b = true → relates b c = true → relates a c = true

/-- A property that related elements share. -/
def Respects (scope : α → Prop) (relates : α → α → Bool) (property : α → Bool) : Prop :=
  ∀ a b, scope a → scope b → relates a b = true → property a = property b

variable {scope : α → Prop} {left right base wanted : List α} {property : α → Bool}

theorem EquivalenceOn.respects (equivalence : EquivalenceOn scope relates) {x : α}
    (inScope : scope x) : Respects scope relates (relates x) := by
  intro a b aIn bIn related
  refine Bool.eq_iff_iff.mpr ⟨fun toA => ?_, fun toB => ?_⟩
  · exact equivalence.trans inScope aIn bIn toA related
  · exact equivalence.trans inScope bIn aIn toB (equivalence.symm aIn bIn related)

theorem EquivalenceOn.mono {narrower : α → Prop} (equivalence : EquivalenceOn scope relates)
    (within : ∀ a, narrower a → scope a) : EquivalenceOn narrower relates where
  refl := fun aIn => equivalence.refl (within _ aIn)
  symm := fun aIn bIn => equivalence.symm (within _ aIn) (within _ bIn)
  trans := fun aIn bIn cIn => equivalence.trans (within _ aIn) (within _ bIn) (within _ cIn)

/-- Taking out the first element of a kind takes one from each count that it is in. -/
theorem countP_eraseP {accepts : α → Bool} {pending : List α} {element : α}
    (present : element ∈ pending) (accepted : accepts element = true) :
    ∃ taken ∈ pending, accepts taken = true ∧
      (∀ other ∈ pending.eraseP accepts, other ∈ pending) ∧
      ∀ property : α → Bool, pending.countP property =
        (pending.eraseP accepts).countP property + if property taken then 1 else 0 := by
  obtain ⟨taken, before, after, _, takenAccepted, shape, erased⟩ :=
    List.exists_of_eraseP present accepted
  refine ⟨taken, by simp [shape], takenAccepted, fun other => List.mem_of_mem_eraseP, ?_⟩
  intro property
  rw [erased, shape]
  simp only [List.countP_append, List.countP_cons]
  omega

theorem eraseIdx_of_findIdx? {accepts : α → Bool} {pending : List α} {index : Nat}
    (found : pending.findIdx? accepts = some index) :
    pending.eraseIdx index = pending.eraseP accepts := by
  rw [List.eraseP_eq_eraseIdx, found]

/-- Of lists that are related in order each element on the left relates to one on the right. -/
theorem exists_mem_of_forall₂ {β : Type} {relates : α → β → Prop} {left : List α} {right : List β}
    (related : List.Forall₂ relates left right) {a : α} (member : a ∈ left) :
    ∃ b ∈ right, relates a b := by
  induction related with
  | nil => exact nomatch member
  | @cons first other left right here others ih =>
      rcases List.mem_cons.mp member with rfl | inLeft
      · exact ⟨other, List.mem_cons_self .., here⟩
      · obtain ⟨b, inRight, relation⟩ := ih inLeft
        exact ⟨b, List.mem_cons_of_mem other inRight, relation⟩

theorem forall₂_imp_of_mem {β : Type} {relates implied : α → β → Prop} {left : List α} {right : List β}
    (related : List.Forall₂ relates left right)
    (implies : ∀ a ∈ left, ∀ b ∈ right, relates a b → implied a b) : List.Forall₂ implied left right := by
  obtain ⟨sizes, zipped⟩ := List.forall₂_iff_zip.mp related
  refine List.forall₂_iff_zip.mpr ⟨sizes, fun inZip => ?_⟩
  obtain ⟨inLeft, inRight⟩ := List.of_mem_zip inZip
  exact implies _ inLeft _ inRight (zipped inZip)

theorem countP_eq_of_forall₂ {β : Type} {first : α → Bool} {second : β → Bool} {left : List α}
    {right : List β} (related : List.Forall₂ (fun a b => first a = second b) left right) :
    left.countP first = right.countP second := by
  induction related with
  | nil => rfl
  | cons here _ ih => rw [List.countP_cons, List.countP_cons, ih, here]

section Middle

variable {β γ : Type} {first : α → β → Prop} {second : β → γ → Prop} {both : α → γ → Prop}
  {as : List α} {bs : List β} {cs : List γ}

theorem forall₂_trans (compose : ∀ a b c, first a b → second b c → both a c)
    (left : List.Forall₂ first as bs) (right : List.Forall₂ second bs cs) : List.Forall₂ both as cs := by
  induction left generalizing cs with
  | nil => exact List.forall₂_nil_left_iff.mp right ▸ .nil
  | cons here _ ih =>
      obtain ⟨c, others, there, rest, rfl⟩ := List.forall₂_cons_left_iff.mp right
      exact .cons (compose _ _ _ here there) (ih rest)

theorem exists_middle (related : List.Forall₂ (fun a c => ∃ b, first a b ∧ second b c) as cs) :
    ∃ bs, List.Forall₂ first as bs ∧ List.Forall₂ second bs cs := by
  induction related with
  | nil => exact ⟨[], .nil, .nil⟩
  | cons here _ ih =>
      obtain ⟨b, left, right⟩ := here
      obtain ⟨bs, lefts, rights⟩ := ih
      exact ⟨b :: bs, .cons left lefts, .cons right rights⟩

end Middle

/-- A function that succeeds on each element does so on all of them. -/
theorem exists_mapM {α β γ ε : Type} {f : α → Except ε β} {good : β → γ → Prop} {fits : α → γ → Prop}
    {elements : List α} (each : ∀ a ∈ elements, ∃ b c, f a = .ok b ∧ good b c ∧ fits a c) :
    ∃ bs cs, elements.mapM f = .ok bs ∧ List.Forall₂ good bs cs ∧ List.Forall₂ fits elements cs := by
  induction elements with
  | nil => exact ⟨[], [], rfl, .nil, .nil⟩
  | cons a elements ih =>
      rw [List.forall_mem_cons] at each
      obtain ⟨b, c, made, isGood, isFit⟩ := each.1
      obtain ⟨bs, cs, others, areGood, areFit⟩ := ih each.2
      refine ⟨b :: bs, c :: cs, ?_, .cons isGood areGood, .cons isFit areFit⟩
      rw [List.mapM_cons, made, others]
      rfl

theorem mapM_map_ok {α β γ ε : Type} {f : α → Except ε β} {elements : List α} {bs : List β}
    (made : elements.mapM f = .ok bs) (g : β → γ) :
    elements.mapM (fun a => (f a).map g) = .ok (bs.map g) := by
  induction elements generalizing bs with
  | nil =>
      obtain rfl := Except.ok.inj made
      rfl
  | cons a elements ih =>
      rw [List.mapM_cons] at made ⊢
      cases here : f a with
      | error cause => simp [here, bind, Except.bind] at made
      | ok b =>
          cases others : elements.mapM f with
          | error cause => simp [here, others, bind, Except.bind] at made
          | ok bs =>
              simp only [here, others, bind, Except.bind, pure, Except.pure, Except.ok.injEq] at made
              rw [ih others, ← made]
              rfl

/-- Elements that are related in order pair off: each takes the first that is pending. -/
theorem pairsOff_of_forall₂ (related : List.Forall₂ (fun a b => relates a b = true) left right) :
    pairsOff relates left right = true := by
  induction related with
  | nil => rfl
  | cons here _ ih => simpa [pairsOff, List.findIdx?_cons, here] using ih

/-- Pairing leaves over what the left has no use for. -/
theorem exists_unpaired (leftIn : ∀ a ∈ left, scope a) (rightIn : ∀ b ∈ right, scope b)
    (paired : pairsOff relates left right = true) :
    ∃ unpaired : List α, ∀ property, Respects scope relates property →
      right.countP property = left.countP property + unpaired.countP property := by
  induction left generalizing right with
  | nil => exact ⟨right, by simp⟩
  | cons first rest ih =>
      simp only [pairsOff] at paired
      split at paired
      · next index found =>
        rw [eraseIdx_of_findIdx? found] at paired
        obtain ⟨bound, accepted, _⟩ := List.findIdx?_eq_some_iff_getElem.mp found
        obtain ⟨taken, inRight, related, smaller, counts⟩ :=
          countP_eraseP (List.getElem_mem bound) accepted
        obtain ⟨unpaired, rest⟩ := ih (fun a member => leftIn a (List.mem_cons_of_mem _ member))
          (fun b member => rightIn b (smaller b member)) paired
        refine ⟨unpaired, fun property respects => ?_⟩
        have alike := respects first taken (leftIn first (List.mem_cons_self ..))
          (rightIn taken inRight) related
        rw [counts property, rest property respects, List.countP_cons, alike]
        omega
      · contradiction

theorem length_le_of_pairsOff (paired : pairsOff relates left right = true) :
    left.length ≤ right.length := by
  induction left generalizing right with
  | nil => simp
  | cons first rest ih =>
      simp only [pairsOff] at paired
      split at paired
      · next index found =>
        obtain ⟨bound, _⟩ := List.findIdx?_eq_some_iff_getElem.mp found
        have shorter := ih paired
        rw [List.length_eraseIdx_of_lt bound] at shorter
        simp only [List.length_cons]
        omega
      · contradiction

/-- Pairing succeeds if no class is too large on the left. -/
theorem pairsOff_of_countP_le (equivalence : EquivalenceOn scope relates)
    (leftIn : ∀ a ∈ left, scope a) (rightIn : ∀ b ∈ right, scope b)
    (enough : ∀ x, scope x → left.countP (relates x) ≤ right.countP (relates x)) :
    pairsOff relates left right = true := by
  induction left generalizing right with
  | nil => rfl
  | cons first rest ih =>
      have firstIn := leftIn first (List.mem_cons_self ..)
      have some : 0 < right.countP (relates first) := by
        have here := enough first firstIn
        rw [List.countP_cons_of_pos (equivalence.refl firstIn)] at here
        omega
      obtain ⟨partner, inRight, related⟩ := List.countP_pos_iff.mp some
      have isFound : (right.findIdx? (relates first)).isSome = true :=
        List.findIdx?_isSome.trans (List.any_eq_true.mpr ⟨partner, inRight, related⟩)
      obtain ⟨index, found⟩ := Option.isSome_iff_exists.mp isFound
      obtain ⟨taken, takenIn, takenRelated, smaller, counts⟩ := countP_eraseP inRight related
      simp only [pairsOff, found]
      rw [eraseIdx_of_findIdx? found]
      refine ih (fun a member => leftIn a (List.mem_cons_of_mem _ member))
        (fun b member => rightIn b (smaller b member)) fun x xIn => ?_
      have before := enough x xIn
      have alike := equivalence.respects xIn first taken firstIn (rightIn taken takenIn) takenRelated
      rw [List.countP_cons, counts (relates x), alike] at before
      omega

/-- Lists of one length pair off exactly if every class has as many elements in one as in the
other. -/
theorem pairsOff_iff_countP_eq (equivalence : EquivalenceOn scope relates)
    (leftIn : ∀ a ∈ left, scope a) (rightIn : ∀ b ∈ right, scope b)
    (sizes : left.length = right.length) :
    pairsOff relates left right = true ↔
      ∀ x, scope x → left.countP (relates x) = right.countP (relates x) := by
  constructor
  · intro paired x xIn
    obtain ⟨unpaired, counts⟩ := exists_unpaired leftIn rightIn paired
    have total := counts (fun _ => true) fun _ _ _ _ _ => rfl
    simp only [List.countP_true] at total
    have none : unpaired = [] := List.length_eq_zero_iff.mp (by omega)
    rw [counts _ (equivalence.respects xIn), none]
    simp
  · intro counts
    exact pairsOff_of_countP_le equivalence leftIn rightIn fun x xIn => Nat.le_of_eq (counts x xIn)

theorem removeEach_sublist : (removeEach relates base wanted).Sublist base := by
  induction wanted generalizing base with
  | nil => exact List.Sublist.refl _
  | cons first rest ih => exact ih.trans List.eraseP_sublist

/-- Each wanted element is found and leaves with one of its class. -/
theorem countP_removeEach (equivalence : EquivalenceOn scope relates)
    (baseIn : ∀ a ∈ base, scope a) (wantedIn : ∀ b ∈ wanted, scope b)
    (enough : ∀ x, scope x → wanted.countP (relates x) ≤ base.countP (relates x))
    (respects : Respects scope relates property) :
    (removeEach relates base wanted).countP property + wanted.countP property =
      base.countP property := by
  induction wanted generalizing base with
  | nil => simp [removeEach]
  | cons first rest ih =>
      have firstIn := wantedIn first (List.mem_cons_self ..)
      have some : 0 < base.countP (relates first) := by
        have here := enough first firstIn
        rw [List.countP_cons_of_pos (equivalence.refl firstIn)] at here
        omega
      obtain ⟨partner, inBase, related⟩ := List.countP_pos_iff.mp some
      have back := equivalence.symm firstIn (baseIn partner inBase) related
      obtain ⟨taken, takenIn, takenRelated, smaller, counts⟩ :=
        @countP_eraseP _ (relates · first) _ _ inBase back
      have remaining := @ih (base.eraseP (relates · first))
        (fun a member => baseIn a (smaller a member))
        (fun b member => wantedIn b (List.mem_cons_of_mem _ member)) (by
          intro x xIn
          have before := enough x xIn
          have alike := equivalence.respects xIn taken first (baseIn taken takenIn) firstIn
            takenRelated
          rw [List.countP_cons, counts (relates x), alike] at before
          omega)
      have alike := respects taken first (baseIn taken takenIn) firstIn takenRelated
      rw [List.countP_cons, counts property, alike]
      simp only [removeEach, List.foldl_cons] at remaining ⊢
      omega

end Haystack.Pairing
