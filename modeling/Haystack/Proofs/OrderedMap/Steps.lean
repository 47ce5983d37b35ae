import Haystack.Proofs.OrderedMap.Placement

/-!
Maps under sequences of operations.

Every operation keeps the keys of a map distinct, and so does every sequence of them. Adding an item at
a position checks everything before it changes anything, so an item that is refused leaves the map as
it was, and one that is not comes to stand where it was asked to.
-/
namespace Haystack

/-- The key that a position refers to. -/
def Position.anchor? : Position → Option String
  | .before anchor => some anchor
  | .after anchor => some anchor
  | _ => none

namespace OrderedMap

variable {α β : Type} {m : OrderedMap α} {key : String} {value : α} {position : Position}
  {replace : Bool} {refusal : Error}

/-! ## Refusals -/

/-- Why an item is not added: its position refers to a key that is missing, or else its key is there
and is not to be replaced. -/
inductive Refuses (m : OrderedMap α) (key : String) (position : Position) (replace : Bool) : Error → Prop
  | missing {anchor : String} (asked : position.anchor? = some anchor) (absent : anchor ∉ m.keys) :
      Refuses m key position replace (.keyNotFound anchor)
  | present (anchored : ∀ anchor ∈ position.anchor?, anchor ∈ m.keys) (there : key ∈ m.keys)
      (kept : replace = false) : Refuses m key position replace (.duplicateKey key)

theorem target_cases (m : OrderedMap α) (position : Position) :
    (∃ anchor, position.anchor? = some anchor ∧ anchor ∉ m.keys ∧
        m.target position = .error (.keyNotFound anchor)) ∨
      ((∀ anchor ∈ position.anchor?, anchor ∈ m.keys) ∧ ∃ index, m.target position = .ok index) := by
  have anchored (key : String) : (key ∉ m.keys ∧ m.anchor key = .error (.keyNotFound key)) ∨
      (key ∈ m.keys ∧ ∃ index, m.anchor key = .ok index) := by
    rw [anchor]
    cases found : m.indexOf? key with
    | none => exact .inl ⟨indexOf?_eq_none_iff.mp found, rfl⟩
    | some index => exact .inr ⟨List.mem_of_getElem? (getElem?_of_indexOf? found), index, rfl⟩
  cases position with
  | first => exact .inr ⟨by simp [Position.anchor?], _, rfl⟩
  | last => exact .inr ⟨by simp [Position.anchor?], _, rfl⟩
  | index i => exact .inr ⟨by simp [Position.anchor?], _, rfl⟩
  | before key =>
      rcases anchored key with ⟨absent, missing⟩ | ⟨there, index, found⟩
      · exact .inl ⟨key, rfl, absent, by rw [target, missing]; rfl⟩
      · exact .inr ⟨by simpa [Position.anchor?] using there, some index, by rw [target, found]; rfl⟩
  | after key =>
      rcases anchored key with ⟨absent, missing⟩ | ⟨there, index, found⟩
      · exact .inl ⟨key, rfl, absent, by rw [target, missing]; rfl⟩
      · exact .inr ⟨by simpa [Position.anchor?] using there, some (index + 1), by rw [target, found]; rfl⟩

/-- An item is refused for one of the reasons, or there is none and it is placed. -/
theorem addItem_cases (distinct : m.Distinct) (key : String) (value : α) (position : Position)
    (replace : Bool) :
    (∃ refusal, m.addItem key value position replace = .error refusal ∧
        Refuses m key position replace refusal) ∨
      ∃ after, m.addItem key value position replace = .ok after ∧
        (∀ refusal, ¬ Refuses m key position replace refusal) ∧ Placed m key value position after := by
  rw [addItem_eq]
  rcases m.target_cases position with ⟨anchor, asked, absent, missing⟩ | ⟨anchored, index, found⟩
  · exact .inl ⟨_, by rw [missing]; rfl, .missing asked absent⟩
  · rw [found]
    by_cases duplicate : key ∈ m.keys ∧ replace = false
    · refine .inl ⟨_, ?_, .present anchored duplicate.1 duplicate.2⟩
      simp [Except.bind, contains_eq_true_iff.mpr duplicate.1, duplicate.2]
    · refine .inr ⟨_, ?_, ?_, placed_of_target distinct found key value⟩
      · have passes : ¬ (m.contains key && !replace) = true := by
          rwa [Bool.and_eq_true, contains_eq_true_iff, Bool.not_eq_true']
        simp only [Except.bind, if_neg passes]
      · intro refusal refuses
        cases refuses with
        | missing asked absent => exact absent (anchored _ asked)
        | present _ there kept => exact duplicate ⟨there, kept⟩

/-! ## Changes in place -/

/-- Add an item to a map in place. A key that is there is taken out before it is put back; what was done
before a refusal would stay done. -/
def addItemInPlace (key : String) (value : α) (position : Position) (replace : Bool) :
    ExceptT Error (StateM (OrderedMap α)) Unit := do
  let m ← get
  let index ← m.target position
  match m.indexOf? key with
  | none =>
      match index with
      | none => set (m.insertAt m.size key value)
      | some i => set (m.insertAt i key value)
  | some existing =>
      if !replace then throw (.duplicateKey key)
      match index with
      | none => set (m.insert key value)
      | some i =>
          set (m.eraseIndex existing)
          let rest ← get
          set (rest.insertAt (if existing < i then i - 1 else i) key value)

theorem run_get_bind {next : OrderedMap α → ExceptT Error (StateM (OrderedMap α)) β} :
    ((get : ExceptT Error (StateM (OrderedMap α)) (OrderedMap α)) >>= next).run m = (next m).run m := rfl

/-- An item that is refused leaves the map as it was. -/
theorem addItemInPlace_run (m : OrderedMap α) (key : String) (value : α) (position : Position)
    (replace : Bool) : (addItemInPlace key value position replace).run m =
      match m.addItem key value position replace with
      | .ok added => (.ok (), added)
      | .error refusal => (.error refusal, m) := by
  rw [addItemInPlace, run_get_bind, addItem]
  cases m.target position with
  | error missing => rfl
  | ok index =>
      cases m.indexOf? key with
      | none => cases index <;> rfl
      | some existing => cases replace <;> cases index <;> rfl

/-! ## Sequences of operations -/

/-- One operation on a map. -/
inductive Step (m : OrderedMap α) : OrderedMap α → Prop
  | insert (key : String) (value : α) : Step m (m.insert key value)
  /-- Also where it is refused. -/
  | addItem (key : String) (value : α) (position : Position) (replace : Bool) :
      Step m ((addItemInPlace key value position replace).run m).2
  | erase (key : String) : Step m (m.erase key)
  | eraseIndex (index : Nat) : Step m (m.eraseIndex index)
  | clear : Step m .empty
  /-- Also by a comparison that contradicts itself, which may leave the items in any order. -/
  | reorder {after : OrderedMap α} (reordered : after.items.Perm m.items) : Step m after
  /-- Also by a test that looks at what it was asked before. -/
  | retain {after : OrderedMap α} (fewer : after.items.Sublist m.items) : Step m after
  /-- Change values where they are. -/
  | revalue {after : OrderedMap α} (keys : after.keys = m.keys) : Step m after

theorem step_reverse (m : OrderedMap α) : Step m m.reverse := .reorder (List.reverse_perm _)

theorem step_sortBy (m : OrderedMap α) (order : String → String → Ordering) : Step m (m.sortBy order) :=
  .reorder (List.mergeSort_perm ..)

theorem step_filter (m : OrderedMap α) (keep : String → α → Bool) : Step m (m.filter keep) :=
  .retain List.filter_sublist

theorem step_modify (m : OrderedMap α) (key : String) (change : α → α) : Step m (m.modify key change) := by
  refine .revalue ?_
  unfold modify
  split
  · next value found => rw [keys_insert, if_pos (contains_iff_get?.mpr ⟨value, found⟩)]
  · rfl

theorem step_mapValues (m : OrderedMap α) (change : α → α) : Step m (m.mapValues change) :=
  .revalue (by simp [keys, mapValues])

theorem distinct_of_addItem (distinct : m.Distinct) (key : String) (value : α) (position : Position)
    (replace : Bool) : ((addItemInPlace key value position replace).run m).2.Distinct := by
  rw [addItemInPlace_run]
  rcases addItem_cases distinct key value position replace with ⟨_, refused, _⟩ | ⟨_, added, _, placed⟩
  · rw [refused]
    exact distinct
  · rw [added]
    exact placed.distinct

/-- Each operation keeps the keys distinct. -/
theorem Step.distinct {after : OrderedMap α} (step : Step m after) (distinct : m.Distinct) : after.Distinct := by
  cases step with
  | insert key value => exact distinct_insert distinct key value
  | addItem key value position replace => exact distinct_of_addItem distinct key value position replace
  | erase key => exact distinct_erase distinct key
  | eraseIndex index => exact ((List.eraseIdx_sublist ..).map _).nodup distinct
  | clear => exact distinct_empty
  | reorder reordered => exact (reordered.map _).nodup_iff.mpr distinct
  | retain fewer => exact (fewer.map _).nodup distinct
  | revalue keys => rwa [Distinct, keys]

/-- The maps made by operations from the items of a list, or from none. -/
inductive Reached : OrderedMap α → Prop
  | ofList (items : List (String × α)) : Reached (ofList items)
  | step {m after : OrderedMap α} (reached : Reached m) (step : Step m after) : Reached after

theorem Reached.distinct (reached : m.Reached) : m.Distinct := by
  induction reached with
  | ofList items => exact distinct_ofList items
  | step _ step distinct => exact step.distinct distinct

/-- Operations keep the keys of a map distinct. An item added to it at a position is refused where the
position refers to a missing key, or its own key is there and not to be replaced, and the map stays as
it was; otherwise the item comes to stand at the position and all others keep their order. -/
theorem distinct_and_placed_of_reached (reached : m.Reached) (key : String) (value : α)
    (position : Position) (replace : Bool) : m.Distinct ∧
      match m.addItem key value position replace with
      | .error refusal => Refuses m key position replace refusal ∧
          (addItemInPlace key value position replace).run m = (.error refusal, m)
      | .ok after => (∀ refusal, ¬ Refuses m key position replace refusal) ∧
          (addItemInPlace key value position replace).run m = (.ok (), after) ∧
          Placed m key value position after := by
  refine ⟨reached.distinct, ?_⟩
  rw [addItemInPlace_run]
  rcases addItem_cases reached.distinct key value position replace with
    ⟨refusal, refused, reason⟩ | ⟨after, added, noReason, placed⟩
  · rw [refused]
    exact ⟨reason, rfl⟩
  · rw [added]
    exact ⟨noReason, rfl, placed⟩

/-- The first key is moved behind the last one, by an index that still counts it in front. -/
theorem distinct_and_placed_of_reached_moved :
    let whole := ofList [("a", 1), ("b", 2), ("c", 3), ("d", 4)]
    let m := (whole.reverse.filter fun _ n => n != 4).modify "b" (· + 7)
    m.Reached ∧ ∃ after, m.addItem "c" 5 (.after "a") true = .ok after ∧
      after.items = [("b", 9), ("a", 1), ("c", 5)] ∧ Placed m "c" 5 (.after "a") after := by
  intro whole m
  have reached : m.Reached :=
    .step (.step (.step (.ofList _) (step_reverse _)) (step_filter _ _)) (step_modify _ _ _)
  have added : m.addItem "c" 5 (.after "a") true = .ok ⟨[("b", 9), ("a", 1), ("c", 5)]⟩ := rfl
  have placed := (distinct_and_placed_of_reached reached "c" 5 (.after "a") true).2
  rw [added] at placed
  exact ⟨reached, _, added, rfl, placed.2.2⟩

end OrderedMap

end Haystack
