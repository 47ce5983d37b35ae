import Haystack.Proofs.OrderedMap
import Mathlib.Data.List.Infix

/-!
Where an item comes to stand that is added at a position.

A key that is there already is taken out and put back among the other items. The index asked for counts
the key itself as well, so it moves down by one if the key stood in front of it; what stood at the
index before then stands behind the key.
-/
namespace Haystack.OrderedMap

variable {α : Type} {m after : OrderedMap α} {key name other : String} {value : α} {index : Nat}

/-! ## Keys and their indices -/

theorem getElem?_of_indexOf? (found : m.indexOf? key = some index) : m.keys[index]? = some key := by
  rw [indexOf?_eq, List.idxOf?_eq_some_iff] at found
  obtain ⟨bound, same, _⟩ := found
  rw [List.getElem?_eq_getElem bound, same]

theorem indexOf?_of_getElem? (distinct : m.Distinct) (found : m.keys[index]? = some key) :
    m.indexOf? key = some index := by
  cases isIndex : m.indexOf? key with
  | none => exact absurd (List.mem_of_getElem? found) (indexOf?_eq_none_iff.mp isIndex)
  | some existing =>
      have alsoFound := getElem?_of_indexOf? isIndex
      obtain ⟨bound, _⟩ := List.getElem?_eq_some_iff.mp alsoFound
      rw [(List.getElem?_inj bound distinct).mp (alsoFound.trans found.symm)]

theorem eraseIndex_of_indexOf? (found : m.indexOf? key = some index) : m.eraseIndex index = m.erase key := by
  unfold indexOf? at found
  rw [eraseIndex, erase, List.eraseP_eq_eraseIdx, found]

theorem keys_erase_of_indexOf? (found : m.indexOf? key = some index) :
    (m.erase key).keys = m.keys.eraseIdx index := by
  rw [keys_erase, List.erase_eq_eraseIdx, ← indexOf?_eq, found]

theorem not_mem_keys_erase (distinct : m.Distinct) (key : String) : key ∉ (m.erase key).keys := by
  rw [keys_erase]
  exact distinct.not_mem_erase

/-! ## An item among others -/

theorem keys_insertAt (m : OrderedMap α) (index : Nat) (key : String) (value : α) :
    (m.insertAt index key value).keys = m.keys.take index ++ key :: m.keys.drop index := by
  simp [keys, insertAt]

theorem distinct_insertAt (distinct : m.Distinct) (fresh : key ∉ m.keys) :
    (m.insertAt index key value).Distinct := by
  rw [Distinct, keys_insertAt, List.perm_middle.nodup_iff, List.take_append_drop]
  exact List.nodup_cons.mpr ⟨fresh, distinct⟩

theorem get?_insertAt (distinct : m.Distinct) (fresh : key ∉ m.keys) :
    (m.insertAt index key value).get? key = some value :=
  (get?_eq_some_iff (distinct_insertAt distinct fresh)).mpr (by simp [insertAt])

theorem get?_insertAt_of_ne (differs : name ≠ key) :
    (m.insertAt index key value).get? name = m.get? name := by
  have other : (name == key) = false := by simpa using differs
  rw [get?, insertAt, List.lookup_append, List.lookup_cons, other]
  simp only [← List.lookup_append, List.take_append_drop]
  rfl

theorem keys_insertAt_erase (fresh : key ∉ m.keys) :
    (m.insertAt index key value).keys.erase key = m.keys := by
  have inFront : key ∉ m.keys.take index := fun member => fresh (List.mem_of_mem_take member)
  rw [keys_insertAt, List.erase_append_right _ inFront, List.erase_cons_head, List.take_append_drop]

theorem infix_of_getElem? (there : m.keys[index]? = some other) :
    [key, other] <:+: (m.insertAt index key value).keys := by
  have behind : m.keys.drop index = other :: m.keys.drop (index + 1) := by
    rw [List.drop_eq_getElem?_toList_append, there]
    rfl
  refine ⟨m.keys.take index, m.keys.drop (index + 1), ?_⟩
  rw [keys_insertAt, behind]
  simp

theorem infix_of_getElem?_succ (there : m.keys[index]? = some other) :
    [other, key] <:+: (m.insertAt (index + 1) key value).keys := by
  refine ⟨m.keys.take index, m.keys.drop (index + 1), ?_⟩
  rw [keys_insertAt, List.take_add_one, there]
  simp

theorem suffix_of_getElem? (beyond : m.keys[index]? = none) :
    [key] <:+ (m.insertAt index key value).keys := by
  rw [keys_insertAt, List.drop_eq_nil_of_le (List.getElem?_eq_none_iff.mp beyond)]
  exact List.suffix_append ..

/-! ## The index among the others -/

/-- What an index asks for, counted without the key. -/
def place (m : OrderedMap α) (key : String) (index : Nat) : Nat :=
  match m.indexOf? key with
  | some existing => if existing < index then index - 1 else index
  | none => index

/-- What stood at the index stands at that place among the others. -/
theorem getElem?_place (differs : m.indexOf? key ≠ some index) :
    (m.erase key).keys[m.place key index]? = m.keys[index]? := by
  unfold place
  cases found : m.indexOf? key with
  | none => rw [keys_erase, List.erase_of_not_mem (indexOf?_eq_none_iff.mp found)]
  | some existing =>
      have apart : existing ≠ index := fun same => differs (same ▸ found)
      simp only [keys_erase_of_indexOf? found, List.getElem?_eraseIdx]
      split
      · next before =>
        rw [if_neg (by omega), Nat.sub_add_cancel (by omega)]
      · rw [if_pos (by omega)]

theorem place_succ (differs : m.indexOf? key ≠ some index) :
    m.place key (index + 1) = m.place key index + 1 := by
  unfold place
  cases found : m.indexOf? key with
  | none => rfl
  | some existing =>
      have apart : existing ≠ index := fun same => differs (same ▸ found)
      simp only
      split <;> split <;> omega

theorem place_of_indexOf? (found : m.indexOf? key = some index) : m.place key index = index := by
  simp [place, found]

theorem place_succ_of_indexOf? (found : m.indexOf? key = some index) :
    m.place key (index + 1) = index := by
  simp [place, found]

/-- A key that is put back where it was leaves all keys as they were. -/
theorem keys_insertAt_of_indexOf? (found : m.indexOf? key = some index) :
    ((m.erase key).insertAt index key value).keys = m.keys := by
  have there := getElem?_of_indexOf? found
  obtain ⟨bound, same⟩ := List.getElem?_eq_some_iff.mp there
  have front : (m.keys.take index).length = index := List.length_take_of_le (Nat.le_of_lt bound)
  rw [keys_insertAt, keys_erase_of_indexOf? found, List.eraseIdx_eq_take_drop_succ,
    List.take_left' front, List.drop_left' front]
  calc m.keys.take index ++ key :: m.keys.drop (index + 1)
      = m.keys.take index ++ m.keys.drop index := by rw [List.drop_eq_getElem_cons bound, same]
    _ = m.keys := List.take_append_drop ..

/-! ## Adding at a position -/

/-- An item among the others where an index asks for it, or at the end if its key is new. -/
def put (m : OrderedMap α) (key : String) (value : α) : Option Nat → OrderedMap α
  | some index => (m.erase key).insertAt (m.place key index) key value
  | none => m.insert key value

theorem addItem_eq (m : OrderedMap α) (key : String) (value : α) (position : Position) (replace : Bool) :
    m.addItem key value position replace = (m.target position).bind fun index =>
      if m.contains key && !replace then .error (.duplicateKey key) else .ok (m.put key value index) := by
  unfold addItem
  cases m.target position with
  | error missing => rfl
  | ok index =>
      cases found : m.indexOf? key with
      | none =>
          have absent : m.contains key = false :=
            contains_eq_false_iff.mpr (indexOf?_eq_none_iff.mp found)
          cases index with
          | none => simp [Except.bind, absent, put, insert, insertAt, size]
          | some index => simp [Except.bind, absent, put, place, found, erase_of_not_contains absent]
      | some existing =>
          have present : m.contains key = true :=
            contains_eq_true_iff.mpr (List.mem_of_getElem? (getElem?_of_indexOf? found))
          cases replace with
          | false => simp [Except.bind, present]
          | true => cases index with
            | none => simp [Except.bind, put]
            | some index => simp [Except.bind, put, place, found, eraseIndex_of_indexOf? found]

/-- Where a key stands in a map after it was added to another one at a position. -/
def Stands (m after : OrderedMap α) (key : String) : Position → Prop
  | .first => [key] <+: after.keys
  | .last => if key ∈ m.keys then after.keys = m.keys else [key] <:+ after.keys
  | .before anchor => if anchor = key then after.keys = m.keys else [key, anchor] <:+: after.keys
  | .after anchor => if anchor = key then after.keys = m.keys else [anchor, key] <:+: after.keys
  | .index i =>
      match m.keys[i]? with
      | some other => if other = key then after.keys = m.keys else [key, other] <:+: after.keys
      | none => [key] <:+ after.keys

/-- What adding an item at a position makes of a map. -/
structure Placed (m : OrderedMap α) (key : String) (value : α) (position : Position)
    (after : OrderedMap α) : Prop where
  distinct : after.Distinct
  value : after.get? key = some value
  others : ∀ name, name ≠ key → after.get? name = m.get? name
  /-- The other keys stand in the order that they stood in. -/
  order : after.keys.erase key = m.keys.erase key
  stands : Stands m after key position

theorem placed_insertAt (distinct : m.Distinct) {place : Nat} {position : Position}
    (stands : Stands m ((m.erase key).insertAt place key value) key position) :
    Placed m key value position ((m.erase key).insertAt place key value) where
  distinct := distinct_insertAt (distinct_erase distinct key) (not_mem_keys_erase distinct key)
  value := get?_insertAt (distinct_erase distinct key) (not_mem_keys_erase distinct key)
  others name differs := by rw [get?_insertAt_of_ne differs, get?_erase distinct, if_neg differs]
  order := by rw [keys_insertAt_erase (not_mem_keys_erase distinct key), keys_erase]
  stands := stands

theorem placed_insert (distinct : m.Distinct) (key : String) (value : α) :
    Placed m key value .last (m.insert key value) where
  distinct := distinct_insert distinct key value
  value := by rw [get?_insert, if_pos rfl]
  others name differs := by rw [get?_insert, if_neg differs]
  order := by
    rw [keys_insert]
    split
    · rfl
    · next absent =>
      have fresh : key ∉ m.keys := mt contains_eq_true_iff.mpr absent
      rw [List.erase_append_right _ fresh, List.erase_of_not_mem fresh]
      simp
  stands := by
    rw [Stands, keys_insert]
    split
    · next there => rw [if_pos (contains_eq_true_iff.mpr there)]
    · next absent =>
      rw [if_neg (mt contains_eq_true_iff.mp absent)]
      exact List.suffix_append ..

theorem indexOf?_ne_of_getElem? (differs : m.keys[index]? ≠ some key) : m.indexOf? key ≠ some index :=
  fun found => differs (getElem?_of_indexOf? found)

/-- What stood at the index asked for stands behind the key, if it is not the key itself. -/
theorem stands_index (distinct : m.Distinct) (key : String) (value : α) (index : Nat) :
    Stands m ((m.erase key).insertAt (m.place key index) key value) key (.index index) := by
  rw [Stands]
  cases there : m.keys[index]? with
  | none =>
      have differs : m.indexOf? key ≠ some index := indexOf?_ne_of_getElem? (by simp [there])
      exact suffix_of_getElem? ((getElem?_place differs).trans there)
  | some other =>
      by_cases same : other = key
      · subst same
        have found := indexOf?_of_getElem? distinct there
        rw [place_of_indexOf? found]
        simpa using keys_insertAt_of_indexOf? found
      · have differs : m.indexOf? key ≠ some index := indexOf?_ne_of_getElem? (by simp [there, same])
        simpa [same] using infix_of_getElem? ((getElem?_place differs).trans there)

theorem stands_before (distinct : m.Distinct) {anchor : String} (found : m.indexOf? anchor = some index) :
    Stands m ((m.erase key).insertAt (m.place key index) key value) key (.before anchor) := by
  have asked := stands_index distinct key value index
  rwa [Stands, getElem?_of_indexOf? found] at asked

theorem stands_after {anchor : String} (found : m.indexOf? anchor = some index) :
    Stands m ((m.erase key).insertAt (m.place key (index + 1)) key value) key (.after anchor) := by
  rw [Stands]
  split
  · next same =>
    subst same
    rw [place_succ_of_indexOf? found]
    exact keys_insertAt_of_indexOf? found
  · next other =>
    have there := getElem?_of_indexOf? found
    have differs : m.indexOf? key ≠ some index := indexOf?_ne_of_getElem? (by simp [there, other])
    rw [place_succ differs]
    exact infix_of_getElem?_succ ((getElem?_place differs).trans there)

theorem stands_first (m : OrderedMap α) (key : String) (value : α) :
    Stands m ((m.erase key).insertAt (m.place key 0) key value) key .first := by
  have front : m.place key 0 = 0 := by
    unfold place
    cases m.indexOf? key <;> simp
  rw [front, Stands, keys_insertAt]
  exact ⟨_, rfl⟩

/-- The index that a position asks for puts the item where the position says. -/
theorem placed_of_target (distinct : m.Distinct) {position : Position} {index : Option Nat}
    (asked : m.target position = .ok index) (key : String) (value : α) :
    Placed m key value position (m.put key value index) := by
  cases position with
  | first =>
      obtain rfl := Except.ok.inj asked
      exact placed_insertAt distinct (stands_first m key value)
  | last =>
      obtain rfl := Except.ok.inj asked
      exact placed_insert distinct key value
  | index i =>
      obtain rfl := Except.ok.inj asked
      exact placed_insertAt distinct (stands_index distinct key value i)
  | before anchor =>
      rw [target, OrderedMap.anchor] at asked
      cases found : m.indexOf? anchor with
      | none => simp [found, Except.map] at asked
      | some i =>
          rw [found] at asked
          obtain rfl := Except.ok.inj asked
          exact placed_insertAt distinct (stands_before distinct found)
  | after anchor =>
      rw [target, OrderedMap.anchor] at asked
      cases found : m.indexOf? anchor with
      | none => simp [found, Except.map] at asked
      | some i =>
          rw [found] at asked
          obtain rfl := Except.ok.inj asked
          exact placed_insertAt distinct (stands_after found)

end Haystack.OrderedMap
