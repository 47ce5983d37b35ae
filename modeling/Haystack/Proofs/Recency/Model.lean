import Haystack.Proofs.Recency.Entries

/-!
A cache against the list of its items.

In the plain model a cache is its capacity and its items, the most recently used one first. Whatever
the operations, a cache answers as the model does, and its slots, links, free slots and map stay
consistent with each other.
-/
namespace Haystack

variable {κ α : Type}

/-! ## The plain model -/

/-- A cache as a list of items, the most recently used one first. -/
structure RecencyList (κ α : Type) where
  capacity : Nat
  items : List (κ × α)

namespace RecencyList

variable [BEq κ]

def empty (capacity : Nat) : RecencyList κ α := ⟨capacity, []⟩

def get? (m : RecencyList κ α) (key : κ) : Option α × RecencyList κ α :=
  match m.items.find? (·.1 == key) with
  | some item => (some item.2, { m with items := item :: m.items.eraseP (·.1 == key) })
  | none => (none, m)

/-- Leave the items in front, and tell the keys of the others, the last one first. -/
def keepFirst (m : RecencyList κ α) (count : Nat) : List κ × RecencyList κ α :=
  (((m.items.drop count).map (·.1)).reverse, { m with items := m.items.take count })

def put (m : RecencyList κ α) (key : κ) (value : α) : List κ × RecencyList κ α :=
  match m.items.find? (·.1 == key) with
  | some item => ([], { m with items := (item.1, value) :: m.items.eraseP (·.1 == key) })
  | none =>
      if m.capacity = 0 then ([key], m)
      else
        let (evicted, m) := m.keepFirst (m.capacity - 1)
        (evicted, { m with items := (key, value) :: m.items })

def erase (m : RecencyList κ α) (key : κ) : Option α × RecencyList κ α :=
  ((m.items.find? (·.1 == key)).map (·.2), { m with items := m.items.eraseP (·.1 == key) })

def contains (m : RecencyList κ α) (key : κ) : Bool := (m.items.find? (·.1 == key)).isSome

def keys (m : RecencyList κ α) : List κ := m.items.map (·.1)

def clear (m : RecencyList κ α) : RecencyList κ α := empty m.capacity

def setCapacity (m : RecencyList κ α) (capacity : Nat) : List κ × RecencyList κ α :=
  { m with capacity }.keepFirst capacity

end RecencyList

/-! ## Operations -/

namespace Recency

inductive Operation (κ α : Type) where
  | get (key : κ)
  | put (key : κ) (value : α)
  | remove (key : κ)
  | contains (key : κ)
  | clear
  | setCapacity (capacity : Nat)
  | keys

inductive Answer (κ α : Type) where
  | value (held : Option α)
  | keys (keys : List κ)
  | known (isKnown : Bool)
  | done

variable [BEq κ] [Hashable κ]

/-- The greatest capacity that a cache has had, after an operation that may set another one. -/
def Operation.raise (most : Nat) : Operation κ α → Nat
  | .setCapacity capacity => max most capacity
  | _ => most

def perform (c : Recency κ α) : Operation κ α → Answer κ α × Recency κ α
  | .get key => (c.get? key).map .value id
  | .put key value => (c.put key value).map .keys id
  | .remove key => (c.erase key).map .value id
  | .contains key => (.known (c.contains key), c)
  | .clear => (.done, c.clear)
  | .setCapacity capacity => (c.setCapacity capacity).map .keys id
  | .keys => (.keys c.keys, c)

/-- The answers to operations, and the cache after them. -/
def run (c : Recency κ α) : List (Operation κ α) → List (Answer κ α) × Recency κ α
  | [] => ([], c)
  | operation :: rest =>
      let (answer, c) := c.perform operation
      (c.run rest).map (answer :: ·) id

end Recency

namespace RecencyList

open Recency (Operation Answer)

variable [BEq κ]

def perform (m : RecencyList κ α) : Operation κ α → Answer κ α × RecencyList κ α
  | .get key => (m.get? key).map .value id
  | .put key value => (m.put key value).map .keys id
  | .remove key => (m.erase key).map .value id
  | .contains key => (.known (m.contains key), m)
  | .clear => (.done, m.clear)
  | .setCapacity capacity => (m.setCapacity capacity).map .keys id
  | .keys => (.keys m.keys, m)

def run (m : RecencyList κ α) : List (Operation κ α) → List (Answer κ α) × RecencyList κ α
  | [] => ([], m)
  | operation :: rest =>
      let (answer, m) := m.perform operation
      (m.run rest).map (answer :: ·) id

end RecencyList

namespace Recency

variable [BEq κ] [Hashable κ] {c after : Recency κ α} {m : RecencyList κ α} {key : κ} {value : α}
  {index : Nat} {entry : Entry κ α} {front back order : List (Entry κ α)} {newer older : Option Nat}

/-! ## Answers of the model -/

/-- A key is known to neither a cache nor its items, or to both in the same place. -/
theorem Represents.find (represents : c.Represents order) (key : κ) :
    (c.places[key]? = none ∧ (order.map Entry.item).find? (·.1 == key) = none ∧
        (order.map Entry.item).eraseP (·.1 == key) = order.map Entry.item) ∨
      ∃ front entry back, order = front ++ entry :: back ∧ (entry.key == key) = true ∧
        (order.map Entry.item).find? (·.1 == key) = some entry.item ∧
        (order.map Entry.item).eraseP (·.1 == key) = (front ++ back).map Entry.item := by
  rw [List.find?_map, List.eraseP_map]
  change (_ ∧ (order.find? (·.key == key)).map Entry.item = none ∧
    (order.eraseP (·.key == key)).map Entry.item = _) ∨ ∃ front entry back, _ ∧ _ ∧
      (order.find? (·.key == key)).map Entry.item = _ ∧ (order.eraseP (·.key == key)).map Entry.item = _
  cases found : order.find? (·.key == key) with
  | none =>
      rw [List.find?_eq_none] at found
      simp only [Bool.not_eq_true] at found
      exact .inl ⟨represents.absent_iff.mpr found, rfl, by
        rw [List.eraseP_of_forall_not (by simpa using found)]⟩
  | some entry =>
      obtain ⟨same, front, back, rfl, differs⟩ := List.find?_eq_some_iff_append.mp found
      refine .inr ⟨front, entry, back, rfl, same, rfl, ?_⟩
      rw [List.eraseP_append_right _ (by simpa using differs),
        @List.eraseP_cons_of_pos _ entry back (·.key == key) same]

omit [BEq κ] [Hashable κ] in
theorem keepFirst_eq (items : order.map Entry.item = m.items) (room : Nat) : m.keepFirst room =
    (((order.drop room).map (·.key)).reverse, { m with items := (order.take room).map Entry.item }) := by
  rw [RecencyList.keepFirst, ← items, ← List.map_drop, List.map_map, List.map_take]
  rfl

/-- A cache is as the plain model says, in no more slots than `most`. -/
structure Refines (c : Recency κ α) (m : RecencyList κ α) (most : Nat) : Prop where
  capacity : c.capacity = m.capacity
  represents : ∃ order, c.Represents order ∧ order.map Entry.item = m.items
  fits : m.items.length ≤ m.capacity
  slots : c.slots.size ≤ most
  most : m.capacity ≤ most

variable [EquivBEq κ] {most : Nat}

theorem Refines.get? (refines : c.Refines m most) (key : κ) :
    (c.get? key).1 = (m.get? key).1 ∧ (c.get? key).2.Refines (m.get? key).2 most := by
  obtain ⟨order, represents, items⟩ := refines.represents
  unfold Recency.get? RecencyList.get?
  rw [← items]
  rcases represents.find key with ⟨absent, none, _⟩ | ⟨front, entry, back, rfl, same, found, erased⟩
  · rw [absent, none]
    exact ⟨rfl, refines⟩
  · have touched := represents.touch
    have relinked := @relinked_touch κ α _ _ c entry.index
    have slot := @Ordered.slot? κ α _ _ _ entry [] (front ++ back) touched.toOrdered
    rw [represents.place_eq same, found, erased]
    refine ⟨?_, relinked.capacity.trans refines.capacity, ⟨_, touched, rfl⟩, ?_,
      relinked.slots ▸ refines.slots, refines.most⟩
    · simp only [slot]
      rfl
    · have fits := refines.fits
      simp only [← items, List.length_map, List.length_append, List.length_cons] at fits ⊢
      omega

variable [LawfulHashable κ]

theorem Refines.erase (refines : c.Refines m most) (key : κ) :
    (c.erase key).1 = (m.erase key).1 ∧ (c.erase key).2.Refines (m.erase key).2 most := by
  obtain ⟨order, represents, items⟩ := refines.represents
  have fits := refines.fits
  unfold RecencyList.erase
  rw [← items] at fits ⊢
  rcases represents.find key with ⟨absent, none, kept⟩ | ⟨front, entry, back, rfl, same, found, erased⟩
  · rw [Recency.erase, absent, none, kept, items]
    exact ⟨rfl, refines⟩
  · obtain ⟨value, represents, keeps⟩ := represents.erase same
    rw [found, erased]
    refine ⟨value, keeps.capacity.trans refines.capacity, ⟨_, represents, rfl⟩, ?_,
      keeps.slots ▸ refines.slots, refines.most⟩
    simp only [List.length_map, List.length_append, List.length_cons] at fits ⊢
    omega

theorem Refines.setCapacity (refines : c.Refines m most) (capacity : Nat) :
    (c.setCapacity capacity).1 = (m.setCapacity capacity).1 ∧
      (c.setCapacity capacity).2.Refines (m.setCapacity capacity).2 (max most capacity) := by
  obtain ⟨order, represents, items⟩ := refines.represents
  have resized : ({ c with capacity } : Recency κ α).Represents order :=
    ⟨represents.toOrdered.congr (fun _ _ => rfl) rfl rfl, represents.places, represents.keys,
      represents.size, represents.freeDistinct, represents.free, represents.accounted⟩
  obtain ⟨after, evicted, rest, keeps⟩ :=
    resized.evictDownTo capacity c.size (Nat.le_of_eq represents.size.symm)
  have kept := @keepFirst_eq κ α { m with capacity } order items capacity
  rw [Recency.setCapacity, RecencyList.setCapacity, evicted, kept]
  refine ⟨rfl, keeps.capacity, ⟨_, rest, rfl⟩, ?_, ?_, Nat.le_max_right _ _⟩
  · simp only [List.length_map, List.length_take]
    exact Nat.min_le_left _ _
  · rw [keeps.slots]
    exact Nat.le_trans refines.slots (Nat.le_max_left _ _)

theorem Refines.put_of_absent (refines : c.Refines m most) (absent : c.places[key]? = none)
    (unknown : m.items.find? (·.1 == key) = none) (value : α) :
    (c.put key value).1 = (m.put key value).1 ∧ (c.put key value).2.Refines (m.put key value).2 most := by
  obtain ⟨order, represents, items⟩ := refines.represents
  unfold RecencyList.put
  rw [unknown]
  by_cases noRoom : m.capacity = 0
  · rw [Recency.put, absent]
    simp only [refines.capacity, noRoom, if_true]
    exact ⟨trivial, refines⟩
  · have room : c.capacity ≠ 0 := refines.capacity ▸ noRoom
    obtain ⟨middle, gone, kept, keeps⟩ :=
      represents.evictDownTo (c.capacity - 1) c.size (Nat.le_of_eq represents.size.symm)
    obtain ⟨index, after, placed, holds, places, capacity, slots⟩ := kept.place key value
    have stillAbsent : middle.places[key]? = none := kept.absent_iff.mpr fun entry member =>
      represents.absent_iff.mp absent entry (List.mem_of_mem_take member)
    have represented := holds.represents kept places stillAbsent
    have relinked := @relinked_linkFront κ α _ _ { after with places := after.places.insert key index } index
    rw [Recency.put_of_absent absent room gone placed, if_neg noRoom, keepFirst_eq items,
      refines.capacity]
    rw [keeps.slots, List.length_take] at slots
    have most := refines.most
    have fits := refines.slots
    have same := refines.capacity
    refine ⟨rfl, ?_, ⟨_, represented, ?_⟩, ?_, ?_, refines.most⟩
    · exact relinked.capacity.trans (capacity.trans (keeps.capacity.trans refines.capacity))
    · rw [refines.capacity]
      rfl
    · simp only [List.length_cons, List.length_map, List.length_take]
      omega
    · rw [relinked.slots]
      change after.slots.size ≤ _
      omega

theorem Refines.put (refines : c.Refines m most) (key : κ) (value : α) :
    (c.put key value).1 = (m.put key value).1 ∧ (c.put key value).2.Refines (m.put key value).2 most := by
  obtain ⟨order, represents, items⟩ := refines.represents
  rcases represents.find key with ⟨absent, none, _⟩ | ⟨front, entry, back, rfl, same, found, erased⟩
  · exact refines.put_of_absent absent (items ▸ none) value
  · have fits := refines.fits
    have touched := (represents.setValue value).touch
    have relinked := (@relinked_changeSlot κ α _ _ c entry.index fun s => { s with value }).trans
      (relinked_touch entry.index)
    unfold Recency.put RecencyList.put
    rw [← items] at fits ⊢
    rw [represents.place_eq same, found, erased]
    refine ⟨rfl, relinked.capacity.trans refines.capacity, ⟨_, touched, rfl⟩, ?_,
      relinked.slots ▸ refines.slots, refines.most⟩
    simp only [List.length_map, List.length_append, List.length_cons] at fits ⊢
    omega

/-! ## Runs -/

omit [EquivBEq κ] [LawfulHashable κ] in
theorem refines_empty {capacity : Nat} (le : capacity ≤ most) :
    (empty capacity : Recency κ α).Refines (.empty capacity) most where
  capacity := rfl
  represents := ⟨[], represents_empty capacity, rfl⟩
  fits := Nat.zero_le _
  slots := Nat.zero_le _
  most := le

theorem Refines.contains (refines : c.Refines m most) (key : κ) : c.contains key = m.contains key := by
  obtain ⟨order, represents, items⟩ := refines.represents
  rw [Recency.contains, Std.HashMap.contains_eq_isSome_getElem?, RecencyList.contains, ← items]
  rcases represents.find key with ⟨absent, none, _⟩ | ⟨front, entry, back, rfl, same, found, _⟩
  · rw [absent, none]
    rfl
  · rw [represents.place_eq same, found]
    rfl

omit [EquivBEq κ] [LawfulHashable κ] in
theorem Refines.keys (refines : c.Refines m most) : c.keys = m.keys := by
  obtain ⟨order, represents, items⟩ := refines.represents
  rw [Recency.keys, represents.toList_eq, items, RecencyList.keys]

/-- One operation answers as in the model, and leaves what the model says. -/
theorem Refines.perform (refines : c.Refines m most) (operation : Operation κ α) :
    (c.perform operation).1 = (m.perform operation).1 ∧ (c.perform operation).2.Refines
      (m.perform operation).2 (operation.raise most) := by
  cases operation with
  | get key =>
      obtain ⟨answer, after⟩ := refines.get? key
      exact ⟨congrArg Answer.value answer, after⟩
  | put key value =>
      obtain ⟨answer, after⟩ := refines.put key value
      exact ⟨congrArg Answer.keys answer, after⟩
  | remove key =>
      obtain ⟨answer, after⟩ := refines.erase key
      exact ⟨congrArg Answer.value answer, after⟩
  | contains key =>
      exact ⟨congrArg Answer.known (refines.contains key), refines⟩
  | clear =>
      refine ⟨rfl, ?_⟩
      change (empty c.capacity).Refines (.empty m.capacity) most
      rw [refines.capacity]
      exact refines_empty refines.most
  | setCapacity capacity =>
      obtain ⟨answer, after⟩ := refines.setCapacity capacity
      exact ⟨congrArg Answer.keys answer, after⟩
  | keys => exact ⟨congrArg Answer.keys refines.keys, refines⟩

/-- The map, the links and the free slots of a cache describe the same slots. -/
structure Consistent (c : Recency κ α) : Prop where
  size_le : c.size ≤ c.capacity
  size : c.size = c.chain.length
  back : c.chainBack = c.chain.reverse
  distinct : c.chain.Nodup
  linked : ∀ index, index ∈ c.chain ↔ ∃ slot, c.slot? index = some slot
  places : ∀ (key : κ) index, c.places[key]? = some index ↔
    ∃ slot, c.slot? index = some slot ∧ (slot.key == key) = true
  freeDistinct : c.free.Nodup
  free : ∀ index, index ∈ c.free ↔ index < c.slots.size ∧ index ∉ c.chain

omit [EquivBEq κ] [LawfulHashable κ] in
/-- A slot in use is that of an entry. -/
theorem Represents.exists_entry (represents : c.Represents order) {slot : Slot κ α}
    (found : c.slot? index = some slot) : ∃ entry ∈ order, entry.index = index ∧ entry.key = slot.key := by
  rcases represents.accounted index (lt_of_slot? found) with inFree | inOrder
  · rw [slot?, represents.free index inFree] at found
    contradiction
  · obtain ⟨entry, member, rfl⟩ := List.mem_map.mp inOrder
    obtain ⟨front, back, rfl⟩ := List.append_of_mem member
    rw [represents.slot?] at found
    exact ⟨entry, member, rfl, Option.some.inj found ▸ rfl⟩

omit [EquivBEq κ] [LawfulHashable κ] in
theorem Refines.consistent (refines : c.Refines m most) : c.Consistent := by
  obtain ⟨order, represents, items⟩ := refines.represents
  have chain := represents.chain_eq
  have fits := refines.fits
  rw [← items, List.length_map, ← refines.capacity] at fits
  refine ⟨?_, ?_, represents.chainBack_eq, chain ▸ represents.distinct, ?_, ?_,
    represents.freeDistinct, ?_⟩
  · rw [size, represents.size]
    exact fits
  · rw [size, represents.size, chain, List.length_map]
  · intro index
    rw [chain]
    constructor
    · exact represents.exists_slot
    · rintro ⟨slot, found⟩
      obtain ⟨entry, member, rfl, _⟩ := represents.exists_entry found
      exact List.mem_map_of_mem member
  · intro key index
    rw [represents.places]
    constructor
    · rintro ⟨entry, member, same, rfl⟩
      obtain ⟨front, back, rfl⟩ := List.append_of_mem member
      exact ⟨_, represents.slot?, same⟩
    · rintro ⟨slot, found, same⟩
      obtain ⟨entry, member, isIndex, isKey⟩ := represents.exists_entry found
      exact ⟨entry, member, isKey ▸ same, isIndex⟩
  · intro index
    rw [chain]
    constructor
    · intro inFree
      have inBounds := (Array.getElem?_eq_some_iff.mp (represents.free index inFree)).1
      exact ⟨inBounds, fun inOrder => represents.notFree inOrder inFree⟩
    · rintro ⟨inBounds, notInOrder⟩
      exact (represents.accounted index inBounds).resolve_right notInOrder

theorem Refines.run (refines : c.Refines m most) (operations : List (Operation κ α)) :
    (c.run operations).1 = (m.run operations).1 ∧ (c.run operations).2.Refines (m.run operations).2
      (operations.foldl Operation.raise most) := by
  induction operations generalizing c m most with
  | nil => exact ⟨rfl, refines⟩
  | cons operation rest ih =>
      obtain ⟨answer, after⟩ := refines.perform operation
      obtain ⟨answers, last⟩ := ih after
      exact ⟨congrArg₂ List.cons answer answers, last⟩

/-- Whatever the operations, a cache answers as the list of its items does, stays consistent, and has
no more slots than the greatest capacity it has had. -/
theorem answers_run (capacity : Nat) (operations : List (Operation κ α)) :
    let c := ((empty capacity : Recency κ α).run operations).2
    let m := ((RecencyList.empty capacity : RecencyList κ α).run operations).2
    ((empty capacity : Recency κ α).run operations).1 =
        ((RecencyList.empty capacity : RecencyList κ α).run operations).1 ∧
      c.capacity = m.capacity ∧ c.toList = m.items ∧ c.Consistent ∧
      c.slots.size ≤ operations.foldl Operation.raise capacity := by
  obtain ⟨answers, refines⟩ := (refines_empty (Nat.le_refl capacity)).run operations
  refine ⟨answers, refines.capacity, ?_, refines.consistent, refines.slots⟩
  obtain ⟨order, represents, items⟩ := refines.represents
  rw [represents.toList_eq, items]

/-- Three keys in a cache for two of them, and the cache made smaller. -/
def threeKeys : List (Operation String Nat) :=
  [.put "a" 1, .put "b" 2, .get "a", .put "c" 3, .contains "b", .setCapacity 1, .keys]

theorem answers_run_threeKeys : ((empty 2 : Recency String Nat).run threeKeys).1 =
    [.keys [], .keys [], .value (some 1), .keys ["b"], .known false, .keys ["a"], .keys ["c"]] ∧
    ((empty 2 : Recency String Nat).run threeKeys).2.Consistent :=
  ⟨(answers_run 2 threeKeys).1.trans rfl, (answers_run 2 threeKeys).2.2.2.1⟩

end Recency

end Haystack
