import Haystack.Recency
import Mathlib.Data.List.Induction
import Mathlib.Data.List.Nodup
import Mathlib.Data.List.Perm.Basic

/-!
The slots of a cache in their order of use.

The order is a list of entries, the most recently used one first. Each slot names the slots of the
entries beside its own, so that an order is a front and a back that are linked on their own and name
each other where they meet. Taking a slot out, or putting one in front, changes the names at that
place and nothing else.
-/
namespace Haystack.Recency

/-- An item with its slot. -/
structure Entry (κ α : Type) where
  index : Nat
  key : κ
  value : α

def Entry.item {κ α : Type} (entry : Entry κ α) : κ × α := (entry.key, entry.value)

/-- The slot and the key of an entry, without its value. -/
def Entry.site {κ α : Type} (entry : Entry κ α) : Nat × κ := (entry.index, entry.key)

section Entries

variable {κ α : Type} {slot? other : Nat → Option (Slot κ α)} {newer older : Option Nat}
  {entry : Entry κ α} {front back order : List (Entry κ α)}

/-- The slot of the first entry, or what stands after all of them. -/
def firstOf (older : Option Nat) : List (Entry κ α) → Option Nat
  | [] => older
  | entry :: _ => some entry.index

/-- The slot of the last entry, or what stands before all of them. -/
def lastOf (newer : Option Nat) : List (Entry κ α) → Option Nat
  | [] => newer
  | entry :: rest => lastOf (some entry.index) rest

/-- The slots of some entries name each other in order, the outer ones what stands around them. -/
def Linked (slot? : Nat → Option (Slot κ α)) (newer older : Option Nat) : List (Entry κ α) → Prop
  | [] => True
  | entry :: rest =>
      slot? entry.index = some ⟨entry.key, entry.value, newer, firstOf older rest⟩ ∧
        Linked slot? (some entry.index) older rest

theorem firstOf_append : firstOf older (front ++ back) = firstOf (firstOf older back) front := by
  cases front <;> rfl

theorem lastOf_append : lastOf newer (front ++ back) = lastOf (lastOf newer front) back := by
  induction front generalizing newer with
  | nil => rfl
  | cons entry rest ih => exact ih

theorem exists_lastOf (index : Nat) (order : List (Entry κ α)) :
    ∃ last, lastOf (some index) order = some last := by
  induction order generalizing index with
  | nil => exact ⟨index, rfl⟩
  | cons entry rest ih => exact ih entry.index

theorem mem_of_firstOf {index : Nat} (first : firstOf none order = some index) :
    index ∈ order.map (·.index) := by
  cases order with
  | nil => exact nomatch first
  | cons entry rest => exact Option.some.inj first ▸ List.mem_cons_self

theorem mem_of_lastOf {index : Nat} (last : lastOf none order = some index) :
    index ∈ order.map (·.index) := by
  rcases List.eq_nil_or_concat order with rfl | ⟨before, entry, rfl⟩
  · exact nomatch last
  · rw [List.concat_eq_append, lastOf_append] at last
    rw [List.concat_eq_append, ← Option.some.inj last]
    simp

theorem linked_append : Linked slot? newer older (front ++ back) ↔
    Linked slot? newer (firstOf older back) front ∧ Linked slot? (lastOf newer front) older back := by
  induction front generalizing newer with
  | nil => simp [Linked, lastOf]
  | cons entry rest ih =>
      rw [List.cons_append, Linked, Linked, ih, firstOf_append, and_assoc]
      rfl

/-- Links are read in the slots of the entries alone. -/
theorem Linked.congr (linked : Linked slot? newer older order)
    (same : ∀ index ∈ order.map (·.index), other index = slot? index) :
    Linked other newer older order := by
  induction order generalizing newer with
  | nil => trivial
  | cons entry rest ih =>
      rw [List.map_cons, List.forall_mem_cons] at same
      exact ⟨same.1.trans linked.1, ih linked.2 same.2⟩

end Entries

variable {κ α : Type} [BEq κ] [Hashable κ] {c after : Recency κ α} {newer older place : Option Nat}
  {index : Nat} {slot : Slot κ α} {entry : Entry κ α} {front back order : List (Entry κ α)}

/-! ## Changes of links -/

theorem slot?_changeSlot (change : Slot κ α → Slot κ α) (place index : Nat) :
    (c.changeSlot place change).slot? index =
      if place = index then (c.slot? index).map change else c.slot? index := by
  rw [slot?, slot?, changeSlot, Array.getElem?_modify]
  split
  · cases c.slots[index]? <;> rfl
  · rfl

/-- Name an older neighbour in a slot, or the newest slot of all. -/
def setOlder (c : Recency κ α) (place older : Option Nat) : Recency κ α :=
  match place with
  | some index => c.changeSlot index fun s => { s with older }
  | none => { c with newest := older }

/-- Name a newer neighbour in a slot, or the oldest slot of all. -/
def setNewer (c : Recency κ α) (place newer : Option Nat) : Recency κ α :=
  match place with
  | some index => c.changeSlot index fun s => { s with newer }
  | none => { c with oldest := newer }

theorem unlink_eq (found : c.slot? index = some slot) :
    c.unlink index = (c.setOlder slot.newer slot.older).setNewer slot.older slot.newer := by
  obtain ⟨key, value, newer, older⟩ := slot
  rw [unlink, found]
  cases newer <;> cases older <;> rfl

theorem slot?_setOlder_of_ne (differs : place ≠ some index) :
    (c.setOlder place older).slot? index = c.slot? index := by
  cases place with
  | none => rfl
  | some place => exact (slot?_changeSlot ..).trans (if_neg fun same => differs (congrArg some same))

theorem slot?_setNewer_of_ne (differs : place ≠ some index) :
    (c.setNewer place newer).slot? index = c.slot? index := by
  cases place with
  | none => rfl
  | some place => exact (slot?_changeSlot ..).trans (if_neg fun same => differs (congrArg some same))

/-- What follows the last of some entries is another slot. -/
theorem Linked.setOlder (linked : Linked c.slot? newer older order)
    (distinct : (order.map (·.index)).Nodup) (next : Option Nat) :
    Linked (c.setOlder (lastOf none order) next).slot? newer next order := by
  rcases List.eq_nil_or_concat order with rfl | ⟨before, entry, rfl⟩
  · trivial
  · rw [List.concat_eq_append] at linked distinct ⊢
    rw [List.map_append, List.nodup_append] at distinct
    obtain ⟨linkedBefore, found, _⟩ := linked_append.mp linked
    rw [lastOf_append]
    refine linked_append.mpr ⟨linkedBefore.congr fun index member => ?_, ?_, trivial⟩
    · refine slot?_setOlder_of_ne fun same => ?_
      exact distinct.2.2 index member entry.index (by simp) (Option.some.inj same).symm
    · refine (slot?_changeSlot ..).trans ?_
      rw [if_pos rfl, found]
      rfl

/-- What precedes the first of some entries is another slot. -/
theorem Linked.setNewer (linked : Linked c.slot? newer older order)
    (distinct : (order.map (·.index)).Nodup) (next : Option Nat) :
    Linked (c.setNewer (firstOf none order) next).slot? next older order := by
  cases order with
  | nil => trivial
  | cons entry rest =>
      rw [List.map_cons, List.nodup_cons] at distinct
      refine ⟨?_, linked.2.congr fun index member => ?_⟩
      · refine (slot?_changeSlot ..).trans ?_
        rw [if_pos rfl, linked.1]
        rfl
      · refine slot?_setNewer_of_ne fun same => distinct.1 ?_
        exact Option.some.inj same ▸ member

/-! ## What links do not matter for -/

/-- Two caches that differ in their links alone. -/
structure Relinked (before after : Recency κ α) : Prop where
  capacity : after.capacity = before.capacity
  places : after.places = before.places
  free : after.free = before.free
  slots : after.slots.size = before.slots.size
  vacant : ∀ index : Nat, after.slots[index]? = some none ↔ before.slots[index]? = some none

theorem Relinked.refl (c : Recency κ α) : Relinked c c := ⟨rfl, rfl, rfl, rfl, fun _ => .rfl⟩

theorem Relinked.trans {last : Recency κ α} (first : Relinked c after) (second : Relinked after last) :
    Relinked c last where
  capacity := second.capacity.trans first.capacity
  places := second.places.trans first.places
  free := second.free.trans first.free
  slots := second.slots.trans first.slots
  vacant := fun index => (second.vacant index).trans (first.vacant index)

theorem relinked_changeSlot (place : Nat) (change : Slot κ α → Slot κ α) :
    Relinked c (c.changeSlot place change) where
  capacity := rfl
  places := rfl
  free := rfl
  slots := Array.size_modify
  vacant := fun index => by
    rw [changeSlot, Array.getElem?_modify]
    split
    · cases c.slots[index]? with
      | none => simp
      | some held => cases held <;> simp
    · rfl

theorem relinked_ends : Relinked c { c with newest := newer, oldest := older } :=
  ⟨rfl, rfl, rfl, rfl, fun _ => .rfl⟩

theorem relinked_setOlder : Relinked c (c.setOlder place older) := by
  cases place with
  | none => exact relinked_ends
  | some place => exact relinked_changeSlot place _

theorem relinked_setNewer : Relinked c (c.setNewer place newer) := by
  cases place with
  | none => exact relinked_ends
  | some place => exact relinked_changeSlot place _

theorem relinked_unlink (index : Nat) : Relinked c (c.unlink index) := by
  cases found : c.slot? index with
  | none =>
      rw [unlink, found]
      exact .refl c
  | some slot =>
      rw [unlink_eq found]
      exact relinked_setOlder.trans relinked_setNewer

theorem relinked_linkFront (index : Nat) : Relinked c (c.linkFront index) := by
  unfold linkFront
  cases c.newest with
  | none => exact (relinked_changeSlot index _).trans relinked_ends
  | some front =>
      exact ((relinked_changeSlot index _).trans (relinked_changeSlot front _)).trans relinked_ends

theorem relinked_touch (index : Nat) : Relinked c (c.touch index) := by
  unfold touch
  split
  · exact .refl c
  · exact (relinked_unlink index).trans (relinked_linkFront index)

/-! ## The order of use -/

/-- The slots of a cache that are in use, linked in order. -/
structure Ordered (c : Recency κ α) (order : List (Entry κ α)) : Prop where
  linked : Linked c.slot? none none order
  newest : c.newest = firstOf none order
  oldest : c.oldest = lastOf none order
  distinct : (order.map (·.index)).Nodup

theorem Ordered.congr (ordered : c.Ordered order)
    (same : ∀ index ∈ order.map (·.index), after.slot? index = c.slot? index)
    (newest : after.newest = c.newest) (oldest : after.oldest = c.oldest) : after.Ordered order where
  linked := ordered.linked.congr same
  newest := newest.trans ordered.newest
  oldest := oldest.trans ordered.oldest
  distinct := ordered.distinct

theorem Ordered.slot? (ordered : c.Ordered (front ++ entry :: back)) : c.slot? entry.index =
    some ⟨entry.key, entry.value, lastOf none front, firstOf none back⟩ :=
  (linked_append.mp ordered.linked).2.1

theorem Ordered.fresh (ordered : c.Ordered (front ++ entry :: back)) :
    entry.index ∉ front.map (·.index) ∧ entry.index ∉ back.map (·.index) := by
  have distinct := ordered.distinct
  rw [List.map_append, List.map_cons, List.nodup_middle, List.nodup_cons, List.mem_append] at distinct
  exact not_or.mp distinct.1

/-- The neighbours of an entry are other ones. -/
theorem Ordered.neighbours (ordered : c.Ordered (front ++ entry :: back)) :
    lastOf none front ≠ some entry.index ∧ firstOf none back ≠ some entry.index :=
  ⟨fun last => ordered.fresh.1 (mem_of_lastOf last), fun first => ordered.fresh.2 (mem_of_firstOf first)⟩

theorem Ordered.slot?_unlink (ordered : c.Ordered (front ++ entry :: back)) :
    (c.unlink entry.index).slot? entry.index = c.slot? entry.index := by
  rw [unlink_eq ordered.slot?, slot?_setNewer_of_ne ordered.neighbours.2,
    slot?_setOlder_of_ne ordered.neighbours.1]

theorem newest_setOlder : (c.setOlder (lastOf none front) older).newest =
    if front = [] then older else c.newest := by
  rcases List.eq_nil_or_concat front with rfl | ⟨before, entry, rfl⟩
  · rfl
  · rw [List.concat_eq_append, lastOf_append, if_neg (by simp)]
    rfl

theorem oldest_setNewer : (c.setNewer (firstOf none back) newer).oldest =
    if back = [] then newer else c.oldest := by
  cases back with
  | nil => rfl
  | cons entry rest => exact (if_neg (List.cons_ne_nil entry rest)).symm

theorem newest_setNewer : (c.setNewer place newer).newest = c.newest := by
  cases place <;> rfl

theorem oldest_setOlder : (c.setOlder place older).oldest = c.oldest := by
  cases place <;> rfl

/-- A slot is taken out of the order where it stands. -/
theorem Ordered.unlink (ordered : c.Ordered (front ++ entry :: back)) :
    (c.unlink entry.index).Ordered (front ++ back) := by
  obtain ⟨linkedFront, _, linkedBack⟩ := linked_append.mp ordered.linked
  have distinct := ordered.distinct
  rw [List.map_append, List.map_cons, List.nodup_middle, List.nodup_cons, ← List.map_append] at distinct
  have parts := distinct.2
  rw [List.map_append, List.nodup_append] at parts
  have apart : ∀ index ∈ front.map (·.index), index ∉ back.map (·.index) := fun index inFront inBack =>
    parts.2.2 index inFront index inBack rfl
  rw [unlink_eq ordered.slot?]
  -- Each of the two new links is in a slot on one side of the gap and is not read on the other side.
  refine ⟨linked_append.mpr ⟨?_, ?_⟩, ?_, ?_, distinct.2⟩
  · refine (linkedFront.setOlder parts.1 _).congr fun index inFront => slot?_setNewer_of_ne fun first => ?_
    exact apart index inFront (mem_of_firstOf first)
  · refine Linked.setNewer (linkedBack.congr fun index inBack => ?_) parts.2.1 _
    exact slot?_setOlder_of_ne fun last => apart index (mem_of_lastOf last) inBack
  · rw [newest_setNewer, newest_setOlder, ordered.newest]
    cases front <;> rfl
  · rw [oldest_setNewer, oldest_setOlder, ordered.oldest, lastOf_append, lastOf_append]
    cases back <;> rfl

/-- A slot is put in front of the order. -/
theorem Ordered.linkFront (ordered : c.Ordered order) (fresh : index ∉ order.map (·.index))
    (found : c.slot? index = some slot) :
    (c.linkFront index).Ordered (⟨index, slot.key, slot.value⟩ :: order) := by
  have changed : (c.changeSlot index fun s => { s with newer := none, older := c.newest }).slot? index =
      some ⟨slot.key, slot.value, none, c.newest⟩ := by
    rw [slot?_changeSlot, if_pos rfl, found]
    rfl
  have kept : ∀ place ∈ order.map (·.index),
      (c.changeSlot index fun s => { s with newer := none, older := c.newest }).slot? place =
        c.slot? place := fun place member => by
    rw [slot?_changeSlot, if_neg]
    rintro rfl
    exact fresh member
  have distinct : ((⟨index, slot.key, slot.value⟩ :: order).map (·.index)).Nodup :=
    List.nodup_cons.mpr ⟨fresh, ordered.distinct⟩
  cases order with
  | nil =>
      -- No other slot names this one, which becomes the oldest one too.
      have newest : c.newest = none := ordered.newest
      have oldest : c.oldest = none := ordered.oldest
      rw [newest] at changed
      unfold Recency.linkFront
      rw [newest]
      refine ⟨⟨changed, trivial⟩, rfl, ?_, distinct⟩
      change c.oldest.or (some index) = some index
      rw [oldest]
      rfl
  | cons first rest =>
      have newest : c.newest = some first.index := ordered.newest
      rw [newest] at changed kept
      unfold Recency.linkFront
      rw [newest]
      have differs : some first.index ≠ some index := fun same =>
        fresh (Option.some.inj same ▸ List.mem_cons_self)
      refine ⟨⟨?_, ?_⟩, rfl, ?_, distinct⟩
      · exact (slot?_setNewer_of_ne differs).trans changed
      · exact (ordered.linked.congr kept).setNewer ordered.distinct (some index)
      · obtain ⟨last, isLast⟩ := exists_lastOf first.index rest
        have oldest : c.oldest = some last := ordered.oldest.trans isLast
        change c.oldest.or (some index) = lastOf (some first.index) rest
        rw [oldest, isLast]
        rfl

/-! ## Walks along the links -/

/-- The slots from one on along one kind of links, at most `limit` of them. -/
def walk (c : Recency κ α) (next : Slot κ α → Option Nat) : Option Nat → Nat → List Nat
  | some index, limit + 1 => index :: c.walk next ((c.slot? index).bind next) limit
  | _, _ => []

/-- The slots as they are linked from the newest one on. A walk that goes in circles is longer than
there are slots. -/
def chain (c : Recency κ α) : List Nat := c.walk (·.older) c.newest (c.slots.size + 1)

/-- The slots as they are linked from the oldest one on. -/
def chainBack (c : Recency κ α) : List Nat := c.walk (·.newer) c.oldest (c.slots.size + 1)

theorem Linked.walk_older (linked : Linked c.slot? newer none order) {limit : Nat}
    (enough : order.length ≤ limit) :
    c.walk (·.older) (firstOf none order) limit = order.map (·.index) := by
  induction order generalizing newer limit with
  | nil => cases limit <;> rfl
  | cons entry rest ih =>
      cases limit with
      | zero => exact absurd enough (Nat.not_succ_le_zero _)
      | succ limit =>
          rw [firstOf, walk, linked.1, Option.bind_some, ih linked.2 (Nat.le_of_succ_le_succ enough)]
          rfl

theorem Linked.walk_newer (linked : Linked c.slot? none older order) {limit : Nat}
    (enough : order.length ≤ limit) :
    c.walk (·.newer) (lastOf none order) limit = (order.map (·.index)).reverse := by
  induction order using List.reverseRecOn generalizing older limit with
  | nil => cases limit <;> rfl
  | append_singleton front entry ih =>
      rw [List.length_append, List.length_singleton] at enough
      obtain ⟨linkedFront, found, _⟩ := linked_append.mp linked
      cases limit with
      | zero => exact absurd enough (Nat.not_succ_le_zero _)
      | succ limit =>
          rw [lastOf_append, lastOf, lastOf, walk, found, Option.bind_some,
            ih linkedFront (Nat.le_of_succ_le_succ enough)]
          simp

theorem Linked.itemsFrom (linked : Linked c.slot? newer none order) {limit : Nat}
    (enough : order.length ≤ limit) :
    c.itemsFrom (firstOf none order) limit = order.map Entry.item := by
  induction order generalizing newer limit with
  | nil => cases limit <;> rfl
  | cons entry rest ih =>
      cases limit with
      | zero => exact absurd enough (Nat.not_succ_le_zero _)
      | succ limit =>
          rw [firstOf, Recency.itemsFrom, Option.bind_some, linked.1]
          simp only [ih linked.2 (Nat.le_of_succ_le_succ enough)]
          rfl

theorem lt_of_slot? {slot : Slot κ α} (found : c.slot? index = some slot) :
    index < c.slots.size := by
  by_contra beyond
  rw [slot?, Array.getElem?_eq_none (by omega)] at found
  exact nomatch found

theorem Ordered.exists_slot (ordered : c.Ordered order) (member : index ∈ order.map (·.index)) :
    ∃ slot, c.slot? index = some slot := by
  obtain ⟨entry, inOrder, rfl⟩ := List.mem_map.mp member
  obtain ⟨front, back, rfl⟩ := List.append_of_mem inOrder
  exact ⟨_, ordered.slot?⟩

theorem Ordered.length_le (ordered : c.Ordered order) : order.length ≤ c.slots.size := by
  have inBounds : order.map (·.index) ⊆ List.range c.slots.size := fun index member => by
    obtain ⟨slot, found⟩ := ordered.exists_slot member
    exact List.mem_range.mpr (lt_of_slot? found)
  have sizes := (List.subperm_of_subset ordered.distinct inBounds).length_le
  rwa [List.length_range, List.length_map] at sizes

theorem Ordered.toList_eq (ordered : c.Ordered order) : c.toList = order.map Entry.item := by
  rw [toList, ordered.newest, ordered.linked.itemsFrom ordered.length_le]

theorem Ordered.chain_eq (ordered : c.Ordered order) : c.chain = order.map (·.index) := by
  rw [chain, ordered.newest, ordered.linked.walk_older (Nat.le_succ_of_le ordered.length_le)]

theorem Ordered.chainBack_eq (ordered : c.Ordered order) : c.chainBack = c.chain.reverse := by
  rw [chainBack, ordered.oldest, ordered.linked.walk_newer (Nat.le_succ_of_le ordered.length_le),
    ordered.chain_eq]

end Haystack.Recency
