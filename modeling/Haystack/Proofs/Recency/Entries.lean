import Haystack.Proofs.Recency.Links

/-!
The entries of a cache, and what each operation makes of them.

The map leads each key to the slot of its entry, and each slot is in use or free. So an operation on
the slots is one on the list of entries in their order of use: moved to the front, taken out, put in
front, or dropped from the back.
-/
namespace Haystack.Recency

variable {κ α : Type} [BEq κ] [Hashable κ] {c after : Recency κ α} {key : κ} {value : α}
  {index : Nat} {entry : Entry κ α} {front back order other : List (Entry κ α)}

/-- A cache holds some entries in their order of use. -/
structure Represents (c : Recency κ α) (order : List (Entry κ α)) : Prop extends c.Ordered order where
  places : ∀ (key : κ) (index : Nat), c.places[key]? = some index ↔
    ∃ entry ∈ order, (entry.key == key) = true ∧ entry.index = index
  keys : order.Pairwise fun a b => (a.key == b.key) = false
  size : c.places.size = order.length
  freeDistinct : c.free.Nodup
  free : ∀ index ∈ c.free, c.slots[index]? = some none
  accounted : ∀ index < c.slots.size, index ∈ c.free ∨ index ∈ order.map (·.index)

/-- A change that makes no slots and leaves the capacity. -/
structure Keeps (before after : Recency κ α) : Prop where
  capacity : after.capacity = before.capacity
  slots : after.slots.size = before.slots.size

theorem Keeps.refl (c : Recency κ α) : Keeps c c := ⟨rfl, rfl⟩

theorem Keeps.trans {last : Recency κ α} (first : Keeps c after) (second : Keeps after last) :
    Keeps c last := ⟨second.capacity.trans first.capacity, second.slots.trans first.slots⟩

theorem Relinked.keeps (relinked : Relinked c after) : Keeps c after :=
  ⟨relinked.capacity, relinked.slots⟩

/-! ## Slots -/

theorem slot?_setIfInBounds_of_ne {place : Nat} {slot : Option (Slot κ α)} (differs : index ≠ place) :
    ({ c with slots := c.slots.setIfInBounds place slot } : Recency κ α).slot? index = c.slot? index := by
  rw [slot?, slot?, Array.getElem?_setIfInBounds_ne differs.symm]

theorem Represents.notFree (represents : c.Represents order) (member : index ∈ order.map (·.index)) :
    index ∉ c.free := fun inFree => by
  obtain ⟨slot, found⟩ := represents.exists_slot member
  rw [slot?, represents.free index inFree] at found
  contradiction

/-- Without a free slot all slots are in use. -/
theorem Represents.slots_le (represents : c.Represents order) (none : c.free = []) :
    c.slots.size ≤ order.length := by
  have all : List.range c.slots.size ⊆ order.map (·.index) := fun index member => by
    rcases represents.accounted index (List.mem_range.mp member) with inFree | inOrder
    · rw [none] at inFree
      exact nomatch inFree
    · exact inOrder
  have sizes := (List.subperm_of_subset List.nodup_range all).length_le
  rwa [List.length_range, List.length_map] at sizes

/-- Take a key from the map. -/
def forget (c : Recency κ α) (key : κ) : Recency κ α := { c with places := c.places.erase key }

/-- Free a slot. -/
def vacate (c : Recency κ α) (index : Nat) : Recency κ α :=
  { c with slots := c.slots.setIfInBounds index none, free := index :: c.free }

theorem erase_eq (found : c.places[key]? = some index) : c.erase key =
    ((((c.forget key).unlink index).slot? index).map (·.value), ((c.forget key).unlink index).vacate index) := by
  rw [erase, found]
  rfl

theorem vacant_vacate (inBounds : index < c.slots.size) :
    (c.vacate index).slots[index]? = some none := by
  rw [vacate, Array.getElem?_setIfInBounds_self_of_lt inBounds]

theorem vacant_vacate_of_vacant {place : Nat} (vacant : c.slots[place]? = some none) :
    (c.vacate index).slots[place]? = some none := by
  by_cases same : index = place
  · subst same
    exact vacant_vacate (Array.getElem?_eq_some_iff.mp vacant).1
  · rw [vacate, Array.getElem?_setIfInBounds_ne same, vacant]

/-- Where a key is new and there is room at all, entries are given up before it is put in front. -/
theorem put_of_absent {middle : Recency κ α} {evicted : List κ} (absent : c.places[key]? = none)
    (room : c.capacity ≠ 0) (gone : c.evictDownTo (c.capacity - 1) c.size = (evicted, middle))
    (placed : middle.place key value = (index, after)) : c.put key value =
      (evicted, { after with places := after.places.insert key index }.linkFront index) := by
  rw [Recency.put, absent]
  simp only [if_neg room, gone, placed]

theorem represents_empty (capacity : Nat) : (empty capacity : Recency κ α).Represents [] where
  linked := trivial
  newest := rfl
  oldest := rfl
  distinct := List.nodup_nil
  places := fun key index => by simp [empty]
  keys := .nil
  size := by simp [empty]
  freeDistinct := List.nodup_nil
  free := fun _ member => nomatch member
  accounted := fun _ bound => absurd bound (Nat.not_lt_zero _)

/-! ## Keys -/

theorem Represents.place_eq (represents : c.Represents (front ++ entry :: back))
    (same : (entry.key == key) = true) : c.places[key]? = some entry.index :=
  (represents.places key entry.index).mpr ⟨entry, by simp, same, rfl⟩

/-- A key has no place exactly if no entry has that key. -/
theorem Represents.absent_iff (represents : c.Represents order) :
    c.places[key]? = none ↔ ∀ entry ∈ order, (entry.key == key) = false := by
  constructor
  · intro absent entry member
    by_contra same
    rw [Bool.not_eq_false] at same
    have present := (represents.places key entry.index).mpr ⟨entry, member, same, rfl⟩
    rw [absent] at present
    exact nomatch present
  · intro differs
    cases found : c.places[key]? with
    | none => rfl
    | some index =>
        obtain ⟨entry, member, same, _⟩ := (represents.places key index).mp found
        rw [differs entry member] at same
        exact nomatch same

variable [EquivBEq κ]

/-- The keys of the other entries differ from that of an entry. -/
theorem Represents.apart (represents : c.Represents (front ++ entry :: back)) :
    ∀ other ∈ front ++ back, (entry.key == other.key) = false :=
  (List.pairwise_cons.mp ((List.pairwise_middle fun differs => BEq.comm.trans differs).mp represents.keys)).1

/-- Entries in the same slots under the same keys, with links for another order. -/
theorem Represents.relinked (represents : c.Represents order) (relinked : Relinked c after)
    (ordered : after.Ordered other) (perm : (other.map Entry.site).Perm (order.map Entry.site)) :
    after.Represents other where
  toOrdered := ordered
  places := fun key index => by
    have sites (entries : List (Entry κ α)) :
        (∃ entry ∈ entries, (entry.key == key) = true ∧ entry.index = index) ↔
          ∃ site ∈ entries.map Entry.site, (site.2 == key) = true ∧ site.1 = index := by
      simp [Entry.site]
    rw [relinked.places, represents.places, sites, sites]
    exact exists_congr fun site => and_congr_left fun _ => perm.mem_iff.symm
  keys := by
    have keys := represents.keys
    have sites (entries : List (Entry κ α)) : (entries.Pairwise fun a b => (a.key == b.key) = false) ↔
        (entries.map Entry.site).Pairwise fun a b => (a.2 == b.2) = false := by
      rw [List.pairwise_map]
      rfl
    rw [sites] at keys ⊢
    exact (perm.pairwise_iff fun differs => BEq.comm.trans differs).mpr keys
  size := by
    have sizes := perm.length_eq
    rw [List.length_map, List.length_map] at sizes
    rw [relinked.places, represents.size, sizes]
  freeDistinct := relinked.free ▸ represents.freeDistinct
  free := fun index member => (relinked.vacant index).mpr
    (represents.free index (relinked.free ▸ member))
  accounted := fun index bound => by
    have indices := (perm.map Prod.fst).mem_iff (a := index)
    rw [List.map_map, List.map_map] at indices
    rw [relinked.free]
    exact (represents.accounted index (relinked.slots ▸ bound)).imp_right indices.mpr

/-! ## Moving to the front -/

theorem Represents.touch (represents : c.Represents (front ++ entry :: back)) :
    (c.touch entry.index).Represents (entry :: (front ++ back)) := by
  unfold Recency.touch
  split
  · next isNewest =>
    have newest := represents.newest.symm.trans (eq_of_beq isNewest)
    cases front with
    | nil => exact represents
    | cons first rest =>
        have fresh := represents.fresh.1
        rw [List.map_cons, ← Option.some.inj newest] at fresh
        exact absurd List.mem_cons_self fresh
  · have unlinked := represents.toOrdered.unlink
    have fresh : entry.index ∉ (front ++ back).map (·.index) := by
      rw [List.map_append, List.mem_append, not_or]
      exact represents.fresh
    refine represents.relinked ((relinked_unlink _).trans (relinked_linkFront _))
      (unlinked.linkFront fresh (represents.slot?_unlink.trans represents.slot?)) ?_
    exact (List.perm_middle.map _).symm

theorem Represents.setValue (represents : c.Represents (front ++ entry :: back)) (value : α) :
    (c.changeSlot entry.index fun s => { s with value }).Represents
      (front ++ { entry with value } :: back) := by
  obtain ⟨linkedFront, found, linkedBack⟩ := linked_append.mp represents.linked
  have kept : ∀ index, index ≠ entry.index →
      (c.changeSlot entry.index fun s => { s with value }).slot? index = c.slot? index :=
    fun index differs => (slot?_changeSlot ..).trans (if_neg differs.symm)
  refine represents.relinked (relinked_changeSlot _ _) ⟨?_, ?_, ?_, ?_⟩ ?_
  · refine linked_append.mpr ⟨linkedFront.congr fun index member => ?_, ?_,
      linkedBack.congr fun index member => ?_⟩
    · exact kept index fun same => represents.fresh.1 (same ▸ member)
    · refine (slot?_changeSlot ..).trans ?_
      rw [if_pos rfl, found]
      rfl
    · exact kept index fun same => represents.fresh.2 (same ▸ member)
  · rw [firstOf_append]
    exact represents.newest.trans firstOf_append
  · rw [lastOf_append]
    exact represents.oldest.trans lastOf_append
  · simpa using represents.distinct
  · simp [Entry.site]

/-! ## Taking out -/

/-- The entry of a key is taken out where it stands. -/
theorem Represents.erase [LawfulHashable κ] (represents : c.Represents (front ++ entry :: back))
    (same : (entry.key == key) = true) : (c.erase key).1 = some entry.value ∧
      (c.erase key).2.Represents (front ++ back) ∧ Keeps c (c.erase key).2 := by
  rw [erase_eq (represents.place_eq same)]
  have ordered : (c.forget key).Ordered (front ++ entry :: back) :=
    represents.toOrdered.congr (fun _ _ => rfl) rfl rfl
  have relinked := @relinked_unlink κ α _ _ (c.forget key) entry.index
  have unlinked := ordered.unlink
  have found := ordered.slot?_unlink.trans ordered.slot?
  generalize (c.forget key).unlink entry.index = middle at *
  rw [found]
  have places : (middle.vacate entry.index).places = c.places.erase key := relinked.places
  have free : (middle.vacate entry.index).free = entry.index :: c.free :=
    congrArg (List.cons entry.index) relinked.free
  have slots : (middle.vacate entry.index).slots.size = c.slots.size :=
    Array.size_setIfInBounds.trans relinked.slots
  refine ⟨rfl, ⟨?_, ?_, ?_, ?_, ?_, ?_, ?_⟩, relinked.capacity, slots⟩
  -- the links
  · refine unlinked.congr (fun index member => ?_) rfl rfl
    refine slot?_setIfInBounds_of_ne fun same => ?_
    rw [same, List.map_append, List.mem_append] at member
    exact not_or.mpr represents.fresh member
  -- the map: a key like the one taken out belongs to no other entry
  · intro other index
    rw [places, Std.HashMap.getElem?_erase]
    split
    · next gone =>
      refine iff_of_false (fun none => nomatch none) ?_
      rintro ⟨another, member, alike, _⟩
      have differs := represents.apart another member
      rw [BEq.trans same (BEq.trans gone (BEq.symm alike))] at differs
      exact nomatch differs
    · next kept =>
      have differs : (entry.key == other) ≠ true := fun alike =>
        kept (BEq.trans (BEq.symm same) alike)
      rw [represents.places]
      simp only [List.mem_append, List.mem_cons, or_and_right, exists_or, exists_eq_left, differs,
        Bool.false_eq_true, false_and, false_or]
  · exact represents.keys.sublist ((List.sublist_cons_self entry back).append_left front)
  · have present : key ∈ c.places :=
      Std.HashMap.mem_iff_isSome_getElem?.mpr (by rw [represents.place_eq same]; rfl)
    rw [places, Std.HashMap.size_erase, if_pos present, represents.size]
    simp
  -- the free slots
  · rw [free]
    exact List.nodup_cons.mpr ⟨represents.notFree (by simp), represents.freeDistinct⟩
  · rw [free]
    refine List.forall_mem_cons.mpr ⟨vacant_vacate (lt_of_slot? found), fun index member => ?_⟩
    exact vacant_vacate_of_vacant ((relinked.vacant index).mpr (represents.free index member))
  · intro index bound
    rw [slots] at bound
    rw [free]
    rcases represents.accounted index bound with inFree | inOrder
    · exact .inl (List.mem_cons_of_mem _ inFree)
    · rw [List.map_append, List.map_cons, List.mem_append, List.mem_cons] at inOrder
      rw [List.map_append, List.mem_append, List.mem_cons]
      tauto

/-- The entry that was used least recently is the one given up. -/
theorem Represents.evict [LawfulHashable κ] (represents : c.Represents (front ++ [entry])) :
    ∃ after, c.evict? = some (entry.key, after) ∧ after.Represents front ∧ Keeps c after := by
  have oldest : c.oldest = some entry.index := represents.oldest.trans lastOf_append
  obtain ⟨_, erased, keeps⟩ := represents.erase (BEq.rfl : (entry.key == entry.key) = true)
  rw [List.append_nil] at erased
  refine ⟨_, ?_, erased, keeps⟩
  rw [evict?, oldest, Option.bind_some, represents.slot?]
  rfl

/-- Entries are given up from the back until no more than `room` are left. -/
theorem Represents.evictDownTo [LawfulHashable κ] (represents : c.Represents order) (room limit : Nat)
    (enough : order.length ≤ limit) : ∃ after,
      c.evictDownTo room limit = (((order.drop room).map (·.key)).reverse, after) ∧
      after.Represents (order.take room) ∧ Keeps c after := by
  induction limit generalizing c order with
  | zero =>
      obtain rfl := List.length_eq_zero_iff.mp (Nat.le_zero.mp enough)
      exact ⟨c, by simp [Recency.evictDownTo], by simpa using represents, .refl c⟩
  | succ limit ih =>
      rw [Recency.evictDownTo, Recency.size, represents.size]
      by_cases fits : order.length ≤ room
      · rw [if_pos fits, List.drop_eq_nil_of_le fits, List.take_of_length_le fits]
        exact ⟨c, rfl, represents, .refl c⟩
      · rw [if_neg fits]
        obtain ⟨front, entry, rfl⟩ := List.eq_nil_or_concat' order |>.resolve_left fun none => by
          simp [none] at fits
        -- The key of the last entry comes before those that are given up after it.
        obtain ⟨middle, evicted, fewer, keeps⟩ := represents.evict
        rw [List.length_append, List.length_singleton] at enough fits
        obtain ⟨after, others, rest, keepsRest⟩ := ih fewer (by omega)
        have inFront : room ≤ front.length := by omega
        rw [evicted, List.drop_append_of_le_length inFront, List.take_append_of_le_length inFront]
        refine ⟨after, ?_, rest, keeps.trans keepsRest⟩
        simp [others]

/-! ## Putting in -/

/-- A slot outside of the order holds an item, and all others are as they have to be. -/
structure Holds (c : Recency κ α) (order : List (Entry κ α)) (entry : Entry κ α) : Prop
    extends c.Ordered order where
  fresh : entry.index ∉ order.map (·.index)
  held : c.slot? entry.index = some ⟨entry.key, entry.value, none, none⟩
  freeDistinct : c.free.Nodup
  free : ∀ index ∈ c.free, c.slots[index]? = some none
  accounted : ∀ index < c.slots.size, index ∈ c.free ∨ index ∈ (entry :: order).map (·.index)

omit [EquivBEq κ] in
/-- An item is put into a free slot, or into a new one where none is free. -/
theorem Represents.place (represents : c.Represents order) (key : κ) (value : α) : ∃ index after,
    c.place key value = (index, after) ∧ after.Holds order ⟨index, key, value⟩ ∧
      after.places = c.places ∧ after.capacity = c.capacity ∧
      after.slots.size ≤ max c.slots.size (order.length + 1) := by
  unfold Recency.place
  cases isFree : c.free with
  | nil =>
      have inBounds : ∀ place ∈ order.map (·.index), place < c.slots.size := fun place member => by
        obtain ⟨slot, found⟩ := represents.exists_slot member
        exact lt_of_slot? found
      refine ⟨_, _, rfl, ⟨?_, fun member => Nat.lt_irrefl _ (inBounds _ member), ?_, List.nodup_nil,
        (fun _ member => absurd member List.not_mem_nil), ?_⟩, rfl, rfl, ?_⟩
      · refine represents.toOrdered.congr (fun place member => ?_) rfl rfl
        rw [slot?, slot?, Array.getElem?_push, if_neg (Nat.ne_of_lt (inBounds place member))]
      · rw [slot?, Array.getElem?_push_size]
        rfl
      · intro place bound
        rw [Array.size_push] at bound
        rw [List.map_cons, List.mem_cons]
        rcases Nat.lt_succ_iff_lt_or_eq.mp bound with before | new
        · exact .inr (.inr ((represents.accounted place before).resolve_left fun inFree => by
            rw [isFree] at inFree
            exact List.not_mem_nil inFree))
        · exact .inr (.inl new)
      -- A slot is only made where there are no more slots than entries.
      · have full := represents.slots_le isFree
        rw [Array.size_push]
        omega
  | cons index free =>
      have vacant := represents.free index (isFree ▸ List.mem_cons_self)
      have inBounds := (Array.getElem?_eq_some_iff.mp vacant).1
      have fresh : index ∉ order.map (·.index) := fun member =>
        represents.notFree member (isFree ▸ List.mem_cons_self)
      have distinct := represents.freeDistinct
      rw [isFree, List.nodup_cons] at distinct
      refine ⟨_, _, rfl, ⟨?_, fresh, ?_, distinct.2, ?_, ?_⟩, rfl, rfl, ?_⟩
      · refine represents.toOrdered.congr (fun place member => ?_) rfl rfl
        exact slot?_setIfInBounds_of_ne fun same => fresh (same ▸ member)
      · rw [slot?, Array.getElem?_setIfInBounds_self_of_lt inBounds]
        rfl
      · intro place member
        have differs : index ≠ place := fun same => distinct.1 (same ▸ member)
        rw [Array.getElem?_setIfInBounds_ne differs]
        exact represents.free place (isFree ▸ List.mem_cons_of_mem _ member)
      · intro place bound
        rw [Array.size_setIfInBounds] at bound
        rw [List.map_cons, List.mem_cons]
        rcases represents.accounted place bound with inFree | inOrder
        · rw [isFree, List.mem_cons] at inFree
          tauto
        · exact .inr (.inr inOrder)
      · rw [Array.size_setIfInBounds]
        exact Nat.le_max_left _ _

/-- What was put into a slot is put in front of the order, and into the map. -/
theorem Holds.represents [LawfulHashable κ] (holds : after.Holds order entry)
    (represents : c.Represents order) (places : after.places = c.places)
    (absent : c.places[entry.key]? = none) :
    ({ after with places := after.places.insert entry.key entry.index }.linkFront entry.index).Represents
      (entry :: order) := by
  have ordered : ({ after with places := after.places.insert entry.key entry.index } :
      Recency κ α).Ordered order := holds.toOrdered.congr (fun _ _ => rfl) rfl rfl
  have relinked := @relinked_linkFront κ α _ _
    { after with places := after.places.insert entry.key entry.index } entry.index
  have linked := ordered.linkFront holds.fresh holds.held
  have differs := represents.absent_iff.mp absent
  refine ⟨linked, ?_, ?_, ?_, ?_, ?_, ?_⟩
  · intro key index
    rw [relinked.places, places, Std.HashMap.getElem?_insert]
    split
    · next same =>
      constructor
      · intro isIndex
        exact ⟨entry, List.mem_cons_self, same, Option.some.inj isIndex⟩
      · rintro ⟨other, member, alike, rfl⟩
        rcases List.mem_cons.mp member with rfl | inOrder
        · rfl
        · have apart := differs other inOrder
          rw [BEq.trans alike (BEq.symm same)] at apart
          exact nomatch apart
    · next another =>
      rw [represents.places]
      simp only [List.mem_cons, or_and_right, exists_or, exists_eq_left, another, Bool.false_eq_true,
        false_and, false_or]
  · exact List.pairwise_cons.mpr ⟨fun other member => BEq.comm.trans (differs other member), represents.keys⟩
  · have fresh : entry.key ∉ c.places := fun present => by
      rw [Std.HashMap.mem_iff_isSome_getElem?, absent] at present
      exact nomatch present
    rw [relinked.places, places, Std.HashMap.size_insert, if_neg fresh, represents.size, List.length_cons]
  · rw [relinked.free]
    exact holds.freeDistinct
  · exact fun index member => (relinked.vacant index).mpr (holds.free index (relinked.free ▸ member))
  · intro index bound
    rw [relinked.free]
    exact holds.accounted index (relinked.slots ▸ bound)

end Haystack.Recency
