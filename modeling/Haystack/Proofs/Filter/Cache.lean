import Haystack.Filter.Cache
import Haystack.Proofs.Grid.Gate
import Haystack.Proofs.Recency.Model

/-!
Filters through a cache of conditions.

Whatever was read, resized or cleared before, the conditions that a cache holds are those that their
texts denote. Hence a filter through a cache keeps the rows that it keeps without one.
-/
namespace Haystack

namespace FilterCache

/-! ## Histories -/

inductive Use where
  | compile (text : String)
  | filter (grid : Grid) (text : String) (limit : Option Nat)
  | setCapacity (capacity : Nat)
  | clear

def use (cache : FilterCache) : Use → FilterCache
  | .compile text => (condition text cache).2
  | .filter grid text limit => (filter grid text limit cache).2
  | .setCapacity capacity => (cache.setCapacity capacity).2
  | .clear => cache.clear

/-- A cache after a history of uses. -/
def run (cache : FilterCache) (uses : List Use) : FilterCache := uses.foldl use cache

/-- The capacity after a use of a cache. -/
def Use.resize (capacity : Nat) : Use → Nat
  | .setCapacity capacity => capacity
  | _ => capacity

/-! ## The conditions in a cache -/

/-- The cache holds these items, the most recently used one first, and each condition is the one that
its text denotes. -/
structure Holds (cache : FilterCache) (items : List (String × Condition)) : Prop where
  refines : ∃ most, cache.Refines ⟨cache.capacity, items⟩ most
  denotes : ∀ item ∈ items, Condition.read item.1 = .ok item.2

variable {cache : FilterCache} {items : List (String × Condition)} {text : String}

theorem Holds.keys (holds : Holds cache items) : cache.keys = items.map (·.1) := by
  obtain ⟨most, refines⟩ := holds.refines
  exact refines.keys

theorem Holds.length_le (holds : Holds cache items) : items.length ≤ cache.capacity := by
  obtain ⟨most, refines⟩ := holds.refines
  exact refines.fits

theorem Holds.size (holds : Holds cache items) : cache.size = items.length := by
  obtain ⟨most, refines⟩ := holds.refines
  obtain ⟨order, represents, same⟩ := refines.represents
  rw [Recency.size, represents.size, ← List.length_map Recency.Entry.item, same]

theorem holds_of_refines {m : RecencyList String Condition} {most : Nat}
    (refines : cache.Refines m most)
    (denotes : ∀ item ∈ m.items, Condition.read item.1 = .ok item.2) : Holds cache m.items :=
  ⟨⟨most, by rw [refines.capacity]; exact refines⟩, denotes⟩

theorem holds_empty (capacity : Nat) : Holds (Recency.empty capacity) [] :=
  holds_of_refines (Recency.refines_empty (Nat.le_refl capacity)) (by simp [RecencyList.empty])

theorem Holds.setCapacity (holds : Holds cache items) (capacity : Nat) :
    (cache.setCapacity capacity).2.capacity = capacity ∧
      Holds (cache.setCapacity capacity).2 (items.take capacity) := by
  obtain ⟨most, refines⟩ := holds.refines
  have resized := (refines.setCapacity capacity).2
  exact ⟨resized.capacity, holds_of_refines resized fun item member =>
    holds.denotes item (List.mem_of_mem_take member)⟩

/-! ## One condition through a cache -/

/-- Items whose texts are those of other items, with one text taken out. -/
theorem map_eraseP_text (items : List (String × Condition)) (text : String) :
    (items.eraseP (·.1 == text)).map (·.1) = (items.map (·.1)).erase text := by
  rw [List.erase_eq_eraseP', List.eraseP_map]
  rfl

/-- The texts in a cache after one of them is looked for. -/
def textsAfter (capacity : Nat) (texts : List String) (text : String) : List String :=
  match Condition.read text with
  | .error _ => texts
  | .ok _ => (text :: texts.erase text).take capacity

/-- A condition that is held is answered, and stands in front then. -/
theorem Holds.get?_some (holds : Holds cache items) {item : String × Condition}
    (found : items.find? (·.1 == text) = some item) :
    (cache.get? text).1 = some item.2 ∧ (cache.get? text).2.capacity = cache.capacity ∧
      Holds (cache.get? text).2 (item :: items.eraseP (·.1 == text)) := by
  obtain ⟨most, refines⟩ := holds.refines
  have got := refines.get? text
  simp only [RecencyList.get?, found] at got
  refine ⟨got.1, got.2.capacity, holds_of_refines got.2 fun held member => ?_⟩
  rcases List.mem_cons.mp member with rfl | inRest
  · exact holds.denotes held (List.mem_of_find?_eq_some found)
  · exact holds.denotes held (List.mem_of_mem_eraseP inRest)

theorem Holds.get?_none (holds : Holds cache items) (absent : items.find? (·.1 == text) = none) :
    cache.get? text = (none, cache) := by
  obtain ⟨most, refines⟩ := holds.refines
  have answer := (refines.get? text).1
  simp only [RecencyList.get?, absent] at answer
  obtain ⟨order, represents, same⟩ := refines.represents
  rcases represents.find text with ⟨unknown, _⟩ | ⟨_, _, _, _, _, found, _⟩
  · rw [Recency.get?, unknown]
  · rw [same, absent] at found
    contradiction

/-- A condition that is not held yet is put in front, in place of the last one when there is no more
room. -/
theorem Holds.put (holds : Holds cache items) {condition : Condition}
    (read : Condition.read text = .ok condition) (absent : items.find? (·.1 == text) = none) :
    (cache.put text condition).2.capacity = cache.capacity ∧
      Holds (cache.put text condition).2 (((text, condition) :: items).take cache.capacity) := by
  obtain ⟨most, refines⟩ := holds.refines
  have room := holds.length_le
  have put := (refines.put text condition).2
  simp only [RecencyList.put, absent] at put
  by_cases none : cache.capacity = 0
  · rw [if_pos none] at put
    have empty : items = [] := List.eq_nil_of_length_eq_zero (by omega)
    refine ⟨put.capacity, ?_⟩
    rw [none, List.take_zero, ← empty]
    exact holds_of_refines put holds.denotes
  · rw [if_neg none] at put
    obtain ⟨count, isNext⟩ := Nat.exists_eq_succ_of_ne_zero none
    refine ⟨put.capacity, ?_⟩
    rw [isNext, List.take_succ_cons]
    rw [isNext] at put
    refine holds_of_refines put fun held member => ?_
    rcases List.mem_cons.mp member with rfl | inRest
    · exact read
    · exact holds.denotes held (List.mem_of_mem_take inRest)

/-- The answer is what the text denotes, whether it was held or not. -/
theorem Holds.condition (holds : Holds cache items) (text : String) :
    (condition text cache).1 = Condition.read text ∧
      (FilterCache.condition text cache).2.capacity = cache.capacity ∧
      ∃ after, Holds (FilterCache.condition text cache).2 after ∧
        after.map (·.1) = textsAfter cache.capacity (items.map (·.1)) text := by
  unfold FilterCache.condition textsAfter
  cases found : items.find? (·.1 == text) with
  | some item =>
      obtain ⟨answer, capacity, after⟩ := holds.get?_some found
      have isText : item.1 = text := by simpa using List.find?_some found
      have denotes := isText ▸ holds.denotes item (List.mem_of_find?_eq_some found)
      rw [← Prod.eta (cache.get? text), answer, denotes]
      refine ⟨rfl, capacity, _, after, ?_⟩
      have fits := after.length_le
      rw [List.map_cons, map_eraseP_text, isText, List.take_of_length_le]
      rwa [capacity, ← List.length_map (·.1), List.map_cons, map_eraseP_text, isText] at fits
  | none =>
      rw [holds.get?_none found]
      cases read : Condition.read text with
      | error refusal => exact ⟨rfl, rfl, items, holds, rfl⟩
      | ok condition =>
          obtain ⟨capacity, after⟩ := holds.put read found
          refine ⟨rfl, capacity, _, after, ?_⟩
          have unknown : text ∉ items.map (·.1) := by
            simpa using fun condition member => List.find?_eq_none.mp found _ member (beq_self_eq_true text)
          rw [List.map_take, List.map_cons, List.erase_of_not_mem unknown]

/-! ## Runs -/

/-- The texts in a cache after a use of it. -/
def Use.texts (capacity : Nat) (texts : List String) : Use → List String
  | .compile text => textsAfter capacity texts text
  | .filter _ text _ =>
      if Text.isAllBlank text.toList then texts else textsAfter capacity texts text
  | .setCapacity capacity => texts.take capacity
  | .clear => []

/-- What is made of a condition does not touch the cache that the condition came through. -/
theorem made_of_condition {α : Type} (compile : ExceptT Error (StateM FilterCache) Condition)
    (make : Condition → α) (cache : FilterCache) :
    (do pure (make (← compile)) : ExceptT Error (StateM FilterCache) α) cache =
      ((do pure (make (← (compile cache).1))), (compile cache).2) := by
  change (StateT.bind compile (ExceptT.bindCont fun condition => pure (make condition))) cache = _
  rw [StateT.bind]
  rcases compile cache with ⟨refusal | condition, after⟩ <;> rfl

/-- A filter through a cache answers what it answers without one. The cache is used unless the filter
is blank. -/
theorem Holds.filter (holds : Holds cache items) (grid : Grid) (text : String) (limit : Option Nat) :
    (filter grid text limit cache).1 = grid.filter text limit ∧
      (FilterCache.filter grid text limit cache).2 =
        if Text.isAllBlank text.toList then cache else (FilterCache.condition text cache).2 := by
  have answer := (holds.condition text).1
  unfold FilterCache.filter GridOf.filter GridOf.filterBy
  split
  · exact ⟨rfl, rfl⟩
  · rw [← answer, made_of_condition]
    exact ⟨rfl, rfl⟩

/-- One use of a cache changes what it holds as a list of texts says. -/
theorem Holds.use (holds : Holds cache items) (use : Use) :
    (cache.use use).capacity = use.resize cache.capacity ∧ ∃ after, Holds (cache.use use) after ∧
      after.map (·.1) = use.texts cache.capacity (items.map (·.1)) := by
  cases use with
  | compile text => exact (holds.condition text).2
  | filter grid text limit =>
      have after := (holds.filter grid text limit).2
      simp only [FilterCache.use, after, Use.texts, Use.resize]
      split
      · exact ⟨rfl, items, holds, rfl⟩
      · exact (holds.condition text).2
  | setCapacity capacity =>
      obtain ⟨resized, after⟩ := holds.setCapacity capacity
      exact ⟨resized, _, after, List.map_take⟩
  | clear => exact ⟨rfl, [], holds_empty _, rfl⟩

theorem Holds.run (holds : Holds cache items) (uses : List Use) :
    (cache.run uses).capacity = uses.foldl Use.resize cache.capacity ∧
      ∃ after, Holds (cache.run uses) after := by
  induction uses generalizing cache items with
  | nil => exact ⟨rfl, items, holds⟩
  | cons use rest ih =>
      obtain ⟨resized, after, holdsAfter, _⟩ := holds.use use
      rw [List.foldl_cons, ← resized]
      exact ih holdsAfter

/-- The rows that a filter keeps, in their order and up to the limit. -/
theorem filter_eq (grid : Grid) (text : String) (limit : Option Nat) : grid.filter text limit =
    if Text.isAllBlank text.toList then .ok (grid.withRows (GridOf.limited limit grid.rows))
    else (Condition.read text).map fun condition =>
      grid.withRows (GridOf.limited limit (grid.rows.filter (condition.holds grid))) := by
  unfold GridOf.filter GridOf.filterBy
  split
  · rfl
  · cases Condition.read text with
    | error refusal => rfl
    | ok condition =>
        exact congrArg (fun rows => Except.ok (grid.withRows rows)) (GridOf.firstKept_eq _ limit _)

/-- After any history, a filter through a cache is refused as its text is, and otherwise keeps the
first rows that the condition of its text holds of; a blank one keeps the first rows. A text that
denotes no condition leaves the texts in the cache in their order, and any other stands in front of
them. The cache holds no more conditions than its capacity, each the one that its text denotes. -/
theorem filter_run (capacity : Nat) (uses : List Use) (grid : Grid) (text : String)
    (limit : Option Nat) :
    let cache := run (Recency.empty capacity) uses
    (filter grid text limit cache).1 = grid.filter text limit ∧
      (filter grid text limit cache).1 =
        (if Text.isAllBlank text.toList then
          .ok { grid with rows := GridOf.limited limit grid.rows }
        else (Condition.read text).map fun condition =>
          { grid with rows := GridOf.limited limit (grid.rows.filter (condition.holds grid)) }) ∧
      (filter grid text limit cache).2 =
        (if Text.isAllBlank text.toList then cache else (condition text cache).2) ∧
      (condition text cache).1 = Condition.read text ∧
      (condition text cache).2.keys = (match Condition.read text with
        | .error _ => cache.keys
        | .ok _ => (text :: cache.keys.erase text).take cache.capacity) ∧
      cache.capacity = uses.foldl Use.resize capacity ∧
      cache.size = cache.keys.length ∧ cache.size ≤ cache.capacity ∧
      ∀ item ∈ cache.toList, Condition.read item.1 = .ok item.2 := by
  intro cache
  obtain ⟨resized, items, holds⟩ := (holds_empty capacity).run uses
  obtain ⟨answer, after⟩ := holds.filter grid text limit
  obtain ⟨reads, _, known, holdsKnown, texts⟩ := holds.condition text
  have size := holds.size
  refine ⟨answer, answer.trans (filter_eq grid text limit), after, reads, ?_, resized, ?_, ?_, ?_⟩
  · rw [holdsKnown.keys, texts, ← holds.keys]
    rfl
  · rw [size, holds.keys, List.length_map]
  · rw [size]
    exact holds.length_le
  · obtain ⟨most, refines⟩ := holds.refines
    obtain ⟨order, represents, same⟩ := refines.represents
    rw [represents.toList_eq, same]
    exact holds.denotes

end FilterCache

end Haystack
