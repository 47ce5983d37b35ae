import Haystack.OrderedMap
import Mathlib.Data.List.Forall2

/-!
What a map answers after each change.

A map is known by its look-ups. The equations here say how a change shows in them; those that take a
key away need the keys to be distinct, which every change keeps.
-/
namespace Haystack.OrderedMap

variable {α β : Type} {m : OrderedMap α} {key name : String} {value : α}

/-! ## Look-up and membership -/

@[simp] theorem get?_nil : (⟨[]⟩ : OrderedMap α).get? key = none := rfl

theorem get?_cons {rest : List (String × α)} :
    (⟨(name, value) :: rest⟩ : OrderedMap α).get? key =
      if key = name then some value else (⟨rest⟩ : OrderedMap α).get? key := by
  simp only [get?, List.lookup_cons]
  by_cases same : key = name
  · simp [same]
  · have differs : (key == name) = false := by simpa using same
    simp [same, differs]

/-- What is made of each value is found under its key. -/
theorem lookup_map {β : Type} (items : List (String × α)) (f : α → β) (key : String) :
    (items.map fun item => (item.1, f item.2)).lookup key = ((⟨items⟩ : OrderedMap α).get? key).map f := by
  induction items with
  | nil => rfl
  | cons item rest ih =>
      rw [List.map_cons, List.lookup_cons, get?_cons, ih]
      by_cases same : key = item.1
      · simp [same]
      · have other : (key == item.1) = false := by simpa using same
        rw [other, if_neg same]

theorem contains_iff_get? : m.contains key = true ↔ ∃ value, m.get? key = some value :=
  Option.isSome_iff_exists

theorem get?_eq_none_iff : m.get? key = none ↔ key ∉ m.keys := by
  rw [← contains_eq_true_iff, contains, Bool.not_eq_true, Option.isSome_eq_false_iff,
    Option.isNone_iff_eq_none]

theorem contains_eq_false_iff : m.contains key = false ↔ key ∉ m.keys := by
  rw [← contains_eq_true_iff, Bool.not_eq_true]

theorem indexOf?_eq (m : OrderedMap α) (key : String) : m.indexOf? key = m.keys.idxOf? key := by
  rw [indexOf?, keys, List.idxOf?, List.findIdx?_map]
  rfl

theorem indexOf?_eq_none_iff : m.indexOf? key = none ↔ key ∉ m.keys := by
  rw [indexOf?_eq, List.idxOf?_eq_none_iff]

theorem mem_of_get? (found : m.get? key = some value) : (key, value) ∈ m.items := by
  obtain ⟨before, after, shape, _⟩ := List.lookup_eq_some_iff.mp found
  rw [shape]
  simp

theorem mem_keys_of_get? (found : m.get? key = some value) : key ∈ m.keys :=
  List.mem_map.mpr ⟨(key, value), mem_of_get? found, rfl⟩

theorem mem_keys_of_mem (member : (key, value) ∈ m.items) : key ∈ m.keys :=
  List.mem_map.mpr ⟨(key, value), member, rfl⟩

theorem mem_values_of_mem (member : (key, value) ∈ m.items) : value ∈ m.values :=
  List.mem_map.mpr ⟨(key, value), member, rfl⟩

theorem mem_values_of_get? (found : m.get? key = some value) : value ∈ m.values :=
  mem_values_of_mem (mem_of_get? found)

theorem mem_values_iff : value ∈ m.values ↔ ∃ key, (key, value) ∈ m.items := by
  simp [values]

theorem distinct_cons {rest : List (String × α)} :
    (⟨(name, value) :: rest⟩ : OrderedMap α).Distinct ↔
      name ∉ (⟨rest⟩ : OrderedMap α).keys ∧ (⟨rest⟩ : OrderedMap α).Distinct := by
  simp only [Distinct, keys, List.map_cons, List.nodup_cons]

instance : Decidable m.Distinct := inferInstanceAs (Decidable (List.Nodup _))

theorem distinct_empty : (empty : OrderedMap α).Distinct := List.nodup_nil

/-- With distinct keys the items are exactly what the look-ups find. -/
theorem get?_eq_some_iff (distinct : m.Distinct) :
    m.get? key = some value ↔ (key, value) ∈ m.items := by
  refine ⟨mem_of_get?, fun member => ?_⟩
  obtain ⟨items⟩ := m
  induction items with
  | nil => simp at member
  | cons item rest ih =>
      obtain ⟨first, held⟩ := item
      obtain ⟨fresh, distinctRest⟩ := distinct_cons.mp distinct
      rw [get?_cons]
      rcases List.mem_cons.mp member with same | member
      · obtain ⟨rfl, rfl⟩ := Prod.mk.inj same
        simp
      · have other : key ≠ first := fun same => fresh (same ▸ mem_keys_of_mem member)
        rw [if_neg other]
        exact ih distinctRest member

theorem exists_get?_of_mem_values (distinct : m.Distinct) (member : value ∈ m.values) :
    ∃ key, m.get? key = some value := by
  obtain ⟨key, item⟩ := mem_values_iff.mp member
  exact ⟨key, (get?_eq_some_iff distinct).mpr item⟩

/-! ## Setting a key -/

theorem get?_replaceItem (items : List (String × α)) :
    (⟨replaceItem key value items⟩ : OrderedMap α).get? name =
      if name = key ∧ key ∈ (⟨items⟩ : OrderedMap α).keys then some value
      else (⟨items⟩ : OrderedMap α).get? name := by
  induction items with
  | nil => simp [replaceItem, keys]
  | cons item rest ih =>
      obtain ⟨first, held⟩ := item
      simp only [replaceItem]
      by_cases here : first = key
      · subst here
        by_cases same : name = first
        · simp [get?_cons, same, keys]
        · simp [get?_cons, same]
      · have differs : (first == key) = false := by simpa using here
        have later : key ∈ (⟨(first, held) :: rest⟩ : OrderedMap α).keys ↔
            key ∈ (⟨rest⟩ : OrderedMap α).keys := by
          simp [keys, Ne.symm here]
        simp only [differs, Bool.false_eq_true, if_false, get?_cons, ih, later]
        by_cases same : name = first
        · have other : name ≠ key := fun equal => here (same.symm.trans equal)
          simp [same, here]
        · simp [same]

theorem get?_append_fresh (items : List (String × α)) (fresh : key ∉ (⟨items⟩ : OrderedMap α).keys) :
    (⟨items ++ [(key, value)]⟩ : OrderedMap α).get? name =
      if name = key then some value else (⟨items⟩ : OrderedMap α).get? name := by
  have absent := get?_eq_none_iff.mpr fresh
  simp only [get?] at absent ⊢
  rw [List.lookup_append]
  by_cases same : name = key
  · subst same
    simp [absent]
  · have differs : (name == key) = false := by simpa using same
    simp [same, List.lookup_cons, differs]

/-- After a key is set it has the value, and all others have what they had. -/
theorem get?_insert (m : OrderedMap α) (key name : String) (value : α) :
    (m.insert key value).get? name = if name = key then some value else m.get? name := by
  simp only [insert]
  split
  · next present =>
    rw [get?_replaceItem]
    simp [contains_eq_true_iff.mp present]
  · next absent =>
    exact get?_append_fresh m.items fun member => absent (contains_eq_true_iff.mpr member)

/-- Setting a key to the value that it has changes nothing. -/
theorem insert_of_get? (found : m.get? key = some value) : m.insert key value = m := by
  obtain ⟨items⟩ := m
  have same : replaceItem key value items = items := by
    induction items with
    | nil => rfl
    | cons item rest ih =>
        obtain ⟨first, held⟩ := item
        rw [get?_cons] at found
        rw [replaceItem]
        by_cases here : key = first
        · rw [if_pos here] at found
          rw [if_pos (beq_iff_eq.mpr here.symm), Option.some.inj found]
        · rw [if_neg here] at found
          rw [if_neg (by simpa using Ne.symm here), ih found]
  rw [insert, if_pos (contains_iff_get?.mpr ⟨value, found⟩), same]

theorem mem_keys_insert {other : String} :
    name ∈ (m.insert other value).keys ↔ name = other ∨ name ∈ m.keys := by
  rw [keys_insert]
  split
  · next present =>
    have member := contains_eq_true_iff.mp present
    exact ⟨Or.inr, fun either => either.elim (fun same => same ▸ member) id⟩
  · simp [or_comm]

theorem mem_values_replaceItem {items : List (String × α)} {other : α}
    (member : other ∈ (replaceItem key value items).map (·.2)) :
    other = value ∨ other ∈ items.map (·.2) := by
  induction items with
  | nil => exact (List.not_mem_nil member).elim
  | cons item rest ih =>
      rw [replaceItem] at member
      split at member
      · rcases List.mem_cons.mp member with same | member
        · exact .inl same
        · exact .inr (List.mem_cons_of_mem _ member)
      · rcases List.mem_cons.mp member with same | member
        · exact .inr (same ▸ List.mem_cons_self)
        · exact (ih member).imp_right (List.mem_cons_of_mem _)

theorem mem_values_insert {other : α} (member : other ∈ (m.insert key value).values) :
    other = value ∨ other ∈ m.values := by
  rw [insert] at member
  split at member
  · exact mem_values_replaceItem member
  · rw [values, List.map_append, List.mem_append] at member
    rcases member with member | member
    · exact .inr member
    · exact .inl (by simpa using member)

/-! ## Taking a key away -/

theorem keys_erase (m : OrderedMap α) (key : String) : (m.erase key).keys = m.keys.erase key := by
  simp only [erase, keys, List.erase_eq_eraseP, List.eraseP_map]
  congr 2
  funext item
  simp only [Function.comp_apply]
  exact Bool.eq_iff_iff.mpr (by simp only [beq_iff_eq]; exact eq_comm)

theorem distinct_erase (distinct : m.Distinct) (key : String) : (m.erase key).Distinct := by
  unfold Distinct
  rw [keys_erase]
  exact distinct.erase key

theorem get?_erase (distinct : m.Distinct) (key name : String) :
    (m.erase key).get? name = if name = key then none else m.get? name := by
  obtain ⟨items⟩ := m
  induction items with
  | nil => simp [erase]
  | cons item rest ih =>
      obtain ⟨first, held⟩ := item
      obtain ⟨fresh, distinctRest⟩ := distinct_cons.mp distinct
      have shorter := ih distinctRest
      simp only [erase] at shorter ⊢
      by_cases here : first = key
      · subst here
        simp only [List.eraseP_cons, beq_self_eq_true, cond_true, get?_cons]
        split
        · next same => exact same ▸ get?_eq_none_iff.mpr fresh
        · rfl
      · have differs : (first == key) = false := by simpa using here
        simp only [List.eraseP_cons, differs, cond_false, get?_cons, shorter]
        by_cases same : name = first
        · have other : name ≠ key := fun equal => here (same.symm.trans equal)
          simp [same, here]
        · simp [same]

theorem not_beq_of_mem (absent : m.contains key = false) :
    ∀ item ∈ m.items, ¬ (item.1 == key) = true := by
  intro item member
  have other : item.1 ≠ key := fun same =>
    contains_eq_false_iff.mp absent (same ▸ mem_keys_of_mem member)
  simpa using other

/-- Taking away a key that is not there changes nothing. -/
theorem erase_of_not_contains (absent : m.contains key = false) : m.erase key = m := by
  rw [erase, List.eraseP_of_forall_not (not_beq_of_mem absent)]

/-- A key that was not there is gone when it is taken away again. -/
theorem erase_insert_fresh (fresh : m.contains key = false) : (m.insert key value).erase key = m := by
  simp [insert, fresh, erase, List.eraseP_append_right _ (not_beq_of_mem fresh)]

/-! ## Maps from lists -/

theorem foldl_insert_fresh (items : List (String × α)) (m : OrderedMap α)
    (distinct : (m.items ++ items).map (·.1) |>.Nodup) :
    items.foldl (fun m item => m.insert item.1 item.2) m = ⟨m.items ++ items⟩ := by
  induction items generalizing m with
  | nil => simp
  | cons item rest ih =>
      have fresh : m.contains item.1 = false := by
        rw [contains_eq_false_iff]
        intro member
        simp only [List.map_append, List.map_cons] at distinct
        exact (List.nodup_append.mp distinct).2.2 _ member _ (List.mem_cons_self ..) rfl
      have inserted : m.insert item.1 item.2 = ⟨m.items ++ [item]⟩ := by simp [insert, fresh]
      rw [List.foldl_cons, inserted, ih _ (by simpa using distinct)]
      simp

/-- Items with distinct keys are the items of their map. -/
theorem ofList_of_nodup {items : List (String × α)} (distinct : (items.map (·.1)).Nodup) :
    ofList items = ⟨items⟩ := by
  simpa [ofList] using foldl_insert_fresh items empty (by simpa using distinct)

theorem ofList_items (distinct : m.Distinct) : ofList m.items = m := ofList_of_nodup distinct

theorem distinct_foldl_insert (items : List (String × α)) (m : OrderedMap α)
    (distinct : m.Distinct) : (items.foldl (fun m item => m.insert item.1 item.2) m).Distinct := by
  induction items generalizing m with
  | nil => exact distinct
  | cons item rest ih => exact ih _ (distinct_insert distinct item.1 item.2)

theorem not_mem_keys_of_nodup {names : List String} (distinct : (m.keys ++ key :: names).Nodup) :
    key ∉ m.keys := fun member =>
  (List.nodup_append.mp distinct).2.2 key member key (List.mem_cons_self ..) rfl

/-- A key that follows others in a map is none of them. -/
theorem not_mem_keys_of_distinct {rest : List (String × α)}
    (distinct : (⟨m.items ++ (key, value) :: rest⟩ : OrderedMap α).Distinct) : key ∉ m.keys := by
  unfold Distinct keys at distinct
  rw [List.map_append, List.map_cons] at distinct
  exact not_mem_keys_of_nodup distinct

theorem mem_keys_foldl_insert {items : List (String × α)} {m : OrderedMap α} :
    name ∈ (items.foldl (fun m item => m.insert item.1 item.2) m).keys ↔
      name ∈ items.map (·.1) ∨ name ∈ m.keys := by
  induction items generalizing m with
  | nil => simp
  | cons item rest ih =>
      rw [List.foldl_cons, ih, mem_keys_insert, List.map_cons, List.mem_cons]
      tauto

theorem mem_keys_ofList {items : List (String × α)} :
    name ∈ (ofList items).keys ↔ name ∈ items.map (·.1) := by
  rw [ofList, mem_keys_foldl_insert]
  simp [empty, keys]

/-- Whatever list a map is made from, its keys are distinct. -/
theorem distinct_ofList (items : List (String × α)) : (ofList items).Distinct :=
  distinct_foldl_insert items empty distinct_empty

/-- A key that is not there is added after the others. -/
theorem addItem_last_fresh (fresh : key ∉ m.keys) (replace : Bool) :
    m.addItem key value .last replace = .ok ⟨m.items ++ [(key, value)]⟩ := by
  simp [addItem, target, indexOf?_eq_none_iff.mpr fresh, insertAt, size]

/-- What is added after all keys was not there. -/
theorem of_addItem_last {added : OrderedMap α} (isAdded : m.addItem key value .last false = .ok added) :
    key ∉ m.keys ∧ added = ⟨m.items ++ [(key, value)]⟩ := by
  cases isIndex : m.indexOf? key with
  | some index => simp [addItem, target, isIndex] at isAdded
  | none =>
      have fresh : key ∉ m.keys := indexOf?_eq_none_iff.mp isIndex
      rw [addItem_last_fresh fresh] at isAdded
      exact ⟨fresh, (Except.ok.inj isAdded).symm⟩

/-! ## Cells under names -/

section Cells

variable {names : List String} {cells : List (Option α)}

/-- What the cells under some names hold; under the name of an empty cell stands nothing. -/
def ofCells (names : List String) (cells : List (Option α)) : OrderedMap α :=
  ⟨(names.zip cells).filterMap fun pair => pair.2.map (pair.1, ·)⟩

theorem items_ofCells_cons (name : String) (names : List String) (cell : Option α)
    (cells : List (Option α)) : (ofCells (name :: names) (cell :: cells)).items =
      (cell.map (name, ·)).toList ++ (ofCells names cells).items := by
  rw [ofCells, List.zip_cons_cons, List.filterMap_cons]
  cases cell <;> simp [ofCells]

theorem keys_ofCells_sublist (names : List String) (cells : List (Option α)) :
    (ofCells names cells).keys.Sublist names := by
  induction names generalizing cells with
  | nil => simp [ofCells, keys]
  | cons name names ih =>
      cases cells with
      | nil => simp [ofCells, keys]
      | cons cell cells =>
          rw [keys, items_ofCells_cons, List.map_append]
          cases cell with
          | none => exact (ih cells).cons name
          | some held => exact (ih cells).cons_cons name

theorem mem_of_mem_values_ofCells {value : α} (member : value ∈ (ofCells names cells).values) :
    some value ∈ cells := by
  obtain ⟨item, inItems, rfl⟩ := List.mem_map.mp member
  obtain ⟨pair, inPairs, isItem⟩ := List.mem_filterMap.mp inItems
  obtain ⟨held, isCell, rfl⟩ := Option.map_eq_some_iff.mp isItem
  exact isCell ▸ (List.of_mem_zip inPairs).2

theorem distinct_ofCells (distinct : names.Nodup) (cells : List (Option α)) :
    (ofCells names cells).Distinct :=
  (keys_ofCells_sublist names cells).nodup distinct

theorem get?_ofCells_of_not_mem {name : String} (noName : name ∉ names) (cells : List (Option α)) :
    (ofCells names cells).get? name = none :=
  get?_eq_none_iff.mpr fun member => noName ((keys_ofCells_sublist names cells).subset member)

/-- Under each name stands what its cell holds. -/
theorem forall_get?_ofCells {relates : String → Option α → Prop} (distinct : names.Nodup)
    (related : List.Forall₂ relates names cells) :
    ∀ name ∈ names, relates name ((ofCells names cells).get? name) := by
  induction related with
  | nil => simp
  | @cons first cell names cells here others ih =>
      obtain ⟨fresh, distinct⟩ := List.nodup_cons.mp distinct
      have absent : (ofCells names cells).get? first = none := get?_ofCells_of_not_mem fresh cells
      have shape : ofCells (first :: names) (cell :: cells) =
          ⟨(cell.map (first, ·)).toList ++ (ofCells names cells).items⟩ := by
        rw [← items_ofCells_cons]
      rw [List.forall_mem_cons]
      refine ⟨?_, fun name member => ?_⟩
      · have found : (ofCells (first :: names) (cell :: cells)).get? first = cell := by
          rw [shape]
          cases cell with
          | none => exact absent
          | some held => simp [get?_cons]
        rwa [found]
      · have other : name ≠ first := fun same => fresh (same ▸ member)
        have same : (ofCells (first :: names) (cell :: cells)).get? name =
            (ofCells names cells).get? name := by
          rw [shape]
          cases cell with
          | none => rfl
          | some held => simp [get?_cons, other]
        rw [same]
        exact ih distinct name member

end Cells

end Haystack.OrderedMap
