import Haystack.Grid.Difference
import Haystack.Proofs.Value.Equivalence

/-!
What changes make of a map.

Changes lead from one map to another if each says what the other has under its key and the maps are
near wherever there is no change. The changes that a difference takes lead from left to right, and
making changes arrives where they lead.
-/
namespace Haystack

open Value

/-- Keys that a difference uses for itself. -/
def IsReserved (key : String) : Prop := key = differenceKey ∨ key = removalKey

instance (key : String) : Decidable (IsReserved key) :=
  inferInstanceAs (Decidable (key = differenceKey ∨ key = removalKey))

namespace OrderedMap

/-- No key is reserved and no value is a removal. -/
structure IsPlain (m : OrderedMap Value) : Prop where
  distinct : m.Distinct
  keys : ∀ key ∈ m.keys, ¬ IsReserved key
  values : ∀ value ∈ m.values, value.isRemove = false

variable {left right m changes : OrderedMap Value} {key : String} {value : Value}

instance : Decidable m.IsPlain :=
  decidable_of_iff (m.Distinct ∧ (∀ key ∈ m.keys, ¬ IsReserved key) ∧
      ∀ value ∈ m.values, value.isRemove = false)
    ⟨fun ⟨distinct, keys, values⟩ => ⟨distinct, keys, values⟩,
      fun plain => ⟨plain.distinct, plain.keys, plain.values⟩⟩

theorem IsPlain.contains_removalKey (plain : m.IsPlain) : m.contains removalKey = false :=
  contains_eq_false_iff.mpr fun member => plain.keys _ member (.inr rfl)

/-! ## Making changes -/

theorem distinct_applyChange (distinct : m.Distinct) (change : String × Value) :
    (m.applyChange change).Distinct := by
  unfold applyChange
  split
  · exact distinct_erase distinct _
  · exact distinct_insert distinct _ _

theorem get?_applyChange (distinct : m.Distinct) (change : String × Value) :
    (m.applyChange change).get? key =
      if key = change.1 then (if change.2.isRemove then none else some change.2)
      else m.get? key := by
  unfold applyChange
  split
  · rw [get?_erase distinct]
  · rw [get?_insert]

theorem distinct_applyChanges (distinct : m.Distinct) : (m.applyChanges changes).Distinct := by
  unfold applyChanges
  generalize changes.items = items
  induction items generalizing m with
  | nil => exact distinct
  | cons change rest ih => exact ih (distinct_applyChange distinct change)

/-- What is under a key after all changes are made. -/
theorem get?_applyChanges (distinct : m.Distinct) (changesDistinct : changes.Distinct) :
    (m.applyChanges changes).get? key = match changes.get? key with
      | some value => if value.isRemove then none else some value
      | none => m.get? key := by
  obtain ⟨items⟩ := changes
  unfold applyChanges
  induction items generalizing m with
  | nil => rfl
  | cons change rest ih =>
      obtain ⟨first, value⟩ := change
      obtain ⟨fresh, distinctRest⟩ := distinct_cons.mp changesDistinct
      rw [List.foldl_cons, ih (distinct_applyChange distinct _) distinctRest,
        get?_applyChange distinct, get?_cons]
      by_cases here : key = first
      · have done : (⟨rest⟩ : OrderedMap Value).get? key = none :=
          get?_eq_none_iff.mpr (here ▸ fresh)
        simp only [done, if_pos here]
      · simp only [if_neg here]

/-- Each change says what is to be had under its key, and without one the maps are near. -/
def Leads (changes left right : OrderedMap Value) : Prop :=
  ∀ key, match changes.get? key with
    | some value =>
        if value.isRemove then right.get? key = none
        else ∃ other, right.get? key = some other ∧ near value other = true
    | none => Option.Rel (fun a b => near a b = true) (left.get? key) (right.get? key)

theorem Leads.agrees_applyChanges (leads : changes.Leads left right) (distinct : left.Distinct)
    (changesDistinct : changes.Distinct) : (left.applyChanges changes).AgreesNear right := by
  intro key
  have here := leads key
  rw [get?_applyChanges distinct changesDistinct]
  cases found : changes.get? key with
  | none => simpa only [found] using here
  | some value =>
      simp only [found] at here ⊢
      split at here
      · next removed =>
        rw [if_pos removed, here]
        exact .none
      · next stays =>
        obtain ⟨other, present, related⟩ := here
        rw [if_neg stays, present]
        exact .some related

theorem Leads.agrees_of_empty (leads : changes.Leads left right)
    (none : changes.isEmpty = true) : left.AgreesNear right := by
  obtain rfl : changes = ⟨[]⟩ := by
    obtain ⟨items⟩ := changes
    simpa [isEmpty] using none
  exact leads

theorem Leads.insert {other : Value} (leads : changes.Leads left right)
    (stays : value.isRemove = false) (present : right.get? key = some other)
    (related : near value other = true) : (changes.insert key value).Leads left right := by
  intro name
  rw [get?_insert]
  by_cases here : name = key
  · simp only [if_pos here, stays]
    exact ⟨other, here ▸ present, related⟩
  · rw [if_neg here]
    exact leads name

/-! ## Taking changes -/

theorem distinct_changes : (left.changes right).Distinct := distinct_ofList _

theorem changes_eq (leftDistinct : left.Distinct) (rightDistinct : right.Distinct) :
    left.changes right = ⟨right.items.filter (fun item => !left.holdsNear item.1 item.2) ++
      (left.keys.filter fun key => !right.contains key).map fun key => (key, .remove)⟩ := by
  refine ofList_of_nodup ?_
  rw [List.map_append, List.map_map, List.nodup_append]
  refine ⟨((List.filter_sublist).map _).nodup rightDistinct, ?_, ?_⟩
  · rw [show ((·.1) ∘ fun key => (key, Value.remove)) = id from rfl, List.map_id]
    exact leftDistinct.filter _
  · intro key inRight other inLeft same
    subst same
    obtain ⟨item, kept, rfl⟩ := List.mem_map.mp inRight
    have present : right.contains item.1 = true :=
      contains_eq_true_iff.mpr (mem_keys_of_mem (List.mem_filter.mp kept).1)
    simp [Function.comp_def, present] at inLeft

/-- What a change says: the value on the right where the left has none near to it, and a removal
where only the left has one. -/
theorem get?_changes (leftDistinct : left.Distinct) (rightDistinct : right.Distinct) :
    (left.changes right).get? key = match right.get? key with
      | some value => if left.holdsNear key value then none else some value
      | none => if left.contains key then some .remove else none := by
  have items : ∀ value, (left.changes right).get? key = some value ↔
      (right.get? key = some value ∧ left.holdsNear key value = false) ∨
      (left.contains key = true ∧ right.get? key = none ∧ value = .remove) := by
    intro value
    rw [get?_eq_some_iff distinct_changes, changes_eq leftDistinct rightDistinct,
      get?_eq_some_iff rightDistinct]
    simp only [List.mem_append, List.mem_filter, Bool.not_eq_true', List.mem_map, Prod.mk.injEq]
    refine or_congr Iff.rfl ⟨?_, ?_⟩
    · rintro ⟨key, ⟨inLeft, absent⟩, rfl, rfl⟩
      exact ⟨contains_eq_true_iff.mpr inLeft,
        get?_eq_none_iff.mpr (contains_eq_false_iff.mp absent), rfl⟩
    · rintro ⟨inLeft, absent, rfl⟩
      exact ⟨key, ⟨contains_eq_true_iff.mp inLeft,
        contains_eq_false_iff.mpr (get?_eq_none_iff.mp absent)⟩, rfl, rfl⟩
  apply Option.ext
  intro value
  rw [items]
  cases right.get? key with
  | none => cases left.contains key <;> simp [eq_comm (a := value)]
  | some other =>
      simp only [Option.some.injEq, reduceCtorEq, false_and, and_false, or_false]
      constructor
      · rintro ⟨rfl, lacks⟩
        simp [lacks]
      · cases lacks : left.holdsNear key other with
        | true => simp
        | false =>
            intro same
            obtain rfl := Option.some.inj same
            exact ⟨rfl, lacks⟩

theorem holdsNear_iff : left.holdsNear key value = true ↔
    ∃ held, left.get? key = some held ∧ near held value = true := by
  simp [holdsNear, Option.any_eq_true]

/-- The changes that are taken lead to the right. -/
theorem leads_changes (leftDistinct : left.Distinct) (rightPlain : right.IsPlain)
    (refl : ∀ value ∈ right.values, near value value = true) :
    (left.changes right).Leads left right := by
  intro key
  rw [get?_changes leftDistinct rightPlain.distinct]
  cases present : right.get? key with
  | none =>
      cases found : left.get? key with
      | none => simp [contains, found]
      | some held => simp [contains, found, Value.isRemove]
  | some value =>
      have member := mem_values_of_get? present
      by_cases held : left.holdsNear key value = true
      · obtain ⟨old, found, related⟩ := holdsNear_iff.mp held
        simp only [if_pos held, found]
        exact .some related
      · simp only [if_neg held, rightPlain.values value member]
        exact ⟨value, rfl, refl value member⟩

theorem mem_keys_changes (member : key ∈ (left.changes right).keys) :
    key ∈ left.keys ∨ key ∈ right.keys := by
  rw [OrderedMap.changes, mem_keys_ofList] at member
  simp only [keys, List.map_append, List.mem_append, List.mem_map, List.mem_filter] at member ⊢
  rcases member with ⟨item, ⟨inRight, _⟩, same⟩ | ⟨item, ⟨other, ⟨inLeft, _⟩, rfl⟩, rfl⟩
  · exact .inr ⟨item, inRight, same⟩
  · exact .inl inLeft

/-- Changes between plain maps are of keys that are not reserved. -/
theorem not_isReserved_of_mem_changes (leftPlain : left.IsPlain) (rightPlain : right.IsPlain)
    (member : key ∈ (left.changes right).keys) : ¬ IsReserved key :=
  (mem_keys_changes member).elim (leftPlain.keys key) (rightPlain.keys key)

/-- The changes of a row with an id are no removal of it. -/
theorem stays_changes_insert_id (leftPlain : left.IsPlain) (rightPlain : right.IsPlain) (id : Ref) :
    ((left.changes right).insert "id" (.ref id)).contains removalKey = false := by
  refine contains_eq_false_iff.mpr fun member => ?_
  rcases mem_keys_insert.mp member with isIdKey | inChanges
  · exact absurd isIdKey (by decide)
  · exact not_isReserved_of_mem_changes leftPlain rightPlain inChanges (.inr rfl)

/-! ## Versions -/

section Versions

variable {version : Version}

/-- What changes make of a map fits a version if they do, and what they leave alone. -/
theorem fits_applyChanges (distinct : m.Distinct) (changesDistinct : changes.Distinct)
    (fits : ∀ value ∈ changes.values, value.fits version = true)
    (kept : ∀ key held, changes.get? key = none → m.get? key = some held → held.fits version = true) :
    ∀ value ∈ (m.applyChanges changes).values, value.fits version = true := by
  intro value member
  obtain ⟨key, found⟩ := exists_get?_of_mem_values (distinct_applyChanges distinct) member
  rw [get?_applyChanges distinct changesDistinct] at found
  cases changed : changes.get? key with
  | none =>
      rw [changed] at found
      exact kept key value changed found
  | some other =>
      rw [changed] at found
      obtain ⟨_, same⟩ := Option.ite_none_left_eq_some.mp found
      exact Option.some.inj same ▸ fits other (mem_values_of_get? changed)

theorem fits_changes (leftDistinct : left.Distinct) (rightDistinct : right.Distinct)
    (fits : ∀ value ∈ right.values, value.fits version = true) :
    ∀ value ∈ (left.changes right).values, value.fits version = true := by
  intro value member
  obtain ⟨key, found⟩ := exists_get?_of_mem_values distinct_changes member
  rw [get?_changes leftDistinct rightDistinct] at found
  cases present : right.get? key with
  | none =>
      rw [present] at found
      obtain ⟨_, isRemoval⟩ := Option.ite_none_right_eq_some.mp found
      exact Option.some.inj isRemoval ▸ rfl
  | some other =>
      rw [present] at found
      obtain ⟨_, same⟩ := Option.ite_none_left_eq_some.mp found
      exact Option.some.inj same ▸ fits other (mem_values_of_get? present)

/-- What the changes between two maps leave alone is near to what the right has. -/
theorem fits_of_unchanged (leftDistinct : left.Distinct) (rightDistinct : right.Distinct)
    (fits : ∀ value ∈ right.values, value.fits version = true) {key : String} {held : Value}
    (unchanged : (left.changes right).get? key = none) (found : left.get? key = some held) :
    held.fits version = true := by
  rw [get?_changes leftDistinct rightDistinct] at unchanged
  cases present : right.get? key with
  | none => simp [present, contains, found] at unchanged
  | some other =>
      have holds : left.holdsNear key other = true := by simpa [present] using unchanged
      obtain ⟨same, foundAgain, near⟩ := holdsNear_iff.mp holds
      obtain rfl := Option.some.inj (found.symm.trans foundAgain)
      rw [fits_eq_of_near near]
      exact fits other (mem_values_of_get? present)

theorem fits_changed (leftDistinct : left.Distinct) (rightDistinct : right.Distinct)
    (fits : ∀ value ∈ right.values, value.fits version = true) :
    ∀ value ∈ (left.applyChanges (left.changes right)).values, value.fits version = true :=
  fits_applyChanges leftDistinct distinct_changes (fits_changes leftDistinct rightDistinct fits)
    fun _ _ => fits_of_unchanged leftDistinct rightDistinct fits

/-- Where a map agrees with one whose values fit a version, its own values fit. -/
theorem AgreesNear.fits (agrees : m.AgreesNear right) (distinct : m.Distinct)
    (fits : ∀ value ∈ right.values, value.fits version = true) :
    ∀ value ∈ m.values, value.fits version = true := by
  intro value member
  obtain ⟨key, found⟩ := exists_get?_of_mem_values distinct member
  obtain ⟨other, present, related⟩ := agrees.exists_right found
  rw [fits_eq_of_near related]
  exact fits other (mem_values_of_get? present)

end Versions

end OrderedMap

namespace GridOf

open OrderedMap

/-! ## Metadata -/

/-- The mark of a difference is not made a change. -/
theorem patchMetadata_differenceMetadata {left right metadata : Metadata} (leftPlain : left.IsPlain)
    (rightPlain : right.IsPlain) :
    patchMetadata metadata (differenceMetadata left right) =
      metadata.applyChanges (left.changes right) := by
  have unmarked : ∀ item ∈ (left.changes right).items, (item.1 != differenceKey) = true := by
    intro item member
    have free := not_isReserved_of_mem_changes leftPlain rightPlain (mem_keys_of_mem member)
    simpa using fun same => free (.inl same)
  have distinct : (((differenceKey, Value.marker) :: (left.changes right).items).map (·.1)).Nodup := by
    refine List.nodup_cons.mpr ⟨fun member => ?_, distinct_changes⟩
    exact not_isReserved_of_mem_changes leftPlain rightPlain member (.inl rfl)
  rw [patchMetadata, differenceMetadata, ofList_of_nodup distinct]
  simp only [filter, List.filter_cons, bne_self_eq_false, Bool.false_eq_true, if_false,
    List.filter_eq_self.mpr unmarked]

/-! ## Columns -/

/-- Columns whose names are not reserved, with plain metadata. -/
structure PlainColumns (columns : Columns) : Prop where
  distinct : columns.Distinct
  names : ∀ name ∈ columns.keys, ¬ IsReserved name
  held : ∀ metadata ∈ columns.values, metadata.IsPlain

instance (columns : Columns) : Decidable (PlainColumns columns) :=
  decidable_of_iff (columns.Distinct ∧ (∀ name ∈ columns.keys, ¬ IsReserved name) ∧
      ∀ metadata ∈ columns.values, metadata.IsPlain)
    ⟨fun ⟨distinct, names, held⟩ => ⟨distinct, names, held⟩,
      fun plain => ⟨plain.distinct, plain.names, plain.held⟩⟩

/-- What the difference has for a column on the right. -/
def changesOfColumn (left : Columns) (item : String × Metadata) : Metadata :=
  match left.get? item.1 with
  | some old => old.changes item.2
  | none => item.2

/-- A column on the right as the difference makes it from the one on the left, if there is one. -/
def patchedColumn (left : Columns) (item : String × Metadata) : Metadata :=
  ((left.get? item.1).getD .empty).applyChanges (changesOfColumn left item)

/-- The columns on the right, each with patched metadata. -/
def patchedColumns (left right : Columns) : Columns :=
  ⟨right.items.map fun item => (item.1, patchedColumn left item)⟩

theorem keys_patchedColumns (left right : Columns) :
    (patchedColumns left right).keys = right.keys := by
  simp [patchedColumns, keys]

section Columns

variable {left right : Columns} {item : String × Metadata}

theorem differenceColumns_eq (leftDistinct : left.Distinct) (rightDistinct : right.Distinct) :
    differenceColumns left right = ⟨(right.items.map fun item => (item.1, changesOfColumn left item)) ++
      (left.keys.filter fun name => !right.contains name).map fun name =>
        (name, ofList [(removalKey, .remove)])⟩ := by
  refine ofList_of_nodup ?_
  rw [List.map_append, List.map_map, List.map_map, List.nodup_append]
  refine ⟨rightDistinct, ?_, ?_⟩
  · rw [show ((·.1) ∘ fun name => (name, ofList [(removalKey, Value.remove)])) = id from rfl,
      List.map_id]
    exact leftDistinct.filter _
  · intro name inRight other inLeft same
    subst same
    have present : right.contains name = true := contains_eq_true_iff.mpr inRight
    simp [Function.comp_def, present] at inLeft

/-- The column declared for removals is not one to keep. -/
theorem filter_declareRemovals (columns : Columns) (rows : List Entity) (keep : Metadata → Bool) :
    (declareRemovals columns rows).items.filter (fun item => item.1 != removalKey && keep item.2) =
      columns.items.filter fun item => item.1 != removalKey && keep item.2 := by
  unfold declareRemovals declare
  split
  · split
    · rfl
    · next absent => simp [OrderedMap.insert, absent]
  · rfl

theorem changesOfColumn_contains_removalKey (leftPlain : PlainColumns left)
    (rightPlain : PlainColumns right) (member : item ∈ right.items) :
    (changesOfColumn left item).contains removalKey = false := by
  have heldPlain := rightPlain.held item.2 (mem_values_of_mem member)
  unfold changesOfColumn
  split
  · next old found =>
    have oldPlain := leftPlain.held old (mem_values_of_get? found)
    exact contains_eq_false_iff.mpr fun inChanges =>
      not_isReserved_of_mem_changes oldPlain heldPlain inChanges (.inr rfl)
  · exact heldPlain.contains_removalKey

/-- A patched grid has the columns of the right in their order, whichever columns it had. -/
theorem patchColumns_eq (leftPlain : PlainColumns left) (rightPlain : PlainColumns right)
    (columns : Columns) (rows : List Entity) :
    patchColumns columns (declareRemovals (differenceColumns left right) rows) =
      ⟨right.items.map fun item =>
        (item.1, ((columns.get? item.1).getD .empty).applyChanges (changesOfColumn left item))⟩ := by
  have keptAll : ∀ change ∈ right.items.map fun item => (item.1, changesOfColumn left item),
      (change.1 != removalKey && !change.2.contains removalKey) = true := by
    intro change member
    obtain ⟨item, inRight, rfl⟩ := List.mem_map.mp member
    have free : item.1 ≠ removalKey := fun same =>
      rightPlain.names item.1 (mem_keys_of_mem inRight) (.inr same)
    simp [free, changesOfColumn_contains_removalKey leftPlain rightPlain inRight]
  have goneAll : ∀ change ∈ (left.keys.filter fun name => !right.contains name).map
      fun name => (name, ofList [(removalKey, Value.remove)]),
      ¬ (change.1 != removalKey && !change.2.contains removalKey) = true := by
    intro change member
    obtain ⟨name, _, rfl⟩ := List.mem_map.mp member
    have marked : (ofList [(removalKey, Value.remove)]).contains removalKey = true := rfl
    simp [marked]
  rw [patchColumns, filter_declareRemovals _ rows fun held => !held.contains removalKey,
    differenceColumns_eq leftPlain.distinct rightPlain.distinct, List.filter_append, List.filter_eq_self.mpr keptAll,
    List.filter_eq_nil_iff.mpr goneAll, List.append_nil, List.map_map]
  refine ofList_of_nodup ?_
  rw [List.map_map]
  exact rightPlain.distinct

theorem patchColumns_differenceColumns (leftPlain : PlainColumns left)
    (rightPlain : PlainColumns right) (rows : List Entity) :
    patchColumns left (declareRemovals (differenceColumns left right) rows) =
      patchedColumns left right :=
  patchColumns_eq leftPlain rightPlain left rows

theorem leads_from_empty {metadata : Metadata} (plain : metadata.IsPlain)
    (refl : ∀ value ∈ metadata.values, Value.near value value = true) :
    metadata.Leads .empty metadata := by
  intro key
  cases found : metadata.get? key with
  | none => exact .none
  | some value =>
      have member := mem_values_of_get? found
      simp only [plain.values value member]
      exact ⟨value, rfl, refl value member⟩

theorem agrees_patchedColumn (leftPlain : PlainColumns left) (rightPlain : PlainColumns right)
    (member : item ∈ right.items) (refl : ∀ value ∈ item.2.values, Value.near value value = true) :
    (patchedColumn left item).Distinct ∧ (patchedColumn left item).AgreesNear item.2 := by
  have heldPlain := rightPlain.held item.2 (mem_values_of_mem member)
  unfold patchedColumn changesOfColumn
  cases found : left.get? item.1 with
  | none =>
      exact ⟨distinct_applyChanges distinct_empty, (leads_from_empty heldPlain refl).agrees_applyChanges
        distinct_empty heldPlain.distinct⟩
  | some old =>
      have oldPlain := leftPlain.held old (mem_values_of_get? found)
      exact ⟨distinct_applyChanges oldPlain.distinct, (leads_changes oldPlain.distinct heldPlain
        refl).agrees_applyChanges oldPlain.distinct distinct_changes⟩

/-- The columns of a patched grid fit the version. -/
theorem fits_patchedColumns {version : Version} (leftPlain : PlainColumns left)
    (rightPlain : PlainColumns right)
    (fits : ∀ held ∈ right.values, ∀ value ∈ held.values, value.fits version = true) :
    ∀ held ∈ (patchedColumns left right).values, ∀ value ∈ held.values,
      value.fits version = true := by
  intro held member
  obtain ⟨patched, inPatched, rfl⟩ := List.mem_map.mp member
  obtain ⟨item, inItems, rfl⟩ := List.mem_map.mp inPatched
  have inRight : item.2 ∈ right.values := mem_values_of_mem inItems
  have heldDistinct := (rightPlain.held item.2 inRight).distinct
  simp only
  unfold patchedColumn changesOfColumn
  cases found : left.get? item.1 with
  | some old =>
      exact fits_changed (leftPlain.held old (mem_values_of_get? found)).distinct heldDistinct
        (fits item.2 inRight)
  | none =>
      exact fits_applyChanges distinct_empty heldDistinct (fits item.2 inRight) fun _ _ _ none => by cases none

end Columns

end GridOf

end Haystack
