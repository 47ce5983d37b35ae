import Haystack.Proofs.Pairing.Reordering
import Haystack.Proofs.Value.Parts
import Haystack.Proofs.Value.RowsById
import Haystack.Value.Near
import Mathlib.Data.List.Perm.Subperm

/-!
Approximate equality, said by look-ups and counts.

Dicts are compared key by key with absent tags as nulls, metadata and columns key by key, and rows by
their ids or, where they have none, by how many there are of a kind.
-/
namespace Haystack

open Pairing

theorem exists_right_of_rel {α β : Type} {relates : α → β → Prop} {left : Option α}
    {right : Option β} (related : Option.Rel relates left right) {value : α}
    (found : left = some value) : ∃ other, right = some other ∧ relates value other := by
  subst found
  cases related with
  | some here => exact ⟨_, rfl, here⟩

theorem exists_left_of_rel {α β : Type} {relates : α → β → Prop} {left : Option α}
    {right : Option β} (related : Option.Rel relates left right) {other : β}
    (found : right = some other) : ∃ value, left = some value ∧ relates value other := by
  subst found
  cases related with
  | some here => exact ⟨_, rfl, here⟩

namespace OrderedMap

variable {α β : Type} {relates : α → β → Prop} {left : OrderedMap α} {right : OrderedMap β}

/-- Two maps have the same keys, with related values. -/
def Agrees (relates : α → β → Prop) (left : OrderedMap α) (right : OrderedMap β) : Prop :=
  ∀ key, Option.Rel relates (left.get? key) (right.get? key)

/-- Being near, as a relation. -/
abbrev AgreesNear (left right : OrderedMap Value) : Prop :=
  left.Agrees (fun a b => Value.near a b = true) right

theorem Agrees.exists_right (agrees : left.Agrees relates right) {key : String} {value : α}
    (found : left.get? key = some value) :
    ∃ other, right.get? key = some other ∧ relates value other :=
  exists_right_of_rel (agrees key) found

theorem Agrees.exists_left (agrees : left.Agrees relates right) {key : String} {other : β}
    (found : right.get? key = some other) :
    ∃ value, left.get? key = some value ∧ relates value other :=
  exists_left_of_rel (agrees key) found

theorem Agrees.mem_keys_iff (agrees : left.Agrees relates right) {key : String} :
    key ∈ left.keys ↔ key ∈ right.keys := by
  rw [← contains_eq_true_iff, ← contains_eq_true_iff, contains_iff_get?, contains_iff_get?]
  constructor
  · intro ⟨value, found⟩
    obtain ⟨other, present, _⟩ := agrees.exists_right found
    exact ⟨other, present⟩
  · intro ⟨other, found⟩
    obtain ⟨value, present, _⟩ := agrees.exists_left found
    exact ⟨value, present⟩

theorem Agrees.symm {back : β → α → Prop} (agrees : left.Agrees relates right)
    (turn : ∀ a ∈ left.values, ∀ b ∈ right.values, relates a b → back b a) :
    right.Agrees back left := by
  intro key
  have here := agrees key
  cases found : left.get? key <;> cases present : right.get? key <;> rw [found, present] at here
  case none.none => exact .none
  case some.some =>
    cases here with
    | some related =>
        exact .some (turn _ (mem_values_of_get? found) _ (mem_values_of_get? present) related)
  all_goals exact nomatch here

/-- To agree, maps of one size with distinct keys need agree on the keys of the left. -/
theorem agrees_iff (leftDistinct : left.Distinct) (rightDistinct : right.Distinct) :
    left.Agrees relates right ↔ left.size = right.size ∧
      ∀ item ∈ left.items, ∃ other, right.get? item.1 = some other ∧ relates item.2 other := by
  constructor
  · intro agrees
    refine ⟨?_, fun item member => agrees.exists_right ((get?_eq_some_iff leftDistinct).mpr member)⟩
    have sameKeys : left.keys.Perm right.keys :=
      (List.perm_ext_iff_of_nodup leftDistinct rightDistinct).mpr fun key => agrees.mem_keys_iff
    simpa [keys, size] using sameKeys.length_eq
  · rintro ⟨sizes, related⟩ key
    have subset : left.keys ⊆ right.keys := by
      intro key member
      obtain ⟨item, inItems, rfl⟩ := List.mem_map.mp member
      obtain ⟨other, found, _⟩ := related item inItems
      exact mem_keys_of_get? found
    have sameKeys : left.keys.Perm right.keys :=
      (List.subperm_of_subset leftDistinct subset).perm_of_length_le (by
        simpa [keys, size] using Nat.le_of_eq sizes.symm)
    cases found : left.get? key with
    | some value =>
        obtain ⟨other, present, here⟩ := related (key, value) (mem_of_get? found)
        rw [present]
        exact .some here
    | none =>
        have absent := get?_eq_none_iff.mp found
        rw [get?_eq_none_iff.mpr fun member => absent (sameKeys.mem_iff.mpr member)]
        exact .none

/-- Maps agree if their items do, in order. -/
theorem agrees_of_forall₂ {lefts : List (String × α)} {rights : List (String × β)}
    (related : List.Forall₂ (fun a b => a.1 = b.1 ∧ relates a.2 b.2) lefts rights) :
    (⟨lefts⟩ : OrderedMap α).Agrees relates ⟨rights⟩ := by
  induction related with
  | nil => exact fun key => .none
  | @cons first other lefts rights here others ih =>
      intro key
      obtain ⟨name, value⟩ := first
      obtain ⟨sameName, valueRelated⟩ := here
      obtain ⟨otherName, otherValue⟩ := other
      obtain rfl : name = otherName := sameName
      rw [get?_cons, get?_cons]
      split
      · exact .some valueRelated
      · exact ih key

theorem keys_eq_of_forall₂ {lefts : List (String × α)} {rights : List (String × β)}
    (related : List.Forall₂ (fun a b => a.1 = b.1 ∧ relates a.2 b.2) lefts rights) :
    (⟨lefts⟩ : OrderedMap α).keys = (⟨rights⟩ : OrderedMap β).keys := by
  induction related with
  | nil => rfl
  | cons here others ih =>
      unfold keys at ih ⊢
      rw [List.map_cons, List.map_cons, here.1, ih]

end OrderedMap

namespace Entity

/-- The value of a tag, null where there is none. -/
def valueOf (row : Entity) (key : String) : Value := (row.get? key).getD .null

theorem valueOf_eq {row : Entity} {key : String} {value : Value}
    (found : row.get? key = some value) : row.valueOf key = value := by
  simp [valueOf, found]

end Entity

namespace GridOf

/-- The rows that no id is known of. -/
def anonymous (rows : List Entity) : List Entity := rows.filter fun row => row.id?.isNone

theorem mem_anonymous {rows : List Entity} {row : Entity} :
    row ∈ anonymous rows ↔ row ∈ rows ∧ row.id? = none := by
  simp [anonymous]

theorem length_eq_known_add_anonymous (rows : List Entity) :
    rows.length = (idNames rows).length + (anonymous rows).length := by
  induction rows with
  | nil => rfl
  | cons row rest ih =>
      cases known : row.id? with
      | none =>
          have kept : anonymous (row :: rest) = row :: anonymous rest := by simp [anonymous, known]
          rw [idNames_cons_anonymous (Entity.id?_eq_none_iff.mp known), kept]
          simp only [List.length_cons]
          omega
      | some id =>
          have dropped : anonymous (row :: rest) = anonymous rest := by simp [anonymous, known]
          rw [idNames_cons_known (Entity.name?_of_id? known), dropped]
          simp only [List.length_cons]
          omega

end GridOf

namespace Value

/-! ## Approximate equality by parts -/

@[simp] theorem near_null_left (value : Value) : near .null value = value.isNull := by
  cases value <;> rfl

@[simp] theorem near_null_right (value : Value) : near value .null = value.isNull := by
  cases value <;> rfl

theorem isNull_iff {value : Value} : value.isNull = true ↔ value = .null := by
  cases value <;> simp [isNull]

/-- Near to a reference are the references of its name. -/
theorem near_ref_iff {value : Value} {id : Ref} :
    near value (.ref id) = true ↔ ∃ held : Ref, value = .ref held ∧ held.name = id.name := by
  cases value <;> simp [near, sameLeaf]

theorem nearList_iff {left right : List Value} :
    nearList left right = true ↔ List.Forall₂ (fun a b => near a b = true) left right := by
  induction left generalizing right with
  | nil => cases right <;> simp [nearList]
  | cons first rest ih => cases right <;> simp [nearList, ih]

theorem nearTags_iff {items : List (String × Value)} {right : Entity} :
    nearTags items right = true ↔ ∀ item ∈ items, near item.2 (right.valueOf item.1) = true := by
  induction items with
  | nil => simp [nearTags]
  | cons item rest ih => simp [nearTags, ih, Entity.valueOf]

theorem nearItems_iff {items : List (String × Value)} {right : Metadata} :
    nearItems items right = true ↔
      ∀ item ∈ items, ∃ other, right.get? item.1 = some other ∧ near item.2 other = true := by
  induction items with
  | nil => simp [nearItems]
  | cons item rest ih =>
      obtain ⟨key, value⟩ := item
      cases found : right.get? key <;> simp [nearItems, ih, found]

theorem nearColumnItems_iff {items : List (String × Metadata)} {right : Columns} :
    nearColumnItems items right = true ↔ ∀ item ∈ items, ∃ other,
      right.get? item.1 = some other ∧ nearMetadata item.2 other = true := by
  induction items with
  | nil => simp [nearColumnItems]
  | cons item rest ih =>
      obtain ⟨key, value⟩ := item
      cases found : right.get? key <;> simp [nearColumnItems, ih, found]

/-- Rows and dicts are near if they are under every key. -/
theorem nearEntity_iff {left right : Entity} (leftDistinct : left.Distinct)
    (rightDistinct : right.Distinct) :
    nearEntity left right = true ↔
      ∀ key, near (left.valueOf key) (right.valueOf key) = true := by
  have unfolded : nearEntity left right = (nearTags left.items right && restIsNull left right) := by
    cases left; simp only [nearEntity]
  rw [unfolded, Bool.and_eq_true, nearTags_iff]
  simp only [restIsNull, List.all_eq_true, Bool.or_eq_true]
  constructor
  · intro ⟨tags, rest⟩ key
    cases found : left.get? key with
    | some value =>
        rw [Entity.valueOf_eq found]
        exact tags (key, value) (OrderedMap.mem_of_get? found)
    | none =>
        have absent : left.valueOf key = .null := by simp [Entity.valueOf, found]
        rw [absent, near_null_left]
        cases present : right.get? key with
        | none => simp [Entity.valueOf, present, isNull]
        | some other =>
            have lacks : left.contains key = false := by simp [OrderedMap.contains, found]
            rw [Entity.valueOf_eq present]
            simpa [lacks] using rest (key, other) (OrderedMap.mem_of_get? present)
  · intro everywhere
    refine ⟨fun item member => ?_, fun item member => ?_⟩
    · have here := everywhere item.1
      rwa [Entity.valueOf_eq ((OrderedMap.get?_eq_some_iff leftDistinct).mpr member)] at here
    · cases found : left.get? item.1 with
      | some value => exact .inl (by simp [OrderedMap.contains, found])
      | none =>
          have here := everywhere item.1
          rw [Entity.valueOf_eq ((OrderedMap.get?_eq_some_iff rightDistinct).mpr member),
            show left.valueOf item.1 = .null by simp [Entity.valueOf, found], near_null_left] at here
          exact .inr here

theorem nearEntity_of_agrees {left right : Entity} (leftDistinct : left.Distinct)
    (rightDistinct : right.Distinct) (agrees : left.Agrees (fun a b => near a b = true) right) :
    nearEntity left right = true := by
  rw [nearEntity_iff leftDistinct rightDistinct]
  intro key
  have here := agrees key
  unfold Entity.valueOf
  revert here
  generalize left.get? key = value
  generalize right.get? key = other
  rintro (here | _)
  · exact here
  · rfl

/-- A row that comes back as near cells comes back near, if all its tags have columns. -/
theorem nearEntity_ofCells {names : List String} {cells : List (Option Value)} {row : Entity}
    (namesDistinct : names.Nodup) (distinct : row.Distinct) (declared : ∀ name ∈ row.keys, name ∈ names)
    (near : List.Forall₂ (fun name cell => near (cell.getD .null) (row.valueOf name) = true) names cells) :
    nearEntity (.ofCells names cells) row = true := by
  rw [nearEntity_iff (OrderedMap.distinct_ofCells namesDistinct cells) distinct]
  intro name
  by_cases isName : name ∈ names
  · exact OrderedMap.forall_get?_ofCells namesDistinct near name isName
  · have absent : row.get? name = none := OrderedMap.get?_eq_none_iff.mpr (isName <| declared name ·)
    rw [Entity.valueOf, Entity.valueOf, absent, OrderedMap.get?_ofCells_of_not_mem isName]
    rfl

theorem nearMetadata_iff {left right : Metadata} (leftDistinct : left.Distinct)
    (rightDistinct : right.Distinct) :
    nearMetadata left right = true ↔ left.Agrees (fun a b => near a b = true) right := by
  have unfolded : nearMetadata left right =
      (left.items.length == right.size && nearItems left.items right) := by
    cases left; simp only [nearMetadata]
  rw [unfolded, Bool.and_eq_true, beq_iff_eq, nearItems_iff,
    OrderedMap.agrees_iff leftDistinct rightDistinct]
  rfl

theorem nearColumns_iff {left right : Columns} (leftDistinct : left.Distinct)
    (rightDistinct : right.Distinct) :
    nearColumns left right = true ↔ left.Agrees (fun a b => nearMetadata a b = true) right := by
  have unfolded : nearColumns left right =
      (left.items.length == right.size && nearColumnItems left.items right) := by
    cases left; simp only [nearColumns]
  rw [unfolded, Bool.and_eq_true, beq_iff_eq, nearColumnItems_iff,
    OrderedMap.agrees_iff leftDistinct rightDistinct]
  rfl

/-- Tags under the same names with near values, in order. -/
def TagsNear (left right : List (String × Value)) : Prop :=
  List.Forall₂ (fun a b => a.1 = b.1 ∧ near a.2 b.2 = true) left right

/-- Columns under the same names with near metadata, in order. -/
def ColumnsNear (left right : List (String × Metadata)) : Prop :=
  List.Forall₂ (fun a b => a.1 = b.1 ∧ nearMetadata a.2 b.2 = true) left right

theorem TagsNear.keys {tags : List (String × Value)} {right : OrderedMap Value}
    (near : TagsNear tags right.items) : (⟨tags⟩ : OrderedMap Value).keys = right.keys :=
  @OrderedMap.keys_eq_of_forall₂ _ _ (fun a b => Value.near a b = true) _ _ near

theorem TagsNear.agrees {tags : List (String × Value)} {right : OrderedMap Value}
    (near : TagsNear tags right.items) :
    (⟨tags⟩ : OrderedMap Value).Agrees (fun a b => Value.near a b = true) right :=
  OrderedMap.agrees_of_forall₂ near

theorem ColumnsNear.keys {columns : List (String × Metadata)} {right : Columns}
    (near : ColumnsNear columns right.items) : (⟨columns⟩ : Columns).keys = right.keys :=
  @OrderedMap.keys_eq_of_forall₂ _ _ (fun a b => nearMetadata a b = true) _ _ near

theorem ColumnsNear.agrees {columns : List (String × Metadata)} {right : Columns}
    (near : ColumnsNear columns right.items) :
    (⟨columns⟩ : Columns).Agrees (fun a b => nearMetadata a b = true) right :=
  OrderedMap.agrees_of_forall₂ near

/-! ## Rows -/

open GridOf

theorem nearRows_iff {rows right pending : List Entity} :
    nearRows rows right pending = true ↔
      (∀ row ∈ rows, ∀ id, row.id? = some id →
        ∃ other, rowNamed? id.name right = some other ∧ nearEntity row other = true) ∧
      pairsOff nearEntity (anonymous rows) pending = true := by
  induction rows generalizing pending with
  | nil => simp [nearRows, anonymous, pairsOff]
  | cons row rest ih =>
      cases known : row.id? with
      | some id =>
          have dropped : anonymous (row :: rest) = anonymous rest := by simp [anonymous, known]
          have head : nearRows (row :: rest) right pending =
              ((rowNamed? id.name right).any (nearEntity row) && nearRows rest right pending) := by
            simp only [nearRows, known, rowNamed?]
            cases (lastWithId? id.name right).bind (right[·]?) <;> rfl
          rw [head, Bool.and_eq_true, Option.any_eq_true, ih, dropped, List.forall_mem_cons, known,
            and_assoc]
          simp
      | none =>
          have kept : anonymous (row :: rest) = row :: anonymous rest := by simp [anonymous, known]
          rw [kept, List.forall_mem_cons, known]
          simp only [nearRows, known, pairsOff]
          cases pending.findIdx? (nearEntity row) with
          | none => simp
          | some index => simp [ih]

/-- Rows are near: those with an id under their names, the others pairwise. -/
structure RowsNear (left right : List Entity) : Prop where
  named : ∀ name, Option.Rel (fun a b => nearEntity a b = true)
    (rowNamed? name left) (rowNamed? name right)
  sizes : (anonymous left).length = (anonymous right).length
  paired : pairsOff nearEntity (anonymous left) (anonymous right) = true

theorem RowsNear.mem_idNames_iff {left right : List Entity} (near : RowsNear left right)
    {name : String} : name ∈ idNames left ↔ name ∈ idNames right := by
  rw [← not_iff_not, ← rowNamed?_eq_none_iff, ← rowNamed?_eq_none_iff, Option.eq_none_iff_forall_ne_some,
    Option.eq_none_iff_forall_ne_some]
  constructor
  · intro absent other found
    obtain ⟨row, present, _⟩ := exists_left_of_rel (near.named name) found
    exact absent row present
  · intro absent row found
    obtain ⟨other, present, _⟩ := exists_right_of_rel (near.named name) found
    exact absent other present

theorem RowsNear.symm {left right : List Entity} (near : RowsNear left right)
    (commute : ∀ row ∈ left, ∀ other ∈ right, nearEntity row other = nearEntity other row) :
    RowsNear right left := by
  refine ⟨fun name => ?_, near.sizes.symm, ?_⟩
  · have here := near.named name
    cases found : rowNamed? name left <;> cases present : rowNamed? name right <;>
      rw [found, present] at here
    case none.none => exact .none
    case some.some =>
      cases here with
      | some related =>
          exact .some ((commute _ (mem_of_rowNamed? found).1 _
            (mem_of_rowNamed? present).1).symm.trans related)
    all_goals exact nomatch here
  · rw [← near.paired]
    refine (pairsOff_comm (fun row inLeft other inRight => ?_) near.sizes).symm
    exact commute row (mem_anonymous.mp inLeft).1 other (mem_anonymous.mp inRight).1

/-- Rows in which ids are distinct are near if there are as many and each finds its partner. -/
theorem rowsNear_iff {left right : List Entity} (leftDistinct : DistinctIds left)
    (rightDistinct : DistinctIds right) :
    left.length = right.length ∧ nearRows left right (anonymous right) = true ↔
      RowsNear left right := by
  rw [nearRows_iff, length_eq_known_add_anonymous left, length_eq_known_add_anonymous right]
  constructor
  · intro ⟨sizes, named, paired⟩
    have subset : idNames left ⊆ idNames right := by
      intro name member
      obtain ⟨row, inRows, known⟩ := mem_idNames.mp member
      obtain ⟨id, isId, rfl⟩ := Option.map_eq_some_iff.mp known
      obtain ⟨other, found, _⟩ := named row inRows id isId
      exact mem_idNames.mpr ⟨other, mem_of_rowNamed? found⟩
    have fewer := length_le_of_pairsOff paired
    have sameNames : (idNames left).Perm (idNames right) :=
      (List.subperm_of_subset leftDistinct subset).perm_of_length_le (by omega)
    refine ⟨fun name => ?_, by have := sameNames.length_eq; omega, paired⟩
    cases found : rowNamed? name left with
    | none =>
        have absent := rowNamed?_eq_none_iff.mp found
        rw [rowNamed?_eq_none_iff.mpr fun member => absent (sameNames.mem_iff.mpr member)]
        exact .none
    | some row =>
        obtain ⟨inRows, known⟩ := mem_of_rowNamed? found
        obtain ⟨id, isId, rfl⟩ := Option.map_eq_some_iff.mp known
        obtain ⟨other, present, related⟩ := named row inRows id isId
        rw [present]
        exact .some related
  · intro near
    have sameNames : (idNames left).Perm (idNames right) :=
      (List.perm_ext_iff_of_nodup leftDistinct rightDistinct).mpr fun name => near.mem_idNames_iff
    refine ⟨by have := sameNames.length_eq; have := near.sizes; omega, ?_, near.paired⟩
    intro row inRows id isId
    have found := (rowNamed?_eq_some_iff leftDistinct).mpr ⟨inRows, Entity.name?_of_id? isId⟩
    exact exists_right_of_rel (near.named id.name) found

/-- Near rows are known by the same name. -/
theorem name?_eq_of_nearEntity {left right : Entity} (leftDistinct : left.Distinct)
    (rightDistinct : right.Distinct) (near : nearEntity left right = true) :
    left.name? = right.name? := by
  have same := (nearEntity_iff leftDistinct rightDistinct).mp near "id"
  have refName {row : Entity} {id : Ref} (isRef : row.valueOf "id" = .ref id) :
      row.name? = some id.name := by
    unfold Entity.valueOf at isRef
    cases found : row.get? "id" with
    | none => simp [found] at isRef
    | some value =>
        rw [found, Option.getD_some] at isRef
        exact Entity.name?_of_id? (Entity.id?_eq_some_iff.mpr (isRef ▸ found))
  have isRef {row : Entity} {id : Ref} (known : row.id? = some id) : row.valueOf "id" = .ref id :=
    Entity.valueOf_eq (Entity.id?_eq_some_iff.mp known)
  cases known : right.id? with
  | some id =>
      rw [isRef known, near_ref_iff] at same
      obtain ⟨held, isHeld, sameName⟩ := same
      rw [refName isHeld, Entity.name?_of_id? known, sameName]
  | none =>
      cases named : left.id? with
      | none => rw [Entity.id?_eq_none_iff.mp known, Entity.id?_eq_none_iff.mp named]
      | some id =>
          rw [isRef named] at same
          obtain ⟨other, isOther⟩ : ∃ other, right.valueOf "id" = .ref other := by
            revert same
            cases right.valueOf "id" <;> simp [Value.near, sameLeaf]
          have named := refName isOther
          rw [Entity.id?_eq_none_iff.mp known] at named
          exact nomatch named

theorem idNames_eq_of_forall₂ {left right : List Entity}
    (same : List.Forall₂ (fun a b => a.name? = b.name?) left right) : idNames left = idNames right := by
  induction same with
  | nil => rfl
  | cons here _ ih =>
      unfold idNames at ih ⊢
      rw [List.filterMap_cons, List.filterMap_cons, here, ih]

/-- Rows that are near in order, and known by the same names, are near. -/
theorem rowsNear_of_forall₂ {left right : List Entity}
    (near : List.Forall₂ (fun a b => nearEntity a b = true ∧ a.name? = b.name?) left right)
    (ids : DistinctIds right) : DistinctIds left ∧ RowsNear left right := by
  have names : idNames left = idNames right :=
    idNames_eq_of_forall₂ (near.imp fun _ _ both => both.2)
  have leftIds : DistinctIds left := by rwa [DistinctIds, names]
  refine ⟨leftIds, (rowsNear_iff leftIds ids).mp ⟨near.length_eq, nearRows_iff.mpr ⟨?_, ?_⟩⟩⟩
  · intro row inLeft id known
    obtain ⟨other, inRight, here, sameName⟩ := exists_mem_of_forall₂ near inLeft
    refine ⟨other, (rowNamed?_eq_some_iff ids).mpr ⟨inRight, ?_⟩, here⟩
    exact sameName.symm.trans (Entity.name?_of_id? known)
  · refine pairsOff_of_forall₂ ?_
    clear names leftIds ids
    induction near with
    | nil => exact .nil
    | @cons first other left right here others ih =>
        have sameKind : first.id?.isNone = other.id?.isNone := by
          have same := congrArg Option.isNone here.2
          simpa only [Entity.name?, Option.isNone_map] using same
        unfold anonymous at ih ⊢
        rw [List.filter_cons, List.filter_cons, sameKind]
        split
        · exact .cons here.1 ih
        · exact ih


theorem nearGrid_eq (left right : Grid) :
    nearGrid left right = (nearMetadata left.metadata right.metadata &&
      nearColumns left.columns right.columns && left.rows.length == right.rows.length &&
      nearRows left.rows right.rows (anonymous right.rows)) := by
  cases left
  simp only [nearGrid, anonymous]

/-- Grids are near by their metadata, columns and rows. -/
theorem nearGrid_iff {left right : Grid} (leftDistinct : DistinctIds left.rows)
    (rightDistinct : DistinctIds right.rows) :
    nearGrid left right = true ↔ nearMetadata left.metadata right.metadata = true ∧
      nearColumns left.columns right.columns = true ∧ RowsNear left.rows right.rows := by
  rw [nearGrid_eq, ← rowsNear_iff leftDistinct rightDistinct]
  simp only [Bool.and_eq_true, beq_iff_eq, and_assoc]

end Value

end Haystack
