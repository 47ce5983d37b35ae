import Haystack.Proofs.Value.Equivalence

/-!
Tags and columns whose values are related one by one.

The relation says how what is read back stands to what was written: it may be that both are equal, near,
or just of one kind. What follows from the names and the kinds alone is said once for all of them.
-/
namespace Haystack.Value

variable {related : Value → Value → Prop} {version : Version}

/-! ## Kinds -/

/-- What is read for a value is of its kind. -/
def KeepsKind (related : Value → Value → Prop) : Prop :=
  ∀ back value, related back value → back.kind = value.kind

theorem KeepsKind.marker {back : Value} (keeps : KeepsKind related) (relates : related back .marker) :
    back = .marker := by
  have kind := keeps back .marker relates
  revert kind
  cases back <;> simp [Value.kind]

theorem keepsKind_near : KeepsKind fun back value => Value.near back value = true :=
  fun _ _ => Value.kind_eq_of_near

theorem keepsKind_eq : KeepsKind Eq := fun _ _ => congrArg Value.kind

/-- A value comes back as one of its kind. -/
def SameKind (back value : Value) : Prop := back.kind = value.kind

theorem keepsKind_sameKind : KeepsKind SameKind := fun _ _ same => same

/-- Whether a value fits is told by its kind. -/
theorem fits_of_kind_eq {back held : Value} (same : back.kind = held.kind)
    (fits : held.fits version = true) : back.fits version = true := by
  revert same fits
  cases back <;> cases held <;> simp [Value.kind, Value.fits, Value.requiredVersion]

theorem null_of_related {held : Value} (keeps : KeepsKind related) (relates : related .null held) :
    held = .null := by
  have kind := keeps .null held relates
  revert kind
  cases held <;> simp [Value.kind]

/-! ## Tags -/

/-- Tags under the same names with related values, in order. -/
abbrev TagsRelated (related : Value → Value → Prop) (backs items : List (String × Value)) : Prop :=
  List.Forall₂ (fun back item => back.1 = item.1 ∧ related back.2 item.2) backs items

theorem TagsRelated.distinct {backs : List (String × Value)} {tags : OrderedMap Value}
    (relates : TagsRelated related backs tags.items) (distinct : tags.Distinct) :
    (⟨backs⟩ : OrderedMap Value).Distinct := by
  rwa [OrderedMap.Distinct, OrderedMap.keys_eq_of_forall₂ relates]

theorem TagsRelated.fits {backs : List (String × Value)} {tags : OrderedMap Value}
    (keeps : KeepsKind related) (relates : TagsRelated related backs tags.items)
    (fits : ∀ held ∈ tags.values, held.fits version = true) :
    ∀ back ∈ (⟨backs⟩ : OrderedMap Value).values, back.fits version = true := by
  intro back member
  obtain ⟨item, inBacks, rfl⟩ := List.mem_map.mp member
  obtain ⟨held, inItems, _, isRelated⟩ := Pairing.exists_mem_of_forall₂ relates inBacks
  exact fits_of_kind_eq (keeps _ _ isRelated) (fits held.2 (List.mem_map_of_mem inItems))

/-! ## Columns -/

/-- Columns under the same names whose metadata hold related values, in order. -/
abbrev ColumnsRelated (related : Value → Value → Prop) (backs items : List (String × Metadata)) : Prop :=
  List.Forall₂ (fun back item => back.1 = item.1 ∧ TagsRelated related back.2.items item.2.items)
    backs items

theorem ColumnsRelated.keys {backs : List (String × Metadata)} {columns : Columns}
    (relates : ColumnsRelated related backs columns.items) :
    (⟨backs⟩ : Columns).keys = columns.keys :=
  @OrderedMap.keys_eq_of_forall₂ _ _
    (fun back held : Metadata => TagsRelated related back.items held.items) _ _ relates

theorem ColumnsRelated.distinct {backs items : List (String × Metadata)}
    (relates : ColumnsRelated related backs items) (distinct : ∀ item ∈ items, item.2.Distinct) :
    ∀ back ∈ backs, back.2.Distinct := by
  intro back member
  obtain ⟨item, inItems, _, tags⟩ := Pairing.exists_mem_of_forall₂ relates member
  exact TagsRelated.distinct tags (distinct item inItems)

/-- Columns whose metadata hold near values are near. -/
theorem ColumnsRelated.near {backs items : List (String × Metadata)}
    (relates : ColumnsRelated (fun back value => Value.near back value = true) backs items)
    (distinct : ∀ item ∈ items, item.2.Distinct) : ColumnsNear backs items := by
  induction relates with
  | nil => exact .nil
  | @cons back item backs items here others ih =>
      rw [List.forall_mem_cons] at distinct
      refine .cons ⟨here.1, ?_⟩ (ih distinct.2)
      exact (Value.nearMetadata_iff (TagsRelated.distinct here.2 distinct.1) distinct.1).mpr
        (TagsNear.agrees here.2)

/-! ## Names -/

/-- No name is given twice in the metadata of a grid, among its columns or in their metadata. -/
structure HasDistinctNames (grid : Grid) : Prop where
  metadata : grid.metadata.Distinct
  columns : grid.columns.Distinct
  columnMetadata : ∀ held ∈ grid.columns.values, held.Distinct

theorem hasDistinctNames_of_keyed {grid : Grid} (keyed : Keyed (.grid grid)) :
    HasDistinctNames grid where
  metadata := keyed.1
  columns := keyed.2.1
  columnMetadata := keyed.2.2.1

end Haystack.Value
