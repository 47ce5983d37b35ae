import Haystack.Proofs.Value.Equality

/-!
When approximate equality is an equivalence.

It is reflexive wherever keys and ids are distinct. It is symmetric and transitive too among values
that hold no numbers and coordinates, since nothing but these is compared with a tolerance.
-/
namespace Haystack

open Pairing

theorem Binary64.isNear_refl (x : Binary64) : x.isNear x = true := by
  cases x with
  | nan => rfl
  | infinity negative => simp [isNear]
  | finite negative significand exponent stored =>
      have nothing : distance negative significand exponent negative significand exponent =
          zero false := by simp [distance, nearest]
      have below : (zero false).compare? tolerance = some .lt := by decide +kernel
      simp [isNear, nothing, below]

namespace Value

variable {a b c value : Value} {version : Version}

/-! ## Kinds -/

/-- Near values are of one kind. -/
theorem kind_eq_of_near (near : near a b = true) : a.kind = b.kind := by
  cases a <;> cases b <;> first | rfl | (simp [Value.near, sameLeaf] at near)

theorem requiredVersion_eq_of_kind_eq (same : a.kind = b.kind) :
    a.requiredVersion = b.requiredVersion := by
  cases a <;> cases b <;> first | rfl | (simp [kind] at same)

/-- A version that can hold a value can hold all values near to it. -/
theorem fits_eq_of_near (near : near a b = true) : a.fits version = b.fits version := by
  simp only [fits, requiredVersion_eq_of_kind_eq (kind_eq_of_near near)]

/-! ## Reflexivity -/

/-- In the maps of a value, and in those of its metadata, columns and rows if it is a grid, keys are
distinct; and so are the ids of its rows. Of what lies deeper it says nothing. -/
def Keyed : Value → Prop
  | .dict tags => tags.Distinct
  | .grid g => g.metadata.Distinct ∧ g.columns.Distinct ∧ (∀ held ∈ g.columns.values, held.Distinct) ∧
      (∀ row ∈ g.rows, row.Distinct) ∧ GridOf.DistinctIds g.rows
  | _ => True

instance : DecidablePred Keyed
  | .dict tags => inferInstanceAs (Decidable tags.Distinct)
  | .grid g => inferInstanceAs (Decidable (g.metadata.Distinct ∧ g.columns.Distinct ∧
      (∀ held ∈ g.columns.values, held.Distinct) ∧ (∀ row ∈ g.rows, row.Distinct) ∧
      GridOf.DistinctIds g.rows))
  | .null | .marker | .na | .remove | .bool _ | .number _ | .str _ | .uri _ | .bin _ | .xstr _
  | .ref _ | .date _ | .time _ | .dateTime _ | .coord _ | .list _ => .isTrue trivial

theorem nearEntity_refl {row : Entity} (distinct : row.Distinct)
    (refl : ∀ part ∈ row.values, near part part = true) : nearEntity row row = true := by
  rw [nearEntity_iff distinct distinct]
  intro key
  cases found : row.get? key with
  | none => simp [Entity.valueOf, found, isNull]
  | some part =>
      rw [Entity.valueOf_eq found]
      exact refl part (OrderedMap.mem_values_of_get? found)

theorem nearMetadata_refl {metadata : Metadata} (distinct : metadata.Distinct)
    (refl : ∀ part ∈ metadata.values, near part part = true) :
    nearMetadata metadata metadata = true := by
  rw [nearMetadata_iff distinct distinct]
  intro key
  cases found : metadata.get? key with
  | none => exact .none
  | some part => exact .some (refl part (OrderedMap.mem_values_of_get? found))

theorem nearColumns_refl {columns : Columns} (distinct : columns.Distinct)
    (refl : ∀ held ∈ columns.values, nearMetadata held held = true) :
    nearColumns columns columns = true := by
  rw [nearColumns_iff distinct distinct]
  intro name
  cases found : columns.get? name with
  | none => exact .none
  | some held => exact .some (refl held (OrderedMap.mem_values_of_get? found))

theorem rowsNear_refl {rows : List Entity}
    (refl : ∀ row ∈ rows, nearEntity row row = true) : RowsNear rows rows := by
  refine ⟨fun name => ?_, rfl, pairsOff_of_forall₂ (List.forall₂_same.mpr fun row member => ?_)⟩
  · cases found : GridOf.rowNamed? name rows with
    | none => exact .none
    | some row => exact .some (refl row (GridOf.mem_of_rowNamed? found).1)
  · exact refl row (GridOf.mem_anonymous.mp member).1

/-- Every value with distinct keys and ids at all depths is near to itself. -/
theorem near_refl (keyed : value.Throughout Keyed) : near value value = true := by
  induction keyed with
  | intro value here inside ih =>
      cases value with
      | number n => simp [near, Binary64.isNear_refl]
      | coord place => simp [near, Binary64.isNear_refl]
      | list items =>
          rw [near, nearList_iff]
          exact List.forall₂_same.mpr ih
      | dict tags => exact nearEntity_refl here ih
      | grid g =>
          obtain ⟨metadataDistinct, columnsDistinct, heldDistinct, rowsDistinct, idsDistinct⟩ := here
          refine (nearGrid_iff idsDistinct idsDistinct).mpr ⟨?_, ?_, ?_⟩
          · exact nearMetadata_refl metadataDistinct fun part member =>
              ih part (GridOf.mem_values_of_metadata member)
          · exact nearColumns_refl columnsDistinct fun held column =>
              nearMetadata_refl (heldDistinct held column) fun part member =>
                ih part (GridOf.mem_values_of_column column member)
          · exact rowsNear_refl fun row inRows =>
              nearEntity_refl (rowsDistinct row inRows) fun part member =>
                ih part (GridOf.mem_values_of_row inRows member)
      | _ => simp [near, sameLeaf]

/-! ## Equivalence by parts -/

section Parts

variable {scope : Value → Prop}

/-- A map with distinct keys whose values a condition holds of. -/
def MapIn {α : Type} (scope : α → Prop) (m : OrderedMap α) : Prop :=
  m.Distinct ∧ ∀ held ∈ m.values, scope held

theorem MapIn.get? {α : Type} {scope : α → Prop} {m : OrderedMap α} (inScope : MapIn scope m)
    {key : String} {held : α} (found : m.get? key = some held) : scope held :=
  inScope.2 held (OrderedMap.mem_values_of_get? found)

theorem agrees_symm {α : Type} {scope : α → Prop} {relates : α → α → Bool}
    (equivalence : EquivalenceOn scope relates) {left right : OrderedMap α}
    (leftIn : MapIn scope left) (rightIn : MapIn scope right)
    (agrees : left.Agrees (fun a b => relates a b = true) right) :
    right.Agrees (fun a b => relates a b = true) left :=
  agrees.symm fun a inLeft b inRight related =>
    equivalence.symm (leftIn.2 a inLeft) (rightIn.2 b inRight) related

theorem agrees_trans {α : Type} {scope : α → Prop} {relates : α → α → Bool}
    (equivalence : EquivalenceOn scope relates) {left middle right : OrderedMap α}
    (leftIn : MapIn scope left) (middleIn : MapIn scope middle) (rightIn : MapIn scope right)
    (first : left.Agrees (fun a b => relates a b = true) middle)
    (second : middle.Agrees (fun a b => relates a b = true) right) :
    left.Agrees (fun a b => relates a b = true) right := by
  intro key
  cases found : left.get? key with
  | none =>
      cases present : right.get? key with
      | none => exact .none
      | some other =>
          obtain ⟨held, there, _⟩ := second.exists_left present
          obtain ⟨value, here, _⟩ := first.exists_left there
          exact nomatch found.symm.trans here
  | some value =>
      obtain ⟨held, there, toMiddle⟩ := first.exists_right found
      obtain ⟨other, present, toRight⟩ := second.exists_right there
      rw [present]
      exact .some (equivalence.trans (leftIn.get? found) (middleIn.get? there)
        (rightIn.get? present) toMiddle toRight)

/-- Nulls are near to nulls only. -/
theorem equivalenceOn_orNull (equivalence : EquivalenceOn scope near) :
    EquivalenceOn (fun value => value = .null ∨ scope value) near where
  refl := by
    rintro a (rfl | aIn)
    · rfl
    · exact equivalence.refl aIn
  symm := by
    rintro a b (rfl | aIn) (rfl | bIn) related
    · exact related
    · simpa using related
    · simpa using related
    · exact equivalence.symm aIn bIn related
  trans := by
    intro a b c aIn bIn cIn first second
    rcases aIn with rfl | aIn
    · obtain rfl : b = .null := by simpa [isNull_iff] using first
      exact second
    rcases bIn with rfl | bIn
    · obtain rfl : a = .null := by simpa [isNull_iff] using first
      exact second
    rcases cIn with rfl | cIn
    · obtain rfl : b = .null := by simpa [isNull_iff] using second
      exact first
    · exact equivalence.trans aIn bIn cIn first second

theorem equivalenceOn_nearEntity (equivalence : EquivalenceOn scope near) :
    EquivalenceOn (MapIn scope) nearEntity := by
  have orNull := equivalenceOn_orNull equivalence
  have inScope {row : Entity} (rowIn : MapIn scope row) (key : String) :
      row.valueOf key = .null ∨ scope (row.valueOf key) := by
    cases found : row.get? key with
    | none => exact .inl (by simp [Entity.valueOf, found])
    | some value => exact .inr (by rw [Entity.valueOf_eq found]; exact rowIn.get? found)
  refine ⟨fun {a} aIn => ?_, fun {a b} aIn bIn related => ?_,
    fun {a b c} aIn bIn cIn first second => ?_⟩
  · rw [nearEntity_iff aIn.1 aIn.1]
    exact fun key => orNull.refl (inScope aIn key)
  · rw [nearEntity_iff aIn.1 bIn.1] at related
    rw [nearEntity_iff bIn.1 aIn.1]
    exact fun key => orNull.symm (inScope aIn key) (inScope bIn key) (related key)
  · rw [nearEntity_iff aIn.1 bIn.1] at first
    rw [nearEntity_iff bIn.1 cIn.1] at second
    rw [nearEntity_iff aIn.1 cIn.1]
    exact fun key => orNull.trans (inScope aIn key) (inScope bIn key) (inScope cIn key)
      (first key) (second key)

theorem equivalenceOn_nearMetadata (equivalence : EquivalenceOn scope near) :
    EquivalenceOn (MapIn scope) nearMetadata := by
  refine ⟨fun {a} aIn => ?_, fun {a b} aIn bIn related => ?_,
    fun {a b c} aIn bIn cIn first second => ?_⟩
  · exact nearMetadata_refl aIn.1 fun part member => equivalence.refl (aIn.2 part member)
  · rw [nearMetadata_iff aIn.1 bIn.1] at related
    rw [nearMetadata_iff bIn.1 aIn.1]
    exact agrees_symm equivalence aIn bIn related
  · rw [nearMetadata_iff aIn.1 bIn.1] at first
    rw [nearMetadata_iff bIn.1 cIn.1] at second
    rw [nearMetadata_iff aIn.1 cIn.1]
    exact agrees_trans equivalence aIn bIn cIn first second

theorem equivalenceOn_nearColumns (equivalence : EquivalenceOn scope near) :
    EquivalenceOn (MapIn (MapIn scope)) nearColumns := by
  have byColumn := equivalenceOn_nearMetadata equivalence
  refine ⟨fun {a} aIn => ?_, fun {a b} aIn bIn related => ?_,
    fun {a b c} aIn bIn cIn first second => ?_⟩
  · exact nearColumns_refl aIn.1 fun held member => byColumn.refl (aIn.2 held member)
  · rw [nearColumns_iff aIn.1 bIn.1] at related
    rw [nearColumns_iff bIn.1 aIn.1]
    exact agrees_symm byColumn aIn bIn related
  · rw [nearColumns_iff aIn.1 bIn.1] at first
    rw [nearColumns_iff bIn.1 cIn.1] at second
    rw [nearColumns_iff aIn.1 cIn.1]
    exact agrees_trans byColumn aIn bIn cIn first second

/-- A grid whose maps have distinct keys and whose rows have distinct ids, with a condition on its
values. -/
structure GridIn (scope : Value → Prop) (grid : Grid) : Prop where
  metadata : MapIn scope grid.metadata
  columns : MapIn (MapIn scope) grid.columns
  rows : ∀ row ∈ grid.rows, MapIn scope row
  ids : GridOf.DistinctIds grid.rows

theorem GridIn.of_values {grid : Grid} (keyed : Keyed (.grid grid))
    (inScope : ∀ part ∈ grid.values, scope part) : GridIn scope grid where
  metadata := ⟨keyed.1, fun part member => inScope part (GridOf.mem_values_of_metadata member)⟩
  columns := ⟨keyed.2.1, fun held column => ⟨keyed.2.2.1 held column, fun part member =>
    inScope part (GridOf.mem_values_of_column column member)⟩⟩
  rows := fun row inRows => ⟨keyed.2.2.2.1 row inRows, fun part member =>
    inScope part (GridOf.mem_values_of_row inRows member)⟩
  ids := keyed.2.2.2.2

section Rows

variable {left middle right : List Entity}

theorem anonymous_in (inScope : ∀ row ∈ left, MapIn scope row) :
    ∀ row ∈ GridOf.anonymous left, MapIn scope row :=
  fun row member => inScope row (GridOf.mem_anonymous.mp member).1

theorem rowsNear_symm (equivalence : EquivalenceOn scope near)
    (leftIn : ∀ row ∈ left, MapIn scope row) (rightIn : ∀ row ∈ right, MapIn scope row)
    (near : RowsNear left right) : RowsNear right left := by
  have byRow := equivalenceOn_nearEntity equivalence
  exact near.symm fun row inLeft other inRight => Bool.eq_iff_iff.mpr
    ⟨byRow.symm (leftIn row inLeft) (rightIn other inRight),
      byRow.symm (rightIn other inRight) (leftIn row inLeft)⟩

theorem rowsNear_trans (equivalence : EquivalenceOn scope near)
    (leftIn : ∀ row ∈ left, MapIn scope row) (middleIn : ∀ row ∈ middle, MapIn scope row)
    (rightIn : ∀ row ∈ right, MapIn scope row)
    (first : RowsNear left middle) (second : RowsNear middle right) : RowsNear left right := by
  have byRow := equivalenceOn_nearEntity equivalence
  refine ⟨fun name => ?_, first.sizes.trans second.sizes, ?_⟩
  · cases found : GridOf.rowNamed? name left with
    | none =>
        cases present : GridOf.rowNamed? name right with
        | none => exact .none
        | some other =>
            obtain ⟨row, there, _⟩ := exists_left_of_rel (second.named name) present
            obtain ⟨_, here, _⟩ := exists_left_of_rel (first.named name) there
            exact nomatch found.symm.trans here
    | some row =>
        obtain ⟨held, there, toMiddle⟩ := exists_right_of_rel (first.named name) found
        obtain ⟨other, present, toRight⟩ := exists_right_of_rel (second.named name) there
        rw [present]
        exact .some (byRow.trans (leftIn _ (GridOf.mem_of_rowNamed? found).1)
          (middleIn _ (GridOf.mem_of_rowNamed? there).1)
          (rightIn _ (GridOf.mem_of_rowNamed? present).1) toMiddle toRight)
  · have toMiddle := (pairsOff_iff_countP_eq byRow (anonymous_in leftIn) (anonymous_in middleIn)
      first.sizes).mp first.paired
    have toRight := (pairsOff_iff_countP_eq byRow (anonymous_in middleIn) (anonymous_in rightIn)
      second.sizes).mp second.paired
    exact (pairsOff_iff_countP_eq byRow (anonymous_in leftIn) (anonymous_in rightIn)
      (first.sizes.trans second.sizes)).mpr fun x xIn => (toMiddle x xIn).trans (toRight x xIn)

end Rows

theorem equivalenceOn_nearGrid (equivalence : EquivalenceOn scope near) :
    EquivalenceOn (GridIn scope) nearGrid := by
  have byMetadata := equivalenceOn_nearMetadata equivalence
  have byColumns := equivalenceOn_nearColumns equivalence
  have byRow := equivalenceOn_nearEntity equivalence
  refine ⟨fun {a} aIn => ?_, fun {a b} aIn bIn related => ?_,
    fun {a b c} aIn bIn cIn first second => ?_⟩
  · exact (nearGrid_iff aIn.ids aIn.ids).mpr ⟨byMetadata.refl aIn.metadata,
      byColumns.refl aIn.columns, rowsNear_refl fun row inRows => byRow.refl (aIn.rows row inRows)⟩
  · obtain ⟨metadata, columns, rows⟩ := (nearGrid_iff aIn.ids bIn.ids).mp related
    exact (nearGrid_iff bIn.ids aIn.ids).mpr ⟨byMetadata.symm aIn.metadata bIn.metadata metadata,
      byColumns.symm aIn.columns bIn.columns columns,
      rowsNear_symm equivalence aIn.rows bIn.rows rows⟩
  · obtain ⟨metadata, columns, rows⟩ := (nearGrid_iff aIn.ids bIn.ids).mp first
    obtain ⟨metadata', columns', rows'⟩ := (nearGrid_iff bIn.ids cIn.ids).mp second
    exact (nearGrid_iff aIn.ids cIn.ids).mpr
      ⟨byMetadata.trans aIn.metadata bIn.metadata cIn.metadata metadata metadata',
      byColumns.trans aIn.columns bIn.columns cIn.columns columns columns',
      rowsNear_trans equivalence aIn.rows bIn.rows cIn.rows rows rows'⟩

end Parts

/-! ## Values without numbers -/

/-- A value that is compared without tolerance. What lies in it is another matter. -/
def Exact : Value → Prop
  | .number _ => False
  | .coord _ => False
  | _ => True

instance : DecidablePred Exact
  | .number _ | .coord _ => .isFalse id
  | .null | .marker | .na | .remove | .bool _ | .str _ | .uri _ | .bin _ | .xstr _ | .ref _
  | .date _ | .time _ | .dateTime _ | .list _ | .dict _ | .grid _ => .isTrue trivial

/-- What equality looks at in a value that is compared without tolerance. -/
def essence : Value → Value
  | .xstr x => .xstr ⟨"", x.data⟩
  | .ref r => .ref ⟨r.name, none⟩
  | .time t => .time ⟨t.second, 0⟩
  | .dateTime d => .dateTime ⟨⟨d.microseconds, 0⟩, .utc⟩
  | value => value

/-- A value of a kind that holds no others. -/
def IsLeaf : Value → Prop
  | .list _ | .dict _ | .grid _ => False
  | _ => True

/-- A value that holds no others is known by its essence. -/
theorem near_iff_essence (exact : a.Exact) (leaf : a.IsLeaf) :
    near a b = true ↔ a.essence = b.essence := by
  cases a <;> cases b <;> simp_all [near, sameLeaf, essence, Exact, IsLeaf]

/-- Values of one kind hold others alike. -/
theorem shapes_of_kind_eq (kinds : a.kind = b.kind) :
    (∃ items others, a = .list items ∧ b = .list others) ∨
    (∃ tags others, a = .dict tags ∧ b = .dict others) ∨
    (∃ g other, a = .grid g ∧ b = .grid other) ∨ (a.IsLeaf ∧ b.IsLeaf) := by
  cases a <;> cases b <;> simp_all [kind, IsLeaf]

theorem shapes_of_near (near : near a b = true) :
    (∃ items others, a = .list items ∧ b = .list others) ∨
    (∃ tags others, a = .dict tags ∧ b = .dict others) ∨
    (∃ g other, a = .grid g ∧ b = .grid other) ∨ (a.IsLeaf ∧ b.IsLeaf) :=
  shapes_of_kind_eq (kind_eq_of_near near)

theorem equivalenceOn_nearList {scope : Value → Prop} (equivalence : EquivalenceOn scope near) :
    EquivalenceOn (fun items => ∀ part ∈ items, scope part) nearList := by
  refine ⟨fun {a} aIn => ?_, fun {a b} aIn bIn related => ?_,
    fun {a b c} aIn bIn cIn first second => ?_⟩
  · exact nearList_iff.mpr (List.forall₂_same.mpr fun part member => equivalence.refl (aIn part member))
  · rw [nearList_iff] at related ⊢
    induction related with
    | nil => exact .nil
    | cons here _ ih =>
        rw [List.forall_mem_cons] at aIn bIn
        exact .cons (equivalence.symm aIn.1 bIn.1 here) (ih aIn.2 bIn.2)
  · rw [nearList_iff] at first second ⊢
    induction first generalizing c with
    | nil => exact second
    | cons here _ ih =>
        cases second with
        | cons there rest =>
            rw [List.forall_mem_cons] at aIn bIn cIn
            exact .cons (equivalence.trans aIn.1 bIn.1 cIn.1 here there) (ih aIn.2 bIn.2 cIn.2 rest)

/-- If equality is an equivalence among the parts of exact values, it is one among these. -/
theorem equivalenceOn_near_of_parts {scope : Value → Prop} (equivalence : EquivalenceOn scope near) :
    EquivalenceOn (fun v => v.Exact ∧ v.Keyed ∧ ∀ part ∈ v.children, scope part) near := by
  have byList := equivalenceOn_nearList equivalence
  have byDict := equivalenceOn_nearEntity equivalence
  have byGrid := equivalenceOn_nearGrid equivalence
  refine ⟨fun {a} aIn => ?_, fun {a b} aIn bIn related => ?_,
    fun {a b c} aIn bIn cIn first second => ?_⟩
  · cases a with
    | list items => exact byList.refl aIn.2.2
    | dict tags => exact byDict.refl ⟨aIn.2.1, aIn.2.2⟩
    | grid g => exact byGrid.refl (.of_values aIn.2.1 aIn.2.2)
    | _ => exact (near_iff_essence aIn.1 trivial).mpr rfl
  · rcases shapes_of_near related with ⟨items, others, rfl, rfl⟩ | ⟨tags, others, rfl, rfl⟩ |
      ⟨g, other, rfl, rfl⟩ | ⟨aLeaf, bLeaf⟩
    · exact byList.symm aIn.2.2 bIn.2.2 related
    · exact byDict.symm ⟨aIn.2.1, aIn.2.2⟩ ⟨bIn.2.1, bIn.2.2⟩ related
    · exact byGrid.symm (.of_values aIn.2.1 aIn.2.2) (.of_values bIn.2.1 bIn.2.2) related
    · exact (near_iff_essence bIn.1 bLeaf).mpr ((near_iff_essence aIn.1 aLeaf).mp related).symm
  · have onward := shapes_of_near second
    rcases shapes_of_near first with ⟨items, others, rfl, rfl⟩ | ⟨tags, others, rfl, rfl⟩ |
      ⟨g, other, rfl, rfl⟩ | ⟨aLeaf, bLeaf⟩
    · obtain ⟨last, rfl⟩ : ∃ last, c = .list last := by simpa [IsLeaf] using onward
      exact byList.trans aIn.2.2 bIn.2.2 cIn.2.2 first second
    · obtain ⟨last, rfl⟩ : ∃ last, c = .dict last := by simpa [IsLeaf] using onward
      exact byDict.trans ⟨aIn.2.1, aIn.2.2⟩ ⟨bIn.2.1, bIn.2.2⟩ ⟨cIn.2.1, cIn.2.2⟩ first second
    · obtain ⟨last, rfl⟩ : ∃ last, c = .grid last := by simpa [IsLeaf] using onward
      exact byGrid.trans (.of_values aIn.2.1 aIn.2.2) (.of_values bIn.2.1 bIn.2.2)
        (.of_values cIn.2.1 cIn.2.2) first second
    · exact (near_iff_essence aIn.1 aLeaf).mpr (((near_iff_essence aIn.1 aLeaf).mp first).trans
        ((near_iff_essence bIn.1 bLeaf).mp second))

/-- A value without numbers and coordinates at any depth, and with distinct keys and ids. -/
def ExactThroughout (value : Value) : Prop :=
  value.Throughout Exact ∧ value.Throughout Keyed

theorem equivalenceOn_near_bounded (bound : Nat) :
    EquivalenceOn (fun v => sizeOf v ≤ bound ∧ v.ExactThroughout) near := by
  induction bound with
  | zero =>
      have none {v : Value} (small : sizeOf v ≤ 0) : False := by
        cases v <;> simp at small
      exact ⟨fun aIn => (none aIn.1).elim, fun aIn => (none aIn.1).elim,
        fun aIn => (none aIn.1).elim⟩
  | succ bound ih =>
      refine (equivalenceOn_near_of_parts ih).mono fun v ⟨small, exact, keyed⟩ =>
        ⟨exact.here, keyed.here, fun part member => ?_⟩
      have smaller := sizeOf_lt_of_mem_children member
      exact ⟨by omega, exact.inside member, keyed.inside member⟩

/-- Among values without numbers and coordinates, being near is an equivalence. -/
theorem equivalenceOn_near : EquivalenceOn ExactThroughout near where
  refl := fun aIn => near_refl aIn.2
  symm := fun {a b} aIn bIn =>
    (equivalenceOn_near_bounded (sizeOf a + sizeOf b)).symm ⟨by omega, aIn⟩ ⟨by omega, bIn⟩
  trans := fun {a b c} aIn bIn cIn =>
    (equivalenceOn_near_bounded (sizeOf a + sizeOf b + sizeOf c)).trans
      ⟨by omega, aIn⟩ ⟨by omega, bIn⟩ ⟨by omega, cIn⟩

end Value

end Haystack
