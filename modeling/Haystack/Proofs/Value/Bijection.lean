import Haystack.Proofs.Value.Symmetry

/-!
Near grids without numbers, said without a search.

Rows are found by their ids or taken from those that are pending, yet what comes out is a bijection:
where nothing is compared with a tolerance, the first row that will do is as good as any other. So
equality does not see in which order rows, columns and keys stand.
-/
namespace Haystack

open Pairing

namespace OrderedMap

variable {α β : Type} {relates related : α → β → Prop} {left : OrderedMap α} {right : OrderedMap β}

theorem Agrees.imp (agrees : left.Agrees relates right)
    (implies : ∀ a ∈ left.values, ∀ b ∈ right.values, relates a b → related a b) :
    left.Agrees related right := by
  have turned : right.Agrees (fun b a => related a b) left := agrees.symm implies
  exact turned.symm fun _ _ _ _ => id

theorem distinct_iff_of_perm {m other : OrderedMap α} (reordered : m.items.Perm other.items) :
    m.Distinct ↔ other.Distinct :=
  (reordered.map Prod.fst).nodup_iff

theorem values_perm {m other : OrderedMap α} (reordered : m.items.Perm other.items) :
    m.values.Perm other.values :=
  reordered.map Prod.snd

theorem get?_of_perm {m other : OrderedMap α} (distinct : m.Distinct)
    (reordered : m.items.Perm other.items) (key : String) : m.get? key = other.get? key := by
  apply Option.ext
  intro value
  rw [get?_eq_some_iff distinct, get?_eq_some_iff ((distinct_iff_of_perm reordered).mp distinct),
    reordered.mem_iff]

end OrderedMap

namespace GridOf

variable {name : String} {row : Entity} {rows other : List Entity}

/-- The rows that an id is known of. -/
def known (rows : List Entity) : List Entity := rows.filter fun row => row.id?.isSome

theorem known_append_anonymous_perm (rows : List Entity) :
    (known rows ++ anonymous rows).Perm rows := by
  have anonymous_eq : anonymous rows = rows.filter fun row => !row.id?.isSome := by
    simp only [anonymous, Option.not_isSome]
  rw [anonymous_eq]
  exact List.filter_append_perm _ rows

/-- Where ids are distinct their look-up brings back the rows that have one, in order. -/
theorem filterMap_rowNamed? (distinct : DistinctIds rows) :
    (idNames rows).filterMap (rowNamed? · rows) = known rows := by
  rw [known, ← List.filterMap_eq_filter, idNames, List.filterMap_filterMap]
  refine List.filterMap_congr fun row inRows => ?_
  cases named : row.id? with
  | none => simp [Entity.id?_eq_none_iff.mp named, Option.guard, named]
  | some id =>
      have isNamed := Entity.name?_of_id? named
      simp [isNamed, (rowNamed?_eq_some_iff distinct).mpr ⟨inRows, isNamed⟩, Option.guard, named]

end GridOf

namespace Value

open GridOf

variable {scope : Value → Prop} {left right rows : List Entity}

/-! ## Rows -/

/-- A row for a row, until no row is left on either side. -/
def RowsMatch (left right : List Entity) : Prop :=
  ∃ partners, partners.Perm right ∧
    List.Forall₂ (fun row other => nearEntity row other = true) left partners

theorem rowsMatch_known (near : RowsNear left right) (leftDistinct : DistinctIds left)
    (rightDistinct : DistinctIds right) : RowsMatch (known left) (known right) := by
  have sameNames : (idNames left).Perm (idNames right) :=
    (List.perm_ext_iff_of_nodup leftDistinct rightDistinct).mpr fun name => near.mem_idNames_iff
  refine ⟨(idNames left).filterMap (rowNamed? · right), ?_, ?_⟩
  · rw [← filterMap_rowNamed? rightDistinct]
    exact sameNames.filterMap _
  · rw [← filterMap_rowNamed? leftDistinct]
    exact List.rel_filterMap (fun name _ same => same ▸ near.named name)
      (List.forall₂_same.mpr fun _ _ => rfl)

theorem rowsMatch_anonymous (near : RowsNear left right) :
    RowsMatch (anonymous left) (anonymous right) := by
  obtain ⟨partners, spare, reordered, related⟩ := exists_perm_of_pairsOff near.paired
  have none : spare = [] := by
    have total := reordered.length_eq
    rw [List.length_append, ← related.length_eq, near.sizes] at total
    exact List.length_eq_zero_iff.mp (by omega)
  rw [none, List.append_nil] at reordered
  exact ⟨partners, reordered, related⟩

theorem RowsMatch.append {more others : List Entity} (first : RowsMatch left right)
    (second : RowsMatch more others) : RowsMatch (left ++ more) (right ++ others) := by
  obtain ⟨partners, reordered, related⟩ := first
  obtain ⟨further, reorderedToo, relatedToo⟩ := second
  exact ⟨partners ++ further, reordered.append reorderedToo, List.rel_append related relatedToo⟩

theorem RowsMatch.of_perm {leftRows rightRows : List Entity} (rowsMatch : RowsMatch left right)
    (reordered : left.Perm leftRows) (reorderedToo : right.Perm rightRows) :
    RowsMatch leftRows rightRows := by
  obtain ⟨partners, toRight, related⟩ := rowsMatch
  obtain ⟨moved, movedRelated, toPartners⟩ := List.perm_comp_forall₂ reordered.symm related
  exact ⟨moved, toPartners.trans (toRight.trans reorderedToo), movedRelated⟩

/-- Near rows match: those with an id by their names, the others as they were paired. -/
theorem RowsNear.rowsMatch (near : RowsNear left right) (leftDistinct : DistinctIds left)
    (rightDistinct : DistinctIds right) : RowsMatch left right :=
  ((rowsMatch_known near leftDistinct rightDistinct).append (rowsMatch_anonymous near)).of_perm
    (known_append_anonymous_perm left) (known_append_anonymous_perm right)

section Equivalent

variable (equivalence : EquivalenceOn scope near)
include equivalence

theorem rowsNear_of_perm (inScope : ∀ row ∈ left, MapIn scope row) (distinct : DistinctIds left)
    (reordered : left.Perm right) : RowsNear left right := by
  have byRow := equivalenceOn_nearEntity equivalence
  have anonymousReordered : (anonymous left).Perm (anonymous right) := reordered.filter _
  refine ⟨fun name => ?_, anonymousReordered.length_eq, ?_⟩
  · rw [← rowNamed?_of_perm distinct reordered]
    cases found : rowNamed? name left with
    | none => exact .none
    | some row => exact .some (byRow.refl (inScope row (mem_of_rowNamed? found).1))
  · have otherIn : ∀ row ∈ right, MapIn scope row := fun row inRight =>
      inScope row (reordered.mem_iff.mpr inRight)
    exact (pairsOff_iff_countP_eq byRow (anonymous_in inScope) (anonymous_in otherIn)
      anonymousReordered.length_eq).mpr fun x _ => anonymousReordered.countP_eq _

/-- Rows that match are near, whichever partners there are: near rows have the same name, and of
those without one each class is as large on either side. -/
theorem rowsNear_iff_rowsMatch (leftIn : ∀ row ∈ left, MapIn scope row)
    (rightIn : ∀ row ∈ right, MapIn scope row) (leftDistinct : DistinctIds left)
    (rightDistinct : DistinctIds right) : RowsNear left right ↔ RowsMatch left right := by
  refine ⟨(·.rowsMatch leftDistinct rightDistinct), fun ⟨partners, reordered, related⟩ => ?_⟩
  have partnersIn : ∀ row ∈ partners, MapIn scope row := fun row inPartners =>
    rightIn row (reordered.mem_iff.mp inPartners)
  have partnersDistinct := (distinctIds_iff_of_perm reordered).mpr rightDistinct
  have alike : List.Forall₂ (fun a b => nearEntity a b = true ∧ a.name? = b.name?) left partners :=
    forall₂_imp_of_mem related fun row inLeft other inPartners near =>
      ⟨near, name?_eq_of_nearEntity (leftIn row inLeft).1 (partnersIn other inPartners).1 near⟩
  have toPartners := (rowsNear_of_forall₂ alike partnersDistinct).2
  have toRight := rowsNear_of_perm equivalence partnersIn partnersDistinct reordered
  exact rowsNear_trans equivalence leftIn partnersIn rightIn toPartners toRight

end Equivalent

theorem rowsMatch_iff (leftDistinct : ∀ row ∈ left, row.Distinct)
    (rightDistinct : ∀ row ∈ right, row.Distinct) : RowsMatch left right ↔
      ∃ partners, partners.Perm right ∧ List.Forall₂ (fun row other => ∀ key,
        near (Entity.valueOf row key) (Entity.valueOf other key) = true) left partners := by
  refine exists_congr fun partners => and_congr_right fun reordered => ?_
  have byKeys : ∀ row ∈ left, ∀ other ∈ partners, (nearEntity row other = true ↔
      ∀ key, near (Entity.valueOf row key) (Entity.valueOf other key) = true) :=
    fun row inLeft other inPartners => nearEntity_iff (leftDistinct row inLeft)
      (rightDistinct other (reordered.mem_iff.mp inPartners))
  constructor
  · exact fun related => forall₂_imp_of_mem related fun row inLeft other inPartners =>
      (byKeys row inLeft other inPartners).mp
  · exact fun related => forall₂_imp_of_mem related fun row inLeft other inPartners =>
      (byKeys row inLeft other inPartners).mpr

theorem nearColumns_iff_agreesNear {columns others : Columns} (inScope : MapIn (MapIn scope) columns)
    (otherIn : MapIn (MapIn scope) others) :
    nearColumns columns others = true ↔ columns.Agrees OrderedMap.AgreesNear others := by
  rw [nearColumns_iff inScope.1 otherIn.1]
  constructor
  · exact fun agrees => agrees.imp fun held inColumns other inOthers =>
      (nearMetadata_iff (inScope.2 held inColumns).1 (otherIn.2 other inOthers).1).mp
  · exact fun agrees => agrees.imp fun held inColumns other inOthers =>
      (nearMetadata_iff (inScope.2 held inColumns).1 (otherIn.2 other inOthers).1).mpr

/-! ## Rearrangement -/

theorem nearMetadata_of_perm {held other : Metadata} (equivalence : EquivalenceOn scope near)
    (inScope : MapIn scope held) (reordered : held.items.Perm other.items) :
    nearMetadata held other = true := by
  have otherDistinct := (OrderedMap.distinct_iff_of_perm reordered).mp inScope.1
  rw [nearMetadata_iff inScope.1 otherDistinct]
  intro key
  rw [← OrderedMap.get?_of_perm inScope.1 reordered]
  cases found : held.get? key with
  | none => exact .none
  | some value => exact .some (equivalence.refl (inScope.get? found))

theorem nearEntity_of_perm {row other : Entity} (equivalence : EquivalenceOn scope near)
    (inScope : MapIn scope row) (reordered : row.items.Perm other.items) :
    nearEntity row other = true := by
  have otherDistinct := (OrderedMap.distinct_iff_of_perm reordered).mp inScope.1
  refine nearEntity_of_agrees inScope.1 otherDistinct ?_
  exact (nearMetadata_iff inScope.1 otherDistinct).mp
    (nearMetadata_of_perm equivalence inScope reordered)

end Value

namespace GridOf

open Value

/-- The same grid but for the order of its rows, its columns and all keys, and for its version. -/
structure Rearranges (g h : Grid) : Prop where
  metadata : g.metadata.items.Perm h.metadata.items
  columns : ∃ columns : Columns, columns.items.Perm h.columns.items ∧
    List.Forall₂ (fun a b => a.1 = b.1 ∧ a.2.items.Perm b.2.items) g.columns.items columns.items
  rows : ∃ rows, rows.Perm h.rows ∧ List.Forall₂ (fun a b => a.items.Perm b.items) g.rows rows

variable {g h : Grid} {scope : Value → Prop}

theorem Rearranges.nearColumns (rearranges : Rearranges g h) (equivalence : EquivalenceOn scope Value.near)
    (inScope : GridIn scope g) (otherIn : GridIn scope h) :
    Value.nearColumns g.columns h.columns = true := by
  obtain ⟨columns, reordered, related⟩ := rearranges.columns
  have distinct := (OrderedMap.distinct_iff_of_perm reordered).mpr otherIn.columns.1
  have agrees : (⟨g.columns.items⟩ : Columns).Agrees (fun a b => nearMetadata a b = true) columns :=
    OrderedMap.agrees_of_forall₂ <| forall₂_imp_of_mem related fun item inColumns _ _ same =>
      ⟨same.1, nearMetadata_of_perm equivalence
        (inScope.columns.2 item.2 (OrderedMap.mem_values_of_mem inColumns)) same.2⟩
  rw [nearColumns_iff inScope.columns.1 otherIn.columns.1]
  intro key
  rw [← OrderedMap.get?_of_perm distinct reordered]
  exact agrees key

theorem Rearranges.rowsNear (rearranges : Rearranges g h) (equivalence : EquivalenceOn scope Value.near)
    (inScope : GridIn scope g) (otherIn : GridIn scope h) : RowsNear g.rows h.rows := by
  obtain ⟨rows, reordered, related⟩ := rearranges.rows
  refine (rowsNear_iff_rowsMatch equivalence inScope.rows otherIn.rows inScope.ids otherIn.ids).mpr
    ⟨rows, reordered, forall₂_imp_of_mem related fun row inRows _ _ same => ?_⟩
  exact nearEntity_of_perm equivalence (inScope.rows row inRows) same

theorem Rearranges.near (rearranges : Rearranges g h) (equivalence : EquivalenceOn scope Value.near)
    (inScope : GridIn scope g) (otherIn : GridIn scope h) : g.near h = true :=
  (nearGrid_iff inScope.ids otherIn.ids).mpr
    ⟨nearMetadata_of_perm equivalence inScope.metadata rearranges.metadata,
      rearranges.nearColumns equivalence inScope otherIn, rearranges.rowsNear equivalence inScope otherIn⟩

/-! ## Grids -/

/-- Without numbers and coordinates, and with distinct keys and ids, at all depths. -/
abbrev ExactThroughout (grid : Grid) : Prop := Value.ExactThroughout (.grid grid)

theorem ExactThroughout.gridIn (exact : g.ExactThroughout) : GridIn Value.ExactThroughout g :=
  .of_values exact.2.here fun _ member => ⟨exact.1.inside member, exact.2.inside member⟩

/-- Metadata agree key by key, columns name by name, and the rows correspond one to one, absent tags
being nulls. -/
theorem near_iff (exact : g.ExactThroughout) (otherExact : h.ExactThroughout) :
    g.near h = true ↔ g.metadata.AgreesNear h.metadata ∧
      g.columns.Agrees OrderedMap.AgreesNear h.columns ∧
      ∃ partners, partners.Perm h.rows ∧ List.Forall₂ (fun row other => ∀ key,
        Value.near (Entity.valueOf row key) (Entity.valueOf other key) = true) g.rows partners := by
  have inScope := exact.gridIn
  have otherIn := otherExact.gridIn
  rw [near, nearGrid_iff inScope.ids otherIn.ids,
    nearMetadata_iff inScope.metadata.1 otherIn.metadata.1,
    nearColumns_iff_agreesNear inScope.columns otherIn.columns,
    rowsNear_iff_rowsMatch equivalenceOn_near inScope.rows otherIn.rows inScope.ids otherIn.ids,
    rowsMatch_iff (fun row inRows => (inScope.rows row inRows).1)
      fun row inRows => (otherIn.rows row inRows).1]

theorem equivalenceOn_near_exact : EquivalenceOn ExactThroughout GridOf.near where
  refl := fun exact => equivalenceOn_near.refl exact
  symm := fun exact otherExact => equivalenceOn_near.symm exact otherExact
  trans := fun exact otherExact thirdExact => equivalenceOn_near.trans exact otherExact thirdExact

theorem near_of_rearranges (exact : g.ExactThroughout) (otherExact : h.ExactThroughout)
    (rearranges : g.Rearranges h) : g.near h = true :=
  rearranges.near equivalenceOn_near exact.gridIn otherExact.gridIn

/-- Grids are near exactly if their rows correspond one to one, with metadata and columns that agree;
nearness is an equivalence, and sees nothing of a rearrangement. -/
theorem near_iff_one_to_one (exact : g.ExactThroughout) (otherExact : h.ExactThroughout) :
    (g.near h = true ↔ g.metadata.AgreesNear h.metadata ∧
      g.columns.Agrees OrderedMap.AgreesNear h.columns ∧
      ∃ partners, partners.Perm h.rows ∧ List.Forall₂ (fun row other => ∀ key,
        Value.near (Entity.valueOf row key) (Entity.valueOf other key) = true) g.rows partners) ∧
    EquivalenceOn ExactThroughout GridOf.near ∧
    ∀ rearranged, ExactThroughout rearranged → g.Rearranges rearranged →
      g.near h = rearranged.near h ∧ h.near g = h.near rearranged := by
  refine ⟨near_iff exact otherExact, equivalenceOn_near_exact,
    fun rearranged thirdExact rearranges => ?_⟩
  have toThird := near_of_rearranges exact thirdExact rearranges
  have fromOther : h.near g = h.near rearranged :=
    equivalenceOn_near_exact.respects otherExact g rearranged exact thirdExact toThird
  refine ⟨?_, fromOther⟩
  calc g.near h
    _ = h.near g := near_comm exact.2 otherExact.2
    _ = h.near rearranged := fromOther
    _ = rearranged.near h := near_comm otherExact.2 thirdExact.2

/-- A building and its floors, one of them without an id, and what is on it. -/
def building : Grid where
  version := .three
  pinned := false
  metadata := ⟨[("dis", .str "Building"), ("tags", .list [.marker, .uri "a"])]⟩
  columns := ⟨[("id", .empty), ("floor", ⟨[("doc", .str "no"), ("hidden", .marker)]⟩)]⟩
  rows := [
    ⟨[("id", .ref ⟨"f1", none⟩), ("floor", .str "1")]⟩,
    ⟨[("floor", .str "2"), ("rooms", .grid { GridOf.new with rows := [⟨[("id", .ref ⟨"f1", none⟩)]⟩] })]⟩,
    ⟨[("floor", .str "2"), ("rooms", .null)]⟩]

/-- The same, its rows, columns and keys in another order. -/
def buildingRearranged : Grid where
  version := .two
  pinned := true
  metadata := ⟨[("tags", .list [.marker, .uri "a"]), ("dis", .str "Building")]⟩
  columns := ⟨[("floor", ⟨[("hidden", .marker), ("doc", .str "no")]⟩), ("id", .empty)]⟩
  rows := [
    ⟨[("rooms", .null), ("floor", .str "2")]⟩,
    ⟨[("floor", .str "2"), ("rooms", .grid { GridOf.new with rows := [⟨[("id", .ref ⟨"f1", none⟩)]⟩] })]⟩,
    ⟨[("floor", .str "1"), ("id", .ref ⟨"f1", none⟩)]⟩]

theorem building_rearranges : building.Rearranges buildingRearranged where
  metadata := .swap _ _ _
  columns := ⟨⟨buildingRearranged.columns.items.reverse⟩, List.reverse_perm _,
    .cons ⟨rfl, .refl _⟩ (.cons ⟨rfl, .swap _ _ _⟩ .nil)⟩
  rows := ⟨buildingRearranged.rows.reverse, List.reverse_perm _,
    .cons (.swap _ _ _) (.cons (.refl _) (.cons (.swap _ _ _) .nil))⟩

theorem near_iff_one_to_one_building : building.ExactThroughout ∧ buildingRearranged.ExactThroughout ∧
    building.near buildingRearranged = true ∧ building.metadata.AgreesNear buildingRearranged.metadata ∧
    building.near building = buildingRearranged.near building := by
  have within : holdsWithin Exact 4 (.grid building) = true ∧ holdsWithin Keyed 4 (.grid building) = true ∧
      holdsWithin Exact 4 (.grid buildingRearranged) = true ∧
      holdsWithin Keyed 4 (.grid buildingRearranged) = true := by decide
  have exact : building.ExactThroughout :=
    ⟨throughout_of_holdsWithin within.1, throughout_of_holdsWithin within.2.1⟩
  have otherExact : buildingRearranged.ExactThroughout :=
    ⟨throughout_of_holdsWithin within.2.2.1, throughout_of_holdsWithin within.2.2.2⟩
  have near : building.near buildingRearranged = true := by decide
  exact ⟨exact, otherExact, near, ((near_iff_one_to_one exact otherExact).1.mp near).1,
    ((near_iff_one_to_one exact exact).2.2 _ otherExact building_rearranges).1⟩

end GridOf

end Haystack
