import Haystack.Proofs.Grid.Pairs
import Haystack.Proofs.Grid.Rows
import Haystack.Proofs.Value.Bijection

/-!
The difference from a grid to its rearrangement is empty.

A row with an id is found under its name, with the same tags. The rows without one are paired as they
come; each class of near rows has as many of them on the right as are still to come on the left, so
that a partner is always there, and in the end none is left over.
-/
namespace Haystack

open Pairing Value

namespace OrderedMap

variable {left right : OrderedMap Value}

/-- Nothing changes between maps that differ in the order of their keys. -/
theorem changes_of_perm (distinct : left.Distinct) (reordered : left.items.Perm right.items)
    (refl : ∀ value ∈ left.values, near value value = true) : left.changes right = .empty := by
  have rightDistinct := (distinct_iff_of_perm reordered).mp distinct
  have held : ∀ item ∈ right.items, ¬ (!left.holdsNear item.1 item.2) = true := by
    intro item member
    have inLeft := reordered.mem_iff.mpr member
    have holds : left.holdsNear item.1 item.2 = true := holdsNear_iff.mpr
      ⟨item.2, (get?_eq_some_iff distinct).mpr inLeft, refl item.2 (mem_values_of_mem inLeft)⟩
    simp [holds]
  have kept : ∀ key ∈ left.keys, ¬ (!right.contains key) = true := by
    intro key member
    have present := contains_eq_true_iff.mpr ((reordered.map Prod.fst).mem_iff.mp member)
    simpa using present
  rw [changes_eq distinct rightDistinct, List.filter_eq_nil_iff.mpr held,
    List.filter_eq_nil_iff.mpr kept]
  rfl

end OrderedMap

namespace GridOf

open OrderedMap

/-! ## Rows -/

section Rows

variable {right : Grid} {rows partners : List Entity} {row other : Entity} {paired : Paired}
  {scope : Entity → Prop}

/-- Rows of which each finds its partner give nothing, and leave over no row without an id. -/
theorem differenceOfRows_of_partners (equivalence : EquivalenceOn scope nearEntity)
    (leftIn : ∀ row ∈ anonymous rows, scope row) (rightIn : ∀ row ∈ anonymous right.rows, scope row)
    (isRef : ∀ row ∈ right.rows, Entity.id? row = none → row.contains "id" = false)
    (known : ∀ row ∈ rows, ∀ id, row.id? = some id →
      ∃ other, rowNamed? id.name right.rows = some other ∧ row.changes other = .empty)
    (counts : ∀ property, Respects scope nearEntity property →
      (anonymous (unpaired right.rows paired)).countP property = (anonymous rows).countP property) :
    (differenceOfRows right paired rows).1 = [] ∧
      anonymous (unpaired right.rows (differenceOfRows right paired rows).2) = [] := by
  induction rows generalizing paired with
  | nil =>
      have none := counts (fun _ => true) fun _ _ _ _ _ => rfl
      simp only [List.countP_true] at none
      exact ⟨rfl, List.length_eq_zero_iff.mp none⟩
  | cons row rest ih =>
      rw [List.forall_mem_cons] at known
      change (differenceOfRow right paired row).1 ++
          (differenceOfRows right (differenceOfRow right paired row).2 rest).1 = [] ∧
        anonymous (unpaired right.rows
          (differenceOfRows right (differenceOfRow right paired row).2 rest).2) = []
      cases isId : row.id? with
      | some id =>
          obtain ⟨other, named, unchanged⟩ := known.1 id isId
          obtain ⟨position, found, there⟩ := Option.bind_eq_some_iff.mp named
          have foundRow : right.positionOf? id = some position := found
          have gives : differenceOfRow right paired row = ([], position :: paired) := by
            simp [differenceOfRow, isId, foundRow, there, unchanged, OrderedMap.isEmpty]
          rw [anonymous_cons_known isId] at leftIn counts
          obtain ⟨otherId, isOther, _⟩ := Option.map_eq_some_iff.mp (mem_of_rowNamed? named).2
          rw [gives, List.nil_append]
          refine ih leftIn known.2 fun property respects => ?_
          rw [countP_anonymous_unpaired_known there (by simp [isOther]), counts property respects]
      | none =>
          rw [anonymous_cons_anonymous isId] at leftIn counts
          rw [List.forall_mem_cons] at leftIn
          -- The class of the row is not empty on the left, so it is not on the right.
          have some : 0 < (anonymous (unpaired right.rows paired)).countP (nearEntity row) := by
            rw [counts _ (equivalence.respects leftIn.1),
              List.countP_cons_of_pos (equivalence.refl leftIn.1)]
            omega
          obtain ⟨candidate, leftOver, near⟩ := List.countP_pos_iff.mp some
          obtain ⟨inUnpaired, unknown⟩ := mem_anonymous.mp leftOver
          obtain ⟨position, found⟩ := exists_partnerOf? inUnpaired
            (isRef candidate (mem_of_mem_unpaired inUnpaired) unknown) near
          obtain ⟨partner, there, free, partnerUnknown, nearPartner⟩ := partnerOf?_spec found
          have gives : differenceOfRow right paired row = ([], position :: paired) := by
            simp [differenceOfRow, isId, found]
          rw [gives, List.nil_append]
          refine ih leftIn.2 known.2 fun property respects => ?_
          have partnerIn := rightIn partner
            (mem_anonymous.mpr ⟨List.mem_of_getElem? there, partnerUnknown⟩)
          have alike := respects row partner leftIn.1 partnerIn nearPartner
          have before := counts property respects
          rw [countP_anonymous_unpaired_cons there free, List.countP_cons, alike] at before
          simpa [partnerUnknown] using before

theorem id?_of_perm (distinct : row.Distinct) (reordered : row.items.Perm other.items) :
    row.id? = other.id? := by
  rw [Entity.id?, Entity.id?, get?_of_perm distinct reordered]

/-- Of rows with reordered keys the same have no id, and they are of the same classes. -/
theorem countP_anonymous_of_forall₂ (distinct : ∀ row ∈ rows, row.Distinct)
    (rowsIn : ∀ row ∈ anonymous rows, MapIn Value.ExactThroughout row)
    (related : List.Forall₂ (fun a b => a.items.Perm b.items) rows partners)
    {property : Entity → Bool} (respects : Respects (MapIn Value.ExactThroughout) nearEntity property) :
    (anonymous rows).countP property = (anonymous partners).countP property := by
  rw [anonymous, anonymous, List.countP_filter, List.countP_filter]
  refine countP_eq_of_forall₂ (forall₂_imp_of_mem related fun row inRows partner _ reordered => ?_)
  have sameId := id?_of_perm (distinct row inRows) reordered
  cases isId : row.id? with
  | some id => simp [isId, ← sameId]
  | none =>
      have rowIn := rowsIn row (mem_anonymous.mpr ⟨inRows, isId⟩)
      have partnerIn : MapIn Value.ExactThroughout partner :=
        ⟨(distinct_iff_of_perm reordered).mp rowIn.1, fun held member =>
          rowIn.2 held ((values_perm reordered).mem_iff.mpr member)⟩
      simp [← sameId, isId, respects row partner rowIn partnerIn
        (nearEntity_of_perm equivalenceOn_near rowIn reordered)]

end Rows

/-! ## Grids -/

/-- A grid with distinct keys and ids at all depths, in which an id is always a reference and a row
without one holds no number and no coordinate. -/
structure Referenced (grid : Grid) : Prop where
  keyed : grid.Throughout Keyed
  ids : ∀ row ∈ grid.rows, Entity.id? row = none → row.contains "id" = false
  exact : ∀ row ∈ grid.rows, Entity.id? row = none → ∀ part ∈ row.values, part.Throughout Exact

section Grids

variable {g h : Grid}

theorem Referenced.near_refl (referenced : g.Referenced) :
    ∀ part ∈ g.values, Value.near part part = true :=
  fun _ member => Value.near_refl (referenced.keyed.inside member)

theorem differenceMetadata_of_rearranges (referenced : g.Referenced) (rearranges : g.Rearranges h) :
    differenceMetadata g.metadata h.metadata = ⟨[(differenceKey, .marker)]⟩ := by
  rw [differenceMetadata, changes_of_perm referenced.keyed.here.1 rearranges.metadata
    fun part member => referenced.near_refl part (mem_values_of_metadata member)]
  rfl

theorem differenceColumns_of_rearranges (referenced : g.Referenced) (rearranges : g.Rearranges h) :
    differenceColumns g.columns h.columns = ⟨h.columns.items.map fun item => (item.1, .empty)⟩ := by
  obtain ⟨columns, reordered, related⟩ := rearranges.columns
  have distinct := referenced.keyed.here.2.1
  have names : g.columns.keys = columns.keys :=
    @keys_eq_of_forall₂ _ _ (fun a b => a.items.Perm b.items) _ _ related
  have columnsDistinct : columns.Distinct := by rwa [Distinct, ← names]
  have otherDistinct := (distinct_iff_of_perm reordered).mp columnsDistinct
  have agrees : g.columns.Agrees (fun a b => a.items.Perm b.items) h.columns := by
    intro key
    rw [← get?_of_perm columnsDistinct reordered]
    exact agrees_of_forall₂ related key
  have unchanged : ∀ item ∈ h.columns.items, changesOfColumn g.columns item = .empty := by
    intro item member
    obtain ⟨held, found, same⟩ := agrees.exists_left ((get?_eq_some_iff otherDistinct).mpr member)
    have inColumns := mem_values_of_get? found
    unfold changesOfColumn
    rw [found]
    exact changes_of_perm (referenced.keyed.here.2.2.1 held inColumns) same fun part inside =>
      referenced.near_refl part (mem_values_of_column inColumns inside)
  have kept : ∀ name ∈ g.columns.keys, ¬ (!h.columns.contains name) = true := by
    intro name member
    simpa using contains_eq_true_iff.mpr (agrees.mem_keys_iff.mp member)
  rw [differenceColumns_eq distinct otherDistinct, List.filter_eq_nil_iff.mpr kept, List.map_nil,
    List.append_nil]
  exact congrArg OrderedMap.mk (List.map_congr_left fun item member => by rw [unchanged item member])

theorem Referenced.distinct (referenced : g.Referenced) : ∀ row ∈ g.rows, row.Distinct :=
  referenced.keyed.here.2.2.2.1

theorem Referenced.mapIn (referenced : g.Referenced) :
    ∀ row ∈ anonymous g.rows, MapIn Value.ExactThroughout row := by
  intro row member
  obtain ⟨inRows, unknown⟩ := mem_anonymous.mp member
  exact ⟨referenced.distinct row inRows, fun part inside =>
    ⟨referenced.exact row inRows unknown part inside,
      referenced.keyed.inside (mem_values_of_row inRows inside)⟩⟩

/-- The names of the rows are the same, in another order. -/
theorem Rearranges.idNames_perm (rearranges : g.Rearranges h)
    (distinct : ∀ row ∈ g.rows, row.Distinct) : (idNames g.rows).Perm (idNames h.rows) := by
  obtain ⟨partners, reordered, related⟩ := rearranges.rows
  have same : idNames g.rows = idNames partners :=
    idNames_eq_of_forall₂ <| forall₂_imp_of_mem related fun row inRows _ _ same => by
      rw [Entity.name?, Entity.name?, id?_of_perm (distinct row inRows) same]
  rw [same]
  exact reordered.filterMap Entity.name?

theorem Rearranges.exists_right (rearranges : g.Rearranges h)
    (distinct : ∀ row ∈ g.rows, row.Distinct) {row : Entity} (inRows : row ∈ g.rows) :
    ∃ other ∈ h.rows, row.items.Perm other.items ∧ Entity.id? row = Entity.id? other := by
  obtain ⟨partners, reordered, related⟩ := rearranges.rows
  obtain ⟨other, inPartners, same⟩ := exists_mem_of_forall₂ related inRows
  exact ⟨other, reordered.mem_iff.mp inPartners, same, id?_of_perm (distinct row inRows) same⟩

theorem Rearranges.exists_left (rearranges : g.Rearranges h)
    (distinct : ∀ row ∈ g.rows, row.Distinct) {other : Entity} (inRows : other ∈ h.rows) :
    ∃ row ∈ g.rows, row.items.Perm other.items ∧ Entity.id? row = Entity.id? other := by
  obtain ⟨partners, reordered, related⟩ := rearranges.rows
  obtain ⟨row, inLeft, same⟩ := exists_mem_of_forall₂ related.flip (reordered.mem_iff.mpr inRows)
  exact ⟨row, inLeft, same, id?_of_perm (distinct row inLeft) same⟩

theorem Rearranges.countP_anonymous (rearranges : g.Rearranges h) (referenced : g.Referenced)
    {property : Entity → Bool}
    (respects : Respects (MapIn Value.ExactThroughout) nearEntity property) :
    (anonymous h.rows).countP property = (anonymous g.rows).countP property := by
  obtain ⟨partners, reordered, related⟩ := rearranges.rows
  rw [countP_anonymous_of_forall₂ referenced.distinct referenced.mapIn related respects]
  exact (reordered.filter _).symm.countP_eq property

/-- In a rearrangement no row is changed, taken out or added. -/
theorem differenceRows_of_rearranges (referenced : g.Referenced) (rearranges : g.Rearranges h) :
    (differenceOfRows h [] g.rows).1 = [] ∧
      unpaired h.rows (differenceOfRows h [] g.rows).2 = [] := by
  have distinct := referenced.distinct
  have names := rearranges.idNames_perm distinct
  have ids : DistinctIds h.rows := names.nodup_iff.mp referenced.keyed.here.2.2.2.2
  have rightIn : ∀ other ∈ anonymous h.rows, MapIn Value.ExactThroughout other := by
    intro other member
    obtain ⟨inRows, unknown⟩ := mem_anonymous.mp member
    obtain ⟨row, inLeft, same, sameId⟩ := rearranges.exists_left distinct inRows
    have rowIn := referenced.mapIn row (mem_anonymous.mpr ⟨inLeft, sameId.trans unknown⟩)
    exact ⟨(distinct_iff_of_perm same).mp rowIn.1, fun part inside =>
      rowIn.2 part ((values_perm same).mem_iff.mpr inside)⟩
  have isRef : ∀ other ∈ h.rows, Entity.id? other = none → other.contains "id" = false := by
    intro other inRows unknown
    obtain ⟨row, inLeft, same, sameId⟩ := rearranges.exists_left distinct inRows
    have noId := referenced.ids row inLeft (sameId.trans unknown)
    rwa [contains, get?_of_perm (distinct row inLeft) same] at noId
  have known : ∀ row ∈ g.rows, ∀ id, Entity.id? row = some id →
      ∃ other, rowNamed? id.name h.rows = some other ∧ row.changes other = .empty := by
    intro row inRows id isId
    obtain ⟨other, inRight, same, sameId⟩ := rearranges.exists_right distinct inRows
    refine ⟨other, (rowNamed?_eq_some_iff ids).mpr
      ⟨inRight, Entity.name?_of_id? (sameId.symm.trans isId)⟩, ?_⟩
    exact changes_of_perm (distinct row inRows) same fun part inside =>
      referenced.near_refl part (mem_values_of_row inRows inside)
  obtain ⟨nothing, noneLeft⟩ := differenceOfRows_of_partners
    (equivalenceOn_nearEntity equivalenceOn_near) referenced.mapIn rightIn isRef known
    fun property respects => by rw [unpaired_nil, rearranges.countP_anonymous referenced respects]
  have noNames : idNames (unpaired h.rows (differenceOfRows h [] g.rows).2) = [] := by
    refine List.eq_nil_iff_forall_not_mem.mpr fun name member => ?_
    obtain ⟨inRight, notLeft⟩ := (mem_idNames_unpaired_differenceOfRows ids).mp member
    rw [unpaired_nil] at inRight
    exact notLeft (names.mem_iff.mpr inRight)
  refine ⟨nothing, List.length_eq_zero_iff.mp ?_⟩
  rw [length_eq_known_add_anonymous, noNames, noneLeft]
  rfl

/-- The difference from a grid to its rearrangement holds nothing but its mark and the names of the
columns. -/
theorem difference_of_rearranges (referenced : g.Referenced) (rearranges : g.Rearranges h) :
    (g.difference h).rows = [] ∧ (g.difference h).metadata = ⟨[(differenceKey, .marker)]⟩ ∧
      (g.difference h).columns = ⟨h.columns.items.map fun item => (item.1, .empty)⟩ := by
  obtain ⟨nothing, noneLeft⟩ := differenceRows_of_rearranges referenced rearranges
  have noRows : (g.difference h).rows = [] := by
    change (differenceOfRows h [] g.rows).1 ++ unpaired h.rows (differenceOfRows h [] g.rows).2 = []
    rw [nothing, noneLeft, List.append_nil]
  refine ⟨noRows, differenceMetadata_of_rearranges referenced rearranges, ?_⟩
  change declareRemovals (differenceColumns g.columns h.columns) (g.difference h).rows = _
  rw [noRows, differenceColumns_of_rearranges referenced rearranges]
  rfl

theorem difference_of_rearranges_building : building.Referenced ∧
    building.Rearranges buildingRearranged ∧ (building.difference buildingRearranged).rows = [] ∧
    (building.difference buildingRearranged).columns = ⟨[("floor", .empty), ("id", .empty)]⟩ := by
  have exact : building.Referenced := by
    refine ⟨throughout_of_holdsWithin (by decide : holdsWithin Keyed 4 (.grid building) = true),
      by decide, fun row inRows _ part inside => ?_⟩
    have exact : (Value.grid building).Throughout Exact :=
      throughout_of_holdsWithin (by decide : holdsWithin Exact 4 (.grid building) = true)
    exact exact.inside (mem_values_of_row inRows inside)
  obtain ⟨rows, _, columns⟩ := difference_of_rearranges exact building_rearranges
  exact ⟨exact, building_rearranges, rows, columns⟩

end Grids

end GridOf

end Haystack
