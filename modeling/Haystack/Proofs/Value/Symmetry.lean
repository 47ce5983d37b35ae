import Haystack.Proofs.Value.Equivalence

/-!
Approximate equality from the other side.

It is symmetric wherever keys and ids are distinct, numbers included: how far apart two numbers are
does not depend on which comes first, and rows without ids pair off from either side without any
transitivity. Rows that share an id break it, and reflexivity too, since each of them is compared
with the last.
-/
namespace Haystack

open Pairing

namespace Binary64

theorem distance_comm (negative : Bool) (significand : Nat) (exponent : Int) (negative' : Bool)
    (significand' : Nat) (exponent' : Int) :
    distance negative significand exponent negative' significand' exponent' =
      distance negative' significand' exponent' negative significand exponent := by
  simp only [distance]
  rw [← Int.natAbs_neg, Int.neg_sub, Int.min_comm exponent exponent']

theorem isNear_comm (x y : Binary64) : x.isNear y = y.isNear x := by
  cases x with
  | nan => cases y <;> rfl
  | infinity negative => cases y <;> simp [isNear, Bool.beq_comm]
  | finite => cases y with
    | finite => simp only [isNear, distance_comm]
    | _ => rfl

end Binary64

namespace Value

variable {a b : Value}

/-- Values that are compared alike both ways, each of some with each of others. -/
def Commute (lefts rights : List Value) : Prop :=
  ∀ a ∈ lefts, ∀ b ∈ rights, near a b = near b a

theorem nearList_comm {left right : List Value} (commute : Commute left right) :
    nearList left right = nearList right left := by
  induction left generalizing right with
  | nil => cases right <;> rfl
  | cons first rest ih =>
      cases right with
      | nil => rfl
      | cons other others =>
          have here := commute first (List.mem_cons_self ..) other (List.mem_cons_self ..)
          have further := @ih others fun a inRest b inOthers =>
            commute a (List.mem_cons_of_mem first inRest) b (List.mem_cons_of_mem other inOthers)
          rw [nearList, nearList, here, further]

theorem nearEntity_comm {left right : Entity} (leftDistinct : left.Distinct)
    (rightDistinct : right.Distinct) (commute : Commute left.values right.values) :
    nearEntity left right = nearEntity right left := by
  rw [Bool.eq_iff_iff, nearEntity_iff leftDistinct rightDistinct,
    nearEntity_iff rightDistinct leftDistinct]
  refine forall_congr' fun key => ?_
  cases found : left.get? key with
  | none => simp [Entity.valueOf, found]
  | some value =>
      cases present : right.get? key with
      | none => simp [Entity.valueOf, present]
      | some other =>
          rw [Entity.valueOf_eq found, Entity.valueOf_eq present,
            commute value (OrderedMap.mem_values_of_get? found) other
              (OrderedMap.mem_values_of_get? present)]

theorem nearMetadata_comm {left right : Metadata} (leftDistinct : left.Distinct)
    (rightDistinct : right.Distinct) (commute : Commute left.values right.values) :
    nearMetadata left right = nearMetadata right left := by
  rw [Bool.eq_iff_iff, nearMetadata_iff leftDistinct rightDistinct,
    nearMetadata_iff rightDistinct leftDistinct]
  constructor
  · exact fun agrees => agrees.symm fun a inLeft b inRight near =>
      (commute a inLeft b inRight).symm.trans near
  · exact fun agrees => agrees.symm fun b inRight a inLeft near =>
      (commute a inLeft b inRight).trans near

theorem nearColumns_comm {left right : Columns} (leftDistinct : left.Distinct)
    (rightDistinct : right.Distinct)
    (commute : ∀ held ∈ left.values, ∀ other ∈ right.values,
      nearMetadata held other = nearMetadata other held) :
    nearColumns left right = nearColumns right left := by
  rw [Bool.eq_iff_iff, nearColumns_iff leftDistinct rightDistinct,
    nearColumns_iff rightDistinct leftDistinct]
  constructor
  · exact fun agrees => agrees.symm fun held inLeft other inRight near =>
      (commute held inLeft other inRight).symm.trans near
  · exact fun agrees => agrees.symm fun other inRight held inLeft near =>
      (commute held inLeft other inRight).trans near

theorem nearGrid_comm {left right : Grid} (leftKeyed : Keyed (.grid left))
    (rightKeyed : Keyed (.grid right)) (commute : Commute left.values right.values) :
    nearGrid left right = nearGrid right left := by
  obtain ⟨leftMetadata, leftColumns, leftHeld, leftRows, leftIds⟩ := leftKeyed
  obtain ⟨rightMetadata, rightColumns, rightHeld, rightRows, rightIds⟩ := rightKeyed
  have metadata : nearMetadata left.metadata right.metadata =
      nearMetadata right.metadata left.metadata :=
    nearMetadata_comm leftMetadata rightMetadata fun a inLeft b inRight =>
      commute a (GridOf.mem_values_of_metadata inLeft) b (GridOf.mem_values_of_metadata inRight)
  have columns : nearColumns left.columns right.columns = nearColumns right.columns left.columns :=
    nearColumns_comm leftColumns rightColumns fun held inLeft other inRight =>
      nearMetadata_comm (leftHeld held inLeft) (rightHeld other inRight) fun a inHeld b inOther =>
        commute a (GridOf.mem_values_of_column inLeft inHeld) b
          (GridOf.mem_values_of_column inRight inOther)
  have byRow : ∀ row ∈ left.rows, ∀ other ∈ right.rows,
      nearEntity row other = nearEntity other row := fun row inLeft other inRight =>
    nearEntity_comm (leftRows row inLeft) (rightRows other inRight) fun a inRow b inOther =>
      commute a (GridOf.mem_values_of_row inLeft inRow) b (GridOf.mem_values_of_row inRight inOther)
  have rows : RowsNear left.rows right.rows ↔ RowsNear right.rows left.rows :=
    ⟨(·.symm byRow), (·.symm fun other inRight row inLeft => (byRow row inLeft other inRight).symm)⟩
  rw [Bool.eq_iff_iff, nearGrid_iff leftIds rightIds, nearGrid_iff rightIds leftIds, metadata,
    columns, rows]

theorem near_comm_of_leaf (leaf : a.IsLeaf) (otherLeaf : b.IsLeaf) : near a b = near b a := by
  cases a <;> cases b <;> first
    | rfl
    | exact leaf.elim
    | exact otherLeaf.elim
    | simp [near, sameLeaf, Bool.beq_comm, Binary64.isNear_comm]

/-- Values with distinct keys and ids at all depths are near both ways or neither. -/
theorem near_comm (keyed : a.Throughout Keyed) (otherKeyed : b.Throughout Keyed) :
    near a b = near b a := by
  induction keyed generalizing b with
  | intro value here inside ih =>
      have commute : Commute value.children b.children := fun part member other inOther =>
        ih part member (otherKeyed.inside inOther)
      by_cases kinds : value.kind = b.kind
      · rcases shapes_of_kind_eq kinds with ⟨items, others, rfl, rfl⟩ | ⟨tags, others, rfl, rfl⟩ |
          ⟨g, other, rfl, rfl⟩ | ⟨leaf, otherLeaf⟩
        · exact nearList_comm commute
        · exact nearEntity_comm here otherKeyed.here commute
        · exact nearGrid_comm here otherKeyed.here commute
        · exact near_comm_of_leaf leaf otherLeaf
      · have notNear : near value b = false :=
          Bool.eq_false_iff.mpr fun near => kinds (kind_eq_of_near near)
        have notBack : near b value = false :=
          Bool.eq_false_iff.mpr fun near => kinds (kind_eq_of_near near).symm
        rw [notNear, notBack]

end Value

namespace GridOf

open Value

/-- A grid is near to itself if its rows are near to the last row of their id, whatever else repeats. -/
theorem near_self_iff {g : Grid} (metadata : MapIn (fun part => Value.near part part = true) g.metadata)
    (columns : MapIn (MapIn fun part => Value.near part part = true) g.columns)
    (rows : ∀ row ∈ g.rows, MapIn (fun part => Value.near part part = true) row) :
    g.near g = true ↔ ∀ row : Entity, row ∈ g.rows → ∀ id, row.id? = some id →
      ∃ last, g.rowOf? id = some last ∧ row.near last = true := by
  have sameMetadata := nearMetadata_refl metadata.1 metadata.2
  have sameColumns := nearColumns_refl columns.1 fun held member =>
    nearMetadata_refl (columns.2 held member).1 (columns.2 held member).2
  have paired : Pairing.pairsOff nearEntity (anonymous g.rows) (anonymous g.rows) = true :=
    pairsOff_of_forall₂ <| List.forall₂_same.mpr fun row member =>
      have inScope := rows row (mem_anonymous.mp member).1
      nearEntity_refl inScope.1 inScope.2
  rw [near, nearGrid_eq, sameMetadata, sameColumns]
  simp only [Bool.true_and, beq_self_eq_true, nearRows_iff, paired, and_true]
  rfl

/-- Grids with distinct keys and ids at all depths are near themselves, and near each other both
ways or neither. -/
theorem near_refl_and_comm {g h : Grid} (keyed : g.Throughout Keyed) (otherKeyed : h.Throughout Keyed) :
    g.near g = true ∧ g.near h = h.near g :=
  ⟨Value.near_refl keyed, near_comm keyed otherKeyed⟩

/-- A row with an id, and one without that holds a grid with a row of the same id. -/
def site : Grid where
  version := .three
  pinned := false
  metadata := ⟨[("title", .str "Site")]⟩
  columns := ⟨[("id", .empty), ("area", ⟨[("unit", .str "m²")]⟩)]⟩
  rows := [
    ⟨[("id", .ref ⟨"s1", none⟩), ("area", .number (.quantity (.ofInt 120) "m²"))]⟩,
    ⟨[("area", .grid { GridOf.new with rows := [⟨[("id", .ref ⟨"s1", some "Site"⟩)]⟩] })]⟩]

/-- The rows of the site the other way round. -/
def siteReversed : Grid := site.withRows site.rows.reverse

theorem near_refl_and_comm_site : site.Throughout Keyed ∧ siteReversed.Throughout Keyed ∧
    site.near site = true ∧ site.near siteReversed = siteReversed.near site := by
  have within : holdsWithin Keyed 4 (.grid site) = true ∧ holdsWithin Keyed 4 (.grid siteReversed) = true := by
    decide
  have keyed : site.Throughout Keyed := throughout_of_holdsWithin within.1
  have otherKeyed : siteReversed.Throughout Keyed := throughout_of_holdsWithin within.2
  exact ⟨keyed, otherKeyed, near_refl_and_comm keyed otherKeyed⟩

/-- The grid of two rows that are appended to a new one. -/
def ofTwo (first second : Entity) : Grid :=
  ((do append first; append second : Edit Unit).apply .new).2

/-- A row with an id and a value. -/
def reading (name value : String) : Entity := ⟨[("id", .ref ⟨name, none⟩), ("v", .str value)]⟩

/-- Of two rows with one id both are compared with the second of the other side, which the first need
not be near; and both may find one row there, so that the other row of that side is never looked at. -/
theorem not_near_refl_and_comm :
    (¬ ∀ first second, (ofTwo first second).near (ofTwo first second) = true) ∧
    ¬ ∀ first second third fourth, (ofTwo first second).near (ofTwo third fourth) =
      (ofTwo third fourth).near (ofTwo first second) := by
  constructor
  · intro claim
    exact absurd (claim (reading "a" "x") (reading "a" "y")) (by decide)
  · intro claim
    exact absurd (claim (reading "a" "x") (reading "a" "x") (reading "a" "x") (reading "b" "x"))
      (by decide)

end GridOf

end Haystack
