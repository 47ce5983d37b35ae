import Haystack.Proofs.Json.Grids

/-!
Reading back what was written as JSON.

By induction over the parts of a value its tree is read as one near to it, with the columns of grids in
their order and their rows less nulls.
-/
namespace Haystack.Json

open Value (TagsNear HasDistinctNames keepsKind_near hasDistinctNames_of_keyed)

variable {version : Version} {grid : Grid}

theorem IsTable.free (table : IsTable grid) : HasFreeNames grid := ⟨table.metadata, table.columnMetadata⟩

/-- Nearness, as what a value comes back with. -/
abbrev Near (back value : Value) : Prop := Value.near back value = true

theorem legible_of_representable {value : Value} (representable : Representable value) : Legible Near value := by
  cases value with
  | date d => exact @Zinc.readsBack_of_leaf (.date d) representable trivial
  | time t => exact @Zinc.readsBack_of_leaf (.time t) representable trivial
  | dateTime d => exact @Zinc.readsBack_of_leaf (.dateTime d) representable trivial
  | number | xstr | ref | coord => exact representable
  | _ => trivial

/-- A grid with values near to those of another is near to it. -/
theorem GridRelated.near {back : Grid} (relates : GridRelated Near back grid)
    (keyed : Value.Keyed (.grid grid))
    (declared : ∀ row ∈ grid.rows, ∀ name ∈ row.keys, name ∈ grid.columns.keys) :
    Value.nearGrid back grid = true := by
  obtain ⟨metadataDistinct, columnsDistinct, heldDistinct, rowsDistinct, ids⟩ := keyed
  have named : List.Forall₂ (fun a b => Value.nearEntity a b = true ∧ a.name? = b.name?)
      back.rows grid.rows := by
    refine List.Forall₂.flip (((List.forall₂_and_left _ _).mpr
      ⟨fun row member => member, relates.rows⟩).imp ?_)
    rintro row back ⟨inRows, rowRelated⟩
    obtain ⟨distinct, near⟩ := rowRelated.near columnsDistinct (rowsDistinct row inRows) (declared row inRows)
    exact ⟨near, Value.name?_eq_of_nearEntity distinct (rowsDistinct row inRows) near⟩
  have columnsNear := relates.columns.near fun item member => heldDistinct item.2 (List.mem_map_of_mem member)
  have backColumns : back.columns.Distinct := by
    rw [OrderedMap.Distinct, relates.columns.keys]
    exact columnsDistinct
  obtain ⟨backIds, near⟩ := Value.rowsNear_of_forall₂ named ids
  refine (Value.nearGrid_iff backIds ids).mpr ⟨?_, ?_, near⟩
  · exact (Value.nearMetadata_iff (relates.metadata.distinct metadataDistinct) metadataDistinct).mpr
      (TagsNear.agrees relates.metadata)
  · exact (Value.nearColumns_iff backColumns columnsDistinct).mpr columnsNear.agrees

/-! ## Values and whole grids -/

/-- A value that can be written with all that is in it is read back. -/
theorem rereads_near {value : Value} (representable : value.Throughout Representable) :
    Rereads Near value := by
  induction representable with
  | intro value here inside ih =>
      cases value with
      | list items =>
          refine (rereads_list ih).mono ?_
          rintro _ ⟨backs, rfl, near⟩
          rw [Near, Value.near, Value.nearList_iff]
          exact near
      | dict tags =>
          refine (rereads_dict here.1 here.2 ih).mono ?_
          rintro _ ⟨backs, rfl, near⟩
          rw [Near, Value.near]
          exact Value.nearEntity_of_agrees (near.distinct here.1) here.1 (TagsNear.agrees near)
      | grid g =>
          obtain ⟨keyed, table⟩ : Value.Keyed (.grid g) ∧ IsTable g := here
          refine (rereads_grid keepsKind_near table.version table.atLeast
            (hasDistinctNames_of_keyed keyed) table.free ih).mono ?_
          rintro _ ⟨back, rfl, relates⟩
          rw [Near, Value.near]
          exact relates.near keyed table.declared
      | _ => exact rereads_of_leaf keepsKind_near (Zinc.near_refl_of_leaf trivial) trivial (legible_of_representable here)

section Notices

open Value (throughout_of_childless)

/-- 72.5 -/
def noticeAge : Binary64 := .finite false 5101733952880640 (-46) (by decide)

def noticeFile : XStr := ⟨"hex", [0xca, 0xfe]⟩

/-- One of the three names that grids have, a null and a text that looks like a number. -/
def noticeTags : Value :=
  .dict ⟨[("meta", .null), ("text: \"n\"", .str "n:1 kW"), ("file", .xstr noticeFile)]⟩

def noticeDrafts : Grid := ⟨.three, false, .empty, .empty, []⟩

/-- Two notices, under names with blanks and with a unit that has one. -/
def notices : Grid where
  version := .three
  pinned := true
  metadata := ⟨[("dis", .str "m:"), ("", .uri "c:1,2")]⟩
  columns := ⟨[("id", .empty), ("all else", ⟨[("max age", .number ⟨noticeAge, some "m s"⟩)]⟩)]⟩
  rows := [⟨[("all else", noticeTags), ("id", .ref ⟨"a", some "first: one"⟩)]⟩,
    ⟨[("all else", .grid noticeDrafts), ("id", .null)]⟩]

theorem isTable_noticeDrafts : IsTable noticeDrafts where
  version := Version.isProper_three
  atLeast := by decide
  metadata := by decide
  columnMetadata := fun _ member => nomatch member
  declared := by decide

theorem isTable_notices : IsTable notices where
  version := Version.isProper_three
  atLeast := by decide
  metadata := by decide
  columnMetadata := by
    intro held member
    simp only [notices, OrderedMap.values, List.map_cons, List.map_nil, List.mem_cons,
      List.not_mem_nil, or_false] at member
    rcases member with rfl | rfl <;> simp [OrderedMap.keys, OrderedMap.values, OrderedMap.empty]
  declared := by decide

theorem notices_representable : notices.Throughout Representable := by
  have file : IsEncoded noticeFile := ⟨by decide, "cafe", by decide⟩
  have age : IsQuantity ⟨noticeAge, some "m s"⟩ := ⟨by decide, fun _ => by decide +kernel⟩
  have name : Ref.isValidName "a" = true := by decide
  have tags : noticeTags.Throughout Representable := by
    refine .intro _ ⟨by decide, by decide⟩ fun part member => ?_
    simp only [noticeTags, Value.children, OrderedMap.values, List.map_cons, List.map_nil,
      List.mem_cons, List.not_mem_nil, or_false] at member
    rcases member with rfl | rfl | rfl
    · exact throughout_of_childless trivial rfl
    · exact throughout_of_childless trivial rfl
    · exact throughout_of_childless file rfl
  refine .intro _ ⟨by decide, isTable_notices⟩ fun part member => ?_
  simp only [Value.children, GridOf.values, notices, OrderedMap.values, OrderedMap.empty,
    List.map_cons, List.map_nil, List.flatMap_cons, List.flatMap_nil, List.mem_append, List.mem_cons,
    List.not_mem_nil, or_false, false_or] at member
  rcases member with ((rfl | rfl) | rfl) | (rfl | rfl) | rfl | rfl
  · exact throughout_of_childless trivial rfl
  · exact throughout_of_childless trivial rfl
  · exact throughout_of_childless age rfl
  · exact tags
  · exact throughout_of_childless name rfl
  · exact throughout_of_childless ⟨by decide, isTable_noticeDrafts⟩ rfl
  · exact throughout_of_childless trivial rfl

theorem nesting_notices : ∀ tree, treeOfGrid notices = .ok tree → tree.nesting ≤ depthLimit :=
  nesting_le_of_all (by decide +kernel)

end Notices

end Haystack.Json
