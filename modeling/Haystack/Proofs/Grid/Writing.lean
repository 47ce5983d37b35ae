import Haystack.Proofs.Grid.Reading
import Haystack.Proofs.Json.Members
import Haystack.Proofs.Zinc.Tables
import Haystack.Csv.Document

/-!
Grids that no writer refuses.

A writer refuses a value that its version cannot hold and nothing else. Lists and dicts hold values of
every kind, since a version that they fit is 3.0 at least. A grid in a value is written in its own
version, so the values in it have to fit that one.
-/
namespace Haystack

open Outcome (Succeeds succeeds_ok succeeds_mapM)

/-- A value that is a grid holds values that fit the version of that grid. -/
def Value.IsWithin (value : Value) : Prop := ∀ grid, value = .grid grid → grid.Within

theorem Value.ensureFits_ok {value : Value} {version : Version} (fits : value.fits version = true) :
    value.ensureFits version = .ok () := if_pos fits

/-- What fits is written if it is no container or what it contains is written. -/
theorem Value.succeeds_ensureFits {value : Value} {version : Version} {α : Type}
    {next : Except Error α} (fits : value.fits version = true) (succeeds : Succeeds next) :
    Succeeds (value.ensureFits version >>= fun _ => next) :=
  Succeeds.bind ⟨(), Value.ensureFits_ok fits⟩ fun _ => succeeds

theorem Value.fits_part {value part : Value} {version : Version} (fits : value.fits version = true)
    (member : part ∈ value.children) (noGrid : ∀ grid, value ≠ .grid grid) :
    part.fits version = true := by
  have atLeast : version.IsAtLeastThree := by
    cases value with
    | list items => exact bne_iff_ne.mp fits
    | dict tags => exact bne_iff_ne.mp fits
    | grid grid => exact absurd rfl (noGrid grid)
    | _ => exact nomatch member
  exact Zinc.fits_of_isAtLeastThree atLeast part

variable {version : Version} {grid : Grid}

/-! ## Zinc -/

namespace Zinc

theorem writeList_eq (items : List Value) :
    writeList items version = items.mapM (writeValue · version) := by
  induction items with
  | nil => rfl
  | cons item items ih => rw [writeList, ih, List.mapM_cons]

theorem writeItems_eq (items : List (String × Value)) :
    writeItems items version = items.mapM fun item =>
      (writeValue item.2 version).map (tagText item.1 item.2) := by
  induction items with
  | nil => rfl
  | cons item items ih =>
      rw [writeItems, ih, List.mapM_cons]
      cases writeValue item.2 version <;> rfl

theorem writeColumnItems_eq (items : List (String × Metadata)) :
    writeColumnItems items version = items.mapM fun item =>
      (writeTags item.2 version).map fun texts => (item.1, String.intercalate " " texts) := by
  induction items with
  | nil => rfl
  | cons item items ih =>
      rw [writeColumnItems, ih, List.mapM_cons]
      cases writeTags item.2 version <;> rfl

theorem succeeds_writeTags {tags : OrderedMap Value}
    (each : ∀ value ∈ tags.values, Succeeds (writeValue value version)) :
    Succeeds (writeTags tags version) := by
  rw [writeTags, writeItems_eq]
  exact succeeds_mapM fun item member => (each item.2 (List.mem_map_of_mem member)).map

theorem succeeds_rowText {names : List String} {row : Entity}
    (each : ∀ value ∈ row.values, Succeeds (writeValue value version)) :
    Succeeds (rowText names (writeCells row.items version)) := by
  rw [rowText_eq]
  refine Succeeds.map (succeeds_mapM fun name _ => ?_)
  rw [cellText, writeCells_eq, OrderedMap.lookup_map row.items (writeValue · version)]
  cases found : row.get? name with
  | none => exact succeeds_ok _
  | some value => exact each value (OrderedMap.mem_values_of_get? found)

theorem succeeds_writeGrid
    (each : ∀ value ∈ grid.values, Succeeds (writeValue value grid.version)) :
    Succeeds (writeGrid grid) := by
  have rowEach (row : Entity) (member : row ∈ grid.rows) := fun value inside =>
    each value (GridOf.mem_values_of_row member inside)
  have metadata : Succeeds (writeTags grid.metadata grid.version) :=
    succeeds_writeTags fun value member => each value (GridOf.mem_values_of_metadata member)
  have columns : Succeeds (writeColumns grid.columns grid.version) := by
    rw [writeColumns, writeColumnItems_eq]
    refine succeeds_mapM fun item member => (succeeds_writeTags fun value inside => ?_).map
    exact each value (GridOf.mem_values_of_column (List.mem_map_of_mem member) inside)
  have lines (names : List String) : Succeeds (rowLines names (writeRows grid.rows grid.version)) := by
    rw [rowLines, writeRows_eq, List.mapM_map]
    refine Succeeds.bind (succeeds_mapM fun row member => ?_) fun _ => succeeds_ok _
    exact (succeeds_rowText (rowEach row member)).map
  obtain ⟨version, pinned, tags, columnTags, rows⟩ := grid
  exact metadata.bind fun _ => columns.bind fun _ => (lines _).bind fun _ => succeeds_ok _

theorem succeeds_writeValue {value : Value} (within : value.Throughout Value.IsWithin)
    (fits : value.fits version = true) : Succeeds (writeValue value version) := by
  induction within generalizing version with
  | intro value here inside ih =>
      cases value with
      | na => exact Succeeds.map ⟨(), Value.ensureFits_ok fits⟩
      | list items =>
          refine Value.succeeds_ensureFits fits ((?_ : Succeeds _).bind fun _ => succeeds_ok _)
          rw [writeList_eq]
          exact succeeds_mapM fun item member =>
            ih item member (Value.fits_part fits member fun _ => Value.noConfusion)
      | dict tags =>
          refine Value.succeeds_ensureFits fits ((succeeds_writeTags fun held member => ?_).bind
            fun _ => succeeds_ok _)
          exact ih held member (Value.fits_part fits member fun _ => Value.noConfusion)
      | grid grid =>
          refine Value.succeeds_ensureFits fits ((succeeds_writeGrid fun held member => ?_).bind
            fun _ => succeeds_ok _)
          exact ih held member (here grid rfl held member)
      | _ => exact succeeds_ok _

end Zinc

/-! ## JSON -/

namespace Json

theorem treesOf_eq (items : List Value) : treesOf items version = items.mapM (treeOf · version) := by
  induction items with
  | nil => rfl
  | cons item items ih => rw [treesOf, ih, List.mapM_cons]

theorem memberItemsOf_eq (items : List (String × Value)) :
    memberItemsOf items version = items.mapM fun item =>
      (treeOf item.2 version).map fun tree => (item.1, tree) := by
  induction items with
  | nil => rfl
  | cons item items ih =>
      rw [memberItemsOf, ih, List.mapM_cons]
      cases treeOf item.2 version <;> rfl

theorem columnItemTrees_eq (items : List (String × Metadata)) :
    columnItemTrees items version = items.mapM fun item =>
      (membersOf item.2 version).map fun members =>
        .object (.ofList (("name", .string item.1) :: members)) := by
  induction items with
  | nil => rfl
  | cons item items ih =>
      rw [columnItemTrees, ih, List.mapM_cons]
      cases membersOf item.2 version <;> rfl

theorem succeeds_membersOf {tags : OrderedMap Value}
    (each : ∀ value ∈ tags.values, Succeeds (treeOf value version)) :
    Succeeds (membersOf tags version) := by
  rw [membersOf, memberItemsOf_eq]
  exact succeeds_mapM fun item member => (each item.2 (List.mem_map_of_mem member)).map

theorem succeeds_rowTree {names : List String} {row : Entity}
    (each : ∀ value ∈ row.values, Succeeds (treeOf value version)) :
    Succeeds (rowTree names (cellTrees row.items version)) := by
  rw [rowTree_eq]
  refine (@succeeds_membersOf version (shownTags names row) fun value member => each value ?_).map
  obtain ⟨name, _, found⟩ := List.mem_map.mp (OrderedMap.mem_of_mem_values_ofCells member)
  exact OrderedMap.mem_values_of_get? found

theorem succeeds_treeOfGrid
    (each : ∀ value ∈ grid.values, Succeeds (treeOf value grid.version)) :
    Succeeds (treeOfGrid grid) := by
  have metadata : Succeeds (membersOf grid.metadata grid.version) :=
    succeeds_membersOf fun value member => each value (GridOf.mem_values_of_metadata member)
  have columns : Succeeds (columnTrees grid.columns grid.version) := by
    rw [columnTrees, columnItemTrees_eq]
    refine succeeds_mapM fun item member => (succeeds_membersOf fun value inside => ?_).map
    exact each value (GridOf.mem_values_of_column (List.mem_map_of_mem member) inside)
  have lines : Succeeds ((rowTrees grid.rows grid.version).mapM (rowTree grid.columns.keys)) := by
    rw [rowTrees_eq, List.mapM_map]
    exact succeeds_mapM fun row member =>
      succeeds_rowTree fun value inside => each value (GridOf.mem_values_of_row member inside)
  obtain ⟨version, pinned, tags, columnTags, rows⟩ := grid
  exact metadata.bind fun _ => columns.bind fun _ => lines.bind fun _ => succeeds_ok _

theorem succeeds_treeOf {value : Value} (within : value.Throughout Value.IsWithin)
    (fits : value.fits version = true) : Succeeds (treeOf value version) := by
  induction within generalizing version with
  | intro value here inside ih =>
      cases value with
      | na => exact Succeeds.map ⟨(), Value.ensureFits_ok fits⟩
      | list items =>
          refine Value.succeeds_ensureFits fits ((?_ : Succeeds _).bind fun _ => succeeds_ok _)
          rw [treesOf_eq]
          exact succeeds_mapM fun item member =>
            ih item member (Value.fits_part fits member fun _ => Value.noConfusion)
      | dict tags =>
          refine Value.succeeds_ensureFits fits ((succeeds_membersOf fun held member => ?_).bind
            fun _ => succeeds_ok _)
          exact ih held member (Value.fits_part fits member fun _ => Value.noConfusion)
      | grid grid =>
          refine Value.succeeds_ensureFits fits (succeeds_treeOfGrid fun held member => ?_)
          exact ih held member (here grid rfl held member)
      | _ => exact succeeds_ok _

end Json

/-! ## CSV -/

namespace Csv

theorem succeeds_writeValue {value : Value} (within : value.Throughout Value.IsWithin)
    (fits : value.fits version = true) : Succeeds (writeValue value version) := by
  cases value with
  | marker => exact succeeds_ok _
  | bool b => exact succeeds_ok _
  | str s => exact succeeds_ok _
  | ref r => exact succeeds_ok _
  | dateTime d => exact succeeds_ok _
  | _ => exact Zinc.succeeds_writeValue within fits

end Csv

/-! ## All writers -/

theorem GridOf.succeeds_write (within : grid.Throughout Value.IsWithin) :
    Succeeds (Zinc.writeGrid grid) ∧ Succeeds (Json.writeGrid grid) ∧ Succeeds (Csv.writeGrid grid) := by
  have fits : grid.Within := within.here grid rfl
  refine ⟨Zinc.succeeds_writeGrid fun value member => ?_,
    (Json.succeeds_treeOfGrid fun value member => ?_).map, ?_⟩
  · exact Zinc.succeeds_writeValue (within.inside member) (fits value member)
  · exact Json.succeeds_treeOf (within.inside member) (fits value member)
  · refine Succeeds.bind (succeeds_mapM fun row member => succeeds_mapM fun name _ => ?_) fun _ =>
      succeeds_ok _
    cases found : row.get? name with
    | none => exact succeeds_ok _
    | some value =>
        have inside : value ∈ grid.values :=
          GridOf.mem_values_of_row member (OrderedMap.mem_values_of_get? found)
        exact Csv.succeeds_writeValue (within.inside inside) (fits value inside)

end Haystack
