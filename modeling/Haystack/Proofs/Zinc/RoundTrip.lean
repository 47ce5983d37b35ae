import Haystack.Proofs.Zinc.Grids

/-!
Reading back what was written in the Zinc encoding.

By induction over the parts of a value its text is read as one near to it. A grid comes back with its
version and its columns, near to itself.
-/
namespace Haystack.Zinc

open Value (TagsNear HasDistinctNames keepsKind_near hasDistinctNames_of_keyed)

variable {grid : Grid}

theorem IsTable.names (table : IsTable grid) : HasWordNames grid where
  metadata := table.metadata
  columns := table.columns
  columnMetadata := table.columnMetadata

theorem IsTable.within (table : IsTable grid) : grid.Within := fun value _ =>
  fits_of_isAtLeastThree table.atLeast value

/-! ## Grids -/

/-- The grid that comes back is near to the one that was written, with its version and columns. -/
theorem GridLines.near_dropEmptyColumn
    (written : GridLines (fun back value => Value.near back value = true) .three grid)
    (table : IsTable grid) (keyed : Value.Keyed (.grid grid)) :
    (dropEmptyColumn written.back).version = grid.version ∧
      (dropEmptyColumn written.back).columns.keys = grid.columns.keys ∧
      Value.nearGrid (dropEmptyColumn written.back) grid = true := by
  have distinct := hasDistinctNames_of_keyed keyed
  obtain ⟨_, _, columnMetadata, rowsDistinct, ids⟩ := keyed
  have rowsNear : List.Forall₂ (fun a b => Value.nearEntity a b = true ∧ a.name? = b.name?)
      written.back.rows grid.rows := by
    by_cases none : grid.columns.items = []
    · rw [written.rows_back_of_none none, table.shown none]
      exact .nil
    refine ((List.forall₂_and_left _ _).mpr ⟨fun row member => member,
      (written.rows_back_of_some none).flip⟩).flip.imp ?_
    rintro back row ⟨inRows, cells, rfl, relates⟩
    have near := CellsNear.nearEntity relates distinct.columns (rowsDistinct row inRows) (table.declared row inRows)
    exact ⟨near, Value.name?_eq_of_nearEntity (distinct_entityOf distinct.columns cells)
      (rowsDistinct row inRows) near⟩
  obtain ⟨columns, dropped, relates⟩ :=
    written.exists_dropEmptyColumn keepsKind_near distinct.columns table.notBare
  obtain ⟨backIds, rowsNear⟩ := Value.rowsNear_of_forall₂ rowsNear ids
  have near := relates.near fun item member => columnMetadata item.2 (List.mem_map_of_mem member)
  have keys : columns.keys = grid.columns.keys := near.keys
  have columnsDistinct : columns.Distinct := by
    rw [OrderedMap.Distinct, keys]
    exact distinct.columns
  rw [dropped]
  refine ⟨rfl, keys, ?_⟩
  refine (@Value.nearGrid_iff ⟨_, _, _, columns, _⟩ grid backIds ids).mpr ⟨?_, ?_, rowsNear⟩
  · exact (Value.nearMetadata_iff (written.distinctNames_back distinct).metadata distinct.metadata).mpr
      (TagsNear.agrees written.metadataRelated)
  · exact (Value.nearColumns_iff columnsDistinct distinct.columns).mpr near.agrees

/-- A grid of values that are read back has lines. -/
theorem exists_gridLines (table : IsTable grid) (readsBack : ∀ part ∈ grid.values, ReadsBack part) :
    ∃ written : GridLines (fun back value => Value.near back value = true) .three grid,
      writeGrid grid = .ok written.text :=
  GridLines.exists_written keepsKind_near rfl table.names fun part member =>
    readsBack part member grid.version table.atLeast

/-- A grid with values that are read back is read back between brackets. -/
theorem readsBack_grid (keyed : Value.Keyed (.grid grid)) (table : IsTable grid)
    (readsBack : ∀ part ∈ grid.values, ReadsBack part) : ReadsBack (.grid grid) := by
  intro version atLeast
  obtain ⟨lines, written⟩ := exists_gridLines table readsBack
  have fits : (Value.grid grid).ensureFits version = .ok () :=
    if_pos (fits_of_isAtLeastThree atLeast _)
  refine ⟨"<<" ++ lines.text ++ ">>", .grid (dropEmptyColumn lines.back), ?_, ?_, ?_⟩
  · rw [writeValue, fits, written]
    rfl
  · change Value.near (.grid _) (.grid grid) = true
    rw [Value.near]
    exact (lines.near_dropEmptyColumn table keyed).2.2
  · exact lines.readable_brackets keepsKind_near table.version (hasDistinctNames_of_keyed keyed)
      table.within compare_three_three

/-! ## Values and whole grids -/

/-- A value that can be written with all that is in it is read back. -/
theorem readsBack_of_throughout {value : Value} (representable : value.Throughout Representable) :
    ReadsBack value := by
  induction representable with
  | intro value here inside ih =>
      cases value with
      | list items => exact readsBack_list ih
      | dict tags => exact readsBack_dict here.1 here.2 ih
      | grid g => exact readsBack_grid here.1 here.2 ih
      | _ => exact readsBack_of_leaf here trivial

section Sites

open Value (throughout_of_childless)

theorem stored_siteArea : Binary64.Stored 5101733952880640 (-46) := by decide

/-- 72.5 -/
def siteArea : Binary64 := .finite false 5101733952880640 (-46) stored_siteArea

def siteLevels : Value := .list [.null, .bool true, .str "a, \"b\""]

def siteTags : Value := .dict ⟨[("hot", .marker), ("levels", siteLevels)]⟩

/-- A grid without columns. -/
def siteNotes : Grid := ⟨.three, false, .empty, .empty, []⟩

/-- Two sites, with a moment, a quantity, a reference and values that hold others. -/
def sites : Grid where
  version := .three
  pinned := true
  metadata := ⟨[("dis", .str "Sites\n"), ("since", .dateTime ⟨⟨0, 0⟩, .utc⟩)]⟩
  columns := ⟨[("id", .empty), ("area", ⟨[("unit", .str "m²")]⟩), ("more", .empty)]⟩
  rows := [⟨[("id", .ref ⟨"a", some "Site A"⟩), ("area", .number ⟨siteArea, some "m²"⟩),
    ("more", siteTags)]⟩, ⟨[("more", .grid siteNotes), ("area", .null)]⟩]

theorem isTable_siteNotes : IsTable siteNotes where
  version := Version.isProper_three
  atLeast := by decide
  metadata := by decide
  columns := by decide
  columnMetadata := by decide
  declared := by decide
  shown := fun _ => rfl
  notBare := fun bare => nomatch bare.1

theorem isTable_sites : IsTable sites where
  version := Version.isProper_three
  atLeast := by decide
  metadata := by decide
  columns := by decide
  columnMetadata := by decide
  declared := by decide
  shown := fun none => nomatch none
  notBare := fun bare => absurd (congrArg List.length bare.1) (by decide)

theorem sites_representable : sites.Throughout Representable := by
  have levels : siteLevels.Throughout Representable := by
    refine .intro _ trivial fun part member => ?_
    simp only [siteLevels, Value.children, List.mem_cons, List.not_mem_nil, or_false] at member
    rcases member with rfl | rfl | rfl <;> exact throughout_of_childless trivial rfl
  have tags : siteTags.Throughout Representable := by
    refine .intro _ ⟨by decide, by decide⟩ fun part member => ?_
    simp only [siteTags, Value.children, OrderedMap.values, List.map_cons, List.map_nil,
      List.mem_cons, List.not_mem_nil, or_false] at member
    rcases member with rfl | rfl
    · exact throughout_of_childless trivial rfl
    · exact levels
  have isUnit : IsUnit "m²" := ⟨by decide, by decide, by decide⟩
  have area : IsWritable ⟨siteArea, some "m²"⟩ :=
    ⟨fun unit same => by rw [← Option.some.inj same]; exact ⟨isUnit, rfl⟩, fun _ => by decide +kernel⟩
  have name : "a".toList.all isRefChar = true := by decide
  refine .intro _ ⟨by decide, isTable_sites⟩ fun part member => ?_
  simp only [Value.children, GridOf.values, sites, OrderedMap.values, OrderedMap.empty, List.map_cons,
    List.map_nil, List.flatMap_cons, List.flatMap_nil, List.mem_append, List.mem_cons,
    List.not_mem_nil, or_false, false_or] at member
  rcases member with ((rfl | rfl) | rfl) | (rfl | rfl | rfl) | rfl | rfl
  · exact throughout_of_childless trivial rfl
  · exact throughout_of_childless isMoment_epoch rfl
  · exact throughout_of_childless trivial rfl
  · exact throughout_of_childless name rfl
  · exact throughout_of_childless area rfl
  · exact tags
  · exact throughout_of_childless ⟨by decide, isTable_siteNotes⟩ rfl
  · exact throughout_of_childless trivial rfl

end Sites

end Haystack.Zinc
