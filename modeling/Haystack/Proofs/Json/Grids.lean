import Haystack.Proofs.Json.Members
import Haystack.Proofs.Zinc.Drafts

/-!
Grids as objects, and the grids that the objects are read as.

A grid is an object with its version among the metadata; its columns and rows are read into it one by
one, which from version 3.0 on nothing refuses.
-/
namespace Haystack.Json

open Value (KeepsKind TagsRelated ColumnsRelated HasDistinctNames)

variable {version : Version} {grid : Grid} {related : Value → Value → Prop}

theorem edited_ok {edit : Edit Unit} {after : Grid} (applied : edit.apply grid = (.ok (), after)) :
    edited grid edit = .ok after := by
  rw [edited, applied]

/-! ## Columns and rows one by one -/

theorem addColumns_ok (atLeast : grid.version.IsAtLeastThree) {columns : List (String × Metadata)}
    (distinct : (⟨grid.columns.items ++ columns⟩ : Columns).Distinct) :
    addColumns grid (columns.map .ok) =
      .ok { grid with columns := ⟨grid.columns.items ++ columns⟩ } := by
  induction columns generalizing grid with
  | nil => simp [addColumns]
  | cons column columns ih =>
      obtain ⟨name, metadata⟩ := column
      have fresh := OrderedMap.not_mem_keys_of_distinct distinct
      have added : (GridOf.addColumn name metadata).apply grid =
          (.ok (), { grid with columns := ⟨grid.columns.items ++ [(name, metadata)]⟩ }) :=
        GridOf.addColumn_apply (fun value _ => Zinc.fits_of_isAtLeastThree atLeast value) fresh
      have later : (⟨grid.columns.items ++ [(name, metadata)] ++ columns⟩ : Columns).Distinct := by
        simpa using distinct
      have rest := @ih { grid with columns := ⟨grid.columns.items ++ [(name, metadata)]⟩ } atLeast later
      rw [List.map_cons, addColumns]
      simp only [bind, Except.bind]
      rw [edited_ok added]
      simpa using rest

theorem addRows_ok (atLeast : grid.version.IsAtLeastThree) (rows : List Entity) :
    addRows grid (rows.map .ok) = .ok (grid.withRows (grid.rows ++ rows)) := by
  induction rows generalizing grid with
  | nil => simp [addRows, GridOf.withRows]
  | cons row rows ih =>
      have appended : (GridOf.append row).apply grid = (.ok (), grid.withRows (grid.rows ++ [row])) :=
        GridOf.append_apply fun value _ => Zinc.fits_of_isAtLeastThree atLeast value
      have rest := @ih (grid.withRows (grid.rows ++ [row])) atLeast
      rw [List.map_cons, addRows]
      simp only [bind, Except.bind]
      rw [edited_ok appended]
      simp only
      rw [rest]
      simp [GridOf.withRows]

/-- The grid of a version, metadata, columns and rows that all are read. -/
theorem makeGrid_ok {members : List (String × Tree)}
    {metadata : Version → Except Error (List (String × Value))}
    {columns : Version → Except Error (List (Except Error (String × Metadata)))}
    {rows : Version → Except Error (List (Except Error Entity))}
    {tags : List (String × Value)} {columnItems : List (String × Metadata)} {entities : List Entity}
    (isVersion : versionOf members = .ok version) (atLeast : version.IsAtLeastThree)
    (metadataRead : metadata .three = .ok tags) (keyed : (tags.map (·.1)).Nodup)
    (columnsRead : columns .three = .ok (columnItems.map .ok))
    (distinct : (⟨columnItems⟩ : Columns).Distinct)
    (rowsRead : rows .three = .ok (entities.map .ok)) :
    makeGrid members metadata columns rows = .ok ⟨version, true, ⟨tags⟩, ⟨columnItems⟩, entities⟩ := by
  have withMetadata : (GridOf.setMetadata ⟨tags⟩).apply (.withVersion version) =
      (.ok (), { GridOf.withVersion version with metadata := ⟨tags⟩ }) :=
    GridOf.setMetadata_apply fun value _ => Zinc.fits_of_isAtLeastThree atLeast value
  have withColumns := @addColumns_ok { GridOf.withVersion version with metadata := ⟨tags⟩ } atLeast
    columnItems distinct
  have withRows := @addRows_ok { GridOf.withVersion version with
    metadata := ⟨tags⟩, columns := ⟨columnItems⟩ } atLeast entities
  rw [makeGrid, isVersion]
  simp only [bind, Except.bind, Version.nearest_of_isAtLeastThree atLeast, metadataRead, columnsRead,
    rowsRead]
  rw [OrderedMap.ofList_of_nodup keyed, edited_ok withMetadata]
  simp only [GridOf.withVersion, GridOf.new, OrderedMap.items_empty, List.nil_append] at withColumns withRows ⊢
  rw [withColumns]
  simp only
  rw [withRows]
  rfl

/-! ## The tree of a grid -/

/-- The metadata of a grid do not have the names that its version and its columns take, and those of
its columns are not null. -/
structure HasFreeNames (grid : Grid) : Prop where
  metadata : "ver" ∉ grid.metadata.keys
  columnMetadata : ∀ held ∈ grid.columns.values, "name" ∉ held.keys ∧ ∀ value ∈ held.values, value ≠ .null

/-- A grid that is read for another: values related to its own under the same names, in order. -/
structure GridRelated (related : Value → Value → Prop) (back grid : Grid) : Prop where
  version : back.version = grid.version
  metadata : TagsRelated related back.metadata.items grid.metadata.items
  columns : ColumnsRelated related back.columns.items grid.columns.items
  rows : List.Forall₂ (RowRelated related grid.columns.keys) grid.rows back.rows

/-- A grid is written as an object that is read as a grid. -/
theorem exists_gridTree (keeps : KeepsKind related) (proper : grid.version.IsProper)
    (atLeast : grid.version.IsAtLeastThree) (distinct : HasDistinctNames grid) (free : HasFreeNames grid)
    (rereads : ∀ part ∈ grid.values, Rereads related part) :
    ∃ members back, treeOfGrid grid = .ok (.object ⟨members⟩) ∧
      (Tree.object ⟨members⟩).IsTextual ∧ isGrid members = true ∧ gridOf members = .ok back ∧
      GridRelated related back grid := by
  obtain ⟨header, tags, madeHeader, areMembers, metadataRelated⟩ := exists_membersOf
    (fun held member => rereads held (GridOf.mem_values_of_metadata member)) atLeast
  obtain ⟨columns, columnItems, madeColumns, columnsTextual, columnsRead, columnsRelated⟩ :=
    @exists_columnItemTrees _ _ grid.columns.items keeps
      (fun item member => (free.columnMetadata item.2 (List.mem_map_of_mem member)).1)
      (fun item member => (free.columnMetadata item.2 (List.mem_map_of_mem member)).2)
      (fun item member => distinct.columnMetadata item.2 (List.mem_map_of_mem member))
      (fun item member held inside => rereads held
        (GridOf.mem_values_of_column (List.mem_map_of_mem member) inside)) atLeast
  obtain ⟨lines, rows, madeRows, rowsTextual, rowsRead, rowsRelated⟩ :=
    @exists_rowTrees _ _ _ grid.rows distinct.columns
      (fun row inRows held member => rereads held (GridOf.mem_values_of_row inRows member)) atLeast
  have tagsDistinct := metadataRelated.distinct distinct.metadata
  have headerNames : header.map (·.1) = grid.metadata.keys :=
    areMembers.names.trans (OrderedMap.keys_eq_of_forall₂ metadataRelated)
  have noVersion : "ver" ∉ header.map (·.1) := headerNames ▸ free.metadata
  have headerDistinct : ((("ver", Tree.string grid.version.text) :: header).map (·.1)).Nodup :=
    List.nodup_cons.mpr ⟨noVersion, headerNames ▸ distinct.metadata⟩
  have backDistinct : (⟨columnItems⟩ : Columns).Distinct := by
    rw [OrderedMap.Distinct, columnsRelated.keys]
    exact distinct.columns
  refine ⟨[("meta", .object ⟨("ver", .string grid.version.text) :: header⟩),
      ("cols", .array columns), ("rows", .array lines)],
    ⟨grid.version, true, ⟨tags⟩, ⟨columnItems⟩, rows⟩, ?_, ?_, rfl, ?_,
    ⟨rfl, metadataRelated, columnsRelated, rowsRelated⟩⟩
  · obtain ⟨version, pinned, metadata, ⟨items⟩, entities⟩ := grid
    simp only at madeHeader madeColumns madeRows
    rw [treeOfGrid, madeHeader, columnTrees, madeColumns]
    simp only [bind, Except.bind]
    rw [madeRows, OrderedMap.ofList_of_nodup headerDistinct]
    rfl
  · refine .object _ (show ["meta", "cols", "rows"].Nodup by decide) fun tree member => ?_
    simp only [OrderedMap.values, List.map_cons, List.map_nil, List.mem_cons, List.not_mem_nil,
      or_false] at member
    rcases member with rfl | rfl | rfl
    · refine .object _ headerDistinct fun tree member => ?_
      rcases List.mem_cons.mp member with rfl | inHeader
      · exact .string _
      · obtain ⟨held, inside, rfl⟩ := List.mem_map.mp inHeader
        exact areMembers.textual held inside
    · exact .array columns columnsTextual
    · exact .array lines rowsTextual
  · refine makeGrid_ok ?_ atLeast ?_ tagsDistinct ?_ backDistinct ?_
    · simp [versionOf, OrderedMap.get?_cons, Version.read, Version.read?_text proper]
    · rw [metadataOf, if_pos rfl, objectTags, tagsOf_cons noVersion, areMembers.read]
    · rw [columnsOf, if_neg (by decide), columnsOf, if_pos rfl, columnArray, columnsRead]
    · rw [rowsOf, if_neg (by decide), rowsOf, if_neg (by decide), rowsOf, if_pos rfl, rowArray,
        rowsRead]

/-- A grid in another comes back as one that is related to it. -/
theorem rereads_grid (keeps : KeepsKind related) (proper : grid.version.IsProper)
    (atLeast : grid.version.IsAtLeastThree) (distinct : HasDistinctNames grid) (free : HasFreeNames grid)
    (rereads : ∀ part ∈ grid.values, Rereads related part) :
    Rereads (fun back _ => ∃ inner, back = .grid inner ∧ GridRelated related inner grid) (.grid grid) := by
  intro version newer
  obtain ⟨members, back, made, textual, grids, read, relates⟩ :=
    exists_gridTree keeps proper atLeast distinct free rereads
  have fits : (Value.grid grid).ensureFits version = .ok () :=
    if_pos (Zinc.fits_of_isAtLeastThree newer _)
  refine ⟨.object ⟨members⟩, .grid back, ?_, textual, ?_, back, rfl, relates⟩
  · rw [treeOf, fits, made]
    rfl
  · rw [gridOf] at read
    rw [valueOf, requireThree_three]
    simp only [bind, Except.bind, if_pos grids]
    rw [read]
    rfl

/-- How deep the tree of a grid is nested can be told by making it. -/
theorem nesting_le_of_all (nesting : (treeOfGrid grid).toOption.all (·.nesting ≤ depthLimit) = true)
    (tree : Tree) (made : treeOfGrid grid = .ok tree) : tree.nesting ≤ depthLimit := by
  rw [made] at nesting
  simpa [Except.toOption] using nesting

/-- A grid is written as a text that is read as a related one, if it is nested no deeper than is read. -/
theorem exists_readGrid (keeps : KeepsKind related) (proper : grid.version.IsProper)
    (atLeast : grid.version.IsAtLeastThree) (distinct : HasDistinctNames grid) (free : HasFreeNames grid)
    (rereads : ∀ part ∈ grid.values, Rereads related part)
    (shallow : ∀ tree, treeOfGrid grid = .ok tree → tree.nesting ≤ depthLimit) :
    ∃ text back, writeGrid grid = .ok text ∧ readGrid text = .ok back ∧ GridRelated related back grid := by
  obtain ⟨members, back, made, textual, _, read, relates⟩ :=
    exists_gridTree keeps proper atLeast distinct free rereads
  refine ⟨(Tree.object ⟨members⟩).print, back, ?_, ?_, relates⟩
  · rw [writeGrid, made]
    rfl
  · rw [readGrid, readTree, read?_print textual (shallow _ made)]
    exact read

end Haystack.Json
