import Haystack.Proofs.Zinc.Tables

/-!
The lines of a grid whose values have texts, and the grid that they are read as.

What comes back has the version of the grid, and related values under the same names. Rows come back
where there are columns, and only the column that was written for none is dropped.
-/
namespace Haystack.Zinc

open Phrase
open Value (TagsRelated ColumnsRelated KeepsKind HasDistinctNames fits_of_kind_eq null_of_related)

variable {value : Phrase (Reading Value)} {dialect version : Version} {grid : Grid}
  {related : Value → Value → Prop}

/-- The names in a grid are words. -/
structure HasWordNames (grid : Grid) : Prop where
  metadata : ∀ name ∈ grid.metadata.keys, isTagName name = true
  columns : ∀ name ∈ grid.columns.keys, isTagName name = true
  columnMetadata : ∀ held ∈ grid.columns.values, ∀ name ∈ held.keys, isTagName name = true

/-! ## Related values -/

theorem CellsRelated.fits {names : List String} {cells : List (Option Value)} {row : Entity}
    (keeps : KeepsKind related) (relates : CellsRelated related names cells row)
    (fits : ∀ held ∈ row.values, held.fits version = true) :
    ∀ back ∈ (entityOf names cells).values, back.fits version = true := by
  intro back member
  have inCells := OrderedMap.mem_of_mem_values_ofCells member
  obtain ⟨cell, isCell, same⟩ := List.mem_map.mp inCells
  obtain ⟨rfl, _⟩ := Option.filter_eq_some_iff.mp same
  obtain ⟨name, _, isRelated⟩ := Pairing.exists_mem_of_forall₂ relates.flip isCell
  refine fits_of_kind_eq (keeps _ _ isRelated) ?_
  unfold Entity.valueOf
  cases found : row.get? name with
  | none => rfl
  | some held => exact fits held (OrderedMap.mem_values_of_get? found)

/-! ## The columns that are written -/

theorem writeColumns_eq (columns : Columns) :
    writeColumns columns version = writeColumnItems columns.items version := by
  cases columns
  rfl

theorem exists_writeColumns (keeps : KeepsKind related) (names : HasWordNames grid)
    (rereads : ∀ part ∈ grid.values, Rereads related dialect version part) :
    ∃ written texts backs, writeColumns grid.columns version = .ok written ∧
      written.map (·.1) = grid.columns.keys ∧ columnLine written = String.intercalate "," texts ∧
      texts ≠ [] ∧ List.Forall₂ (ReadableColumn dialect) texts backs ∧
      ColumnsRelated related backs (shownColumns grid.columns).items := by
  obtain ⟨written, backs, isWritten, sameNames, readable, relates⟩ :=
    @exists_writeColumnItems _ _ _ grid.columns.items keeps
      (fun item member => names.columns item.1 (List.mem_map_of_mem member))
      (fun item member => names.columnMetadata item.2 (List.mem_map_of_mem member))
      (fun item member held inside => rereads held
        (GridOf.mem_values_of_column (List.mem_map_of_mem member) inside))
  rw [← writeColumns_eq] at isWritten
  by_cases none : grid.columns.items = []
  · have nothing : written = [] := by
      rw [none, List.map_nil, List.map_eq_nil_iff] at sameNames
      exact sameNames
    have shown : (shownColumns grid.columns).items = [(emptyColumn, .empty)] := by
      rw [shownColumns, if_pos none]
    refine ⟨written, [emptyColumn], [(emptyColumn, .empty)], isWritten, sameNames, ?_, by simp, ?_, ?_⟩
    · rw [nothing]
      simp [columnLine]
    · have readable : ReadableColumn dialect (withTags emptyColumn (String.intercalate " " []))
          (emptyColumn, ⟨[]⟩) := readableColumn (by decide) .nil
      exact .cons readable .nil
    · rw [shown]
      exact .cons ⟨rfl, .nil⟩ .nil
  · rw [← shownColumns_of_ne none] at relates
    have some : written ≠ [] := fun nothing => none (by simpa [nothing] using sameNames)
    refine ⟨written, _, backs, isWritten, sameNames, ?_, ?_, readable, relates⟩
    · rw [columnLine, if_neg (by simpa using some)]
    · simpa using some

theorem length_le_join {line : String} {lines : List String} (member : line ∈ lines) :
    line.toList.length ≤ (String.join (lines.map (· ++ "\n"))).toList.length := by
  rw [Text.toList_join_lines]
  obtain ⟨before, after, rfl⟩ := List.append_of_mem member
  simp only [List.flatMap_append, List.flatMap_cons, List.length_append]
  omega

/-! ## The lines of a grid -/

/-- The parts of the lines of a grid, and what they are read as. -/
structure GridLines (related : Value → Value → Prop) (dialect : Version) (grid : Grid) where
  tags : List String
  metadata : List (String × Value)
  names : List String
  columns : List (String × Metadata)
  lines : List String
  rows : List (List (Option Value))
  readableTags : List.Forall₂ (ReadableTag dialect) tags metadata
  metadataRelated : TagsRelated related metadata grid.metadata.items
  someNames : names ≠ []
  readableNames : List.Forall₂ (ReadableColumn dialect) names columns
  columnsRelated : ColumnsRelated related columns (shownColumns grid.columns).items
  readableLines : List.Forall₂ (ReadableLine dialect) lines rows
  rowsRelated : List.Forall₂ (RowRelated related grid.columns.keys) grid.rows rows

namespace GridLines

/-- The lines themselves. -/
def text (written : GridLines related dialect grid) : String :=
  withTags ("ver:" ++ quote grid.version.text) (String.intercalate " " written.tags) ++ "\n" ++
    String.intercalate "," written.names ++ "\n" ++ String.join (written.lines.map (· ++ "\n"))

/-- What the lines are read as, with the column that may stand for none. -/
def back (written : GridLines related dialect grid) : Grid :=
  ⟨grid.version, true, ⟨written.metadata⟩, ⟨written.columns⟩,
    entitiesOf (written.columns.map (·.1)) written.rows⟩

/-- A grid whose values have texts is written as lines. -/
theorem exists_written (keeps : KeepsKind related) (nulls : related .null .null)
    (names : HasWordNames grid)
    (rereads : ∀ part ∈ grid.values, Rereads related dialect grid.version part) :
    ∃ written : GridLines related dialect grid, writeGrid grid = .ok written.text := by
  obtain ⟨tags, metadata, writtenTags, readableTags, metadataRelated⟩ := exists_writeTags keeps
    names.metadata fun held member => rereads held (GridOf.mem_values_of_metadata member)
  obtain ⟨written, texts, columns, writtenColumns, sameNames, isLine, someNames, readableNames,
    columnsRelated⟩ := exists_writeColumns keeps names rereads
  obtain ⟨lines, rows, writtenLines, readableLines, rowsRelated⟩ :=
    @exists_rowLines _ _ _ grid.columns.keys _ nulls fun row inRows held member =>
      rereads held (GridOf.mem_values_of_row inRows member)
  refine ⟨⟨tags, metadata, texts, columns, lines, rows, readableTags, metadataRelated, someNames,
    readableNames, columnsRelated, readableLines, rowsRelated⟩, ?_⟩
  obtain ⟨version, pinned, gridMetadata, gridColumns, gridRows⟩ := grid
  simp only at writtenTags writtenColumns writtenLines sameNames
  rw [writeGrid, writtenTags, writtenColumns]
  simp only [bind, Except.bind]
  rw [sameNames, writtenLines, isLine]
  rfl

variable (written : GridLines related dialect grid)

/-- The text starts with the version. -/
theorem starts : ∃ more, written.text.toList =
    'v' :: 'e' :: 'r' :: ':' :: ((quote grid.version.text).toList ++ more) := by
  have front : "ver:".toList = ['v', 'e', 'r', ':'] := by decide
  rw [text, withTags]
  split
  · simp only [String.toList_append, List.append_assoc, front, List.cons_append, List.nil_append]
    exact ⟨_, rfl⟩
  · simp only [String.toList_append, List.append_assoc, front, List.cons_append, List.nil_append]
    exact ⟨_, rfl⟩

/-! ### The grid that they are read as -/

theorem keys_back : written.back.columns.keys = (shownColumns grid.columns).keys :=
  written.columnsRelated.keys

theorem keys_back_of_some (some : grid.columns.items ≠ []) :
    written.back.columns.keys = grid.columns.keys := by
  rw [keys_back, shownColumns_of_ne some]

theorem distinctNames_back (distinct : HasDistinctNames grid) : HasDistinctNames written.back where
  metadata := TagsRelated.distinct written.metadataRelated distinct.metadata
  columns := by
    rw [OrderedMap.Distinct, keys_back]
    unfold shownColumns
    split
    · simp [OrderedMap.keys]
    · exact distinct.columns
  columnMetadata := by
    have shown : ∀ item ∈ (shownColumns grid.columns).items, item.2.Distinct := by
      unfold shownColumns
      split
      · simp [OrderedMap.distinct_empty]
      · exact fun item member => distinct.columnMetadata item.2 (List.mem_map_of_mem member)
    intro held member
    obtain ⟨column, inColumns, rfl⟩ := List.mem_map.mp member
    exact written.columnsRelated.distinct shown column inColumns

/-- Where there are no columns no row comes back. -/
theorem rows_back_of_none (none : grid.columns.items = []) : written.back.rows = [] := by
  have noNames : grid.columns.keys = [] := by simp [OrderedMap.keys, none]
  have blank : ∀ cells ∈ written.rows, cells = [Option.none] := by
    intro cells member
    obtain ⟨row, _, isRelated⟩ := Pairing.exists_mem_of_forall₂ written.rowsRelated.flip member
    change RowRelated related grid.columns.keys row cells at isRelated
    rwa [RowRelated, if_pos noNames] at isRelated
  simp only [back, entitiesOf, List.map_eq_nil_iff, List.filter_eq_nil_iff]
  intro cells member
  simp [isBlankLine_iff.mpr (blank cells member)]

/-- Where there are columns each row comes back. -/
theorem rows_back_of_some (some : grid.columns.items ≠ []) :
    List.Forall₂ (fun back row => ∃ cells, back = entityOf grid.columns.keys cells ∧
      CellsRelated related grid.columns.keys cells row) written.back.rows grid.rows := by
  have someNames : grid.columns.keys ≠ [] := by simpa [OrderedMap.keys] using some
  have rows : List.Forall₂ (fun row cells => IsRow grid.columns.keys cells ∧
      CellsRelated related grid.columns.keys cells row) grid.rows written.rows :=
    written.rowsRelated.imp fun row cells relates => by
      rwa [RowRelated, if_neg someNames] at relates
  have areRows : ∀ cells ∈ written.rows, IsRow grid.columns.keys cells := by
    intro cells member
    obtain ⟨row, _, isRow, _⟩ := Pairing.exists_mem_of_forall₂ rows.flip member
    exact isRow
  have same : written.columns.map (·.1) = grid.columns.keys := written.keys_back_of_some some
  rw [back, same, entitiesOf_of_isRow areRows, List.forall₂_map_left_iff]
  exact rows.flip.imp fun cells row relates => ⟨cells, rfl, relates.2⟩

theorem sizes : ∀ cells ∈ written.rows, cells.length ≤ written.back.columns.keys.length := by
  intro cells member
  obtain ⟨row, _, isRelated⟩ := Pairing.exists_mem_of_forall₂ written.rowsRelated.flip member
  change RowRelated related grid.columns.keys row cells at isRelated
  unfold RowRelated at isRelated
  rw [keys_back]
  split at isRelated
  · next none =>
    rw [isRelated, shownColumns, if_pos (by simpa [OrderedMap.keys] using none)]
    exact Nat.le_refl 1
  · next some =>
    rw [shownColumns_of_ne (by simpa [OrderedMap.keys] using some)]
    exact isRelated.1.1

/-- What comes back fits the version if the grid did. -/
theorem within_back (keeps : KeepsKind related) (within : grid.Within) : written.back.Within := by
  obtain ⟨metadata, columns, rows⟩ := GridOf.within_iff.mp within
  refine GridOf.within_iff.mpr
    ⟨TagsRelated.fits keeps written.metadataRelated metadata, ?_, fun row member => ?_⟩
  · have shown : ∀ item ∈ (shownColumns grid.columns).items, ∀ held ∈ item.2.values,
        held.fits grid.version = true := by
      unfold shownColumns
      split
      · simp [OrderedMap.values]
      · exact fun item member => columns item.2 (List.mem_map_of_mem member)
    intro held member
    obtain ⟨column, inColumns, rfl⟩ := List.mem_map.mp member
    obtain ⟨item, inItems, _, relates⟩ :=
      Pairing.exists_mem_of_forall₂ written.columnsRelated inColumns
    exact TagsRelated.fits keeps relates (shown item inItems)
  · by_cases none : grid.columns.items = []
    · rw [written.rows_back_of_none none] at member
      exact (List.not_mem_nil member).elim
    · obtain ⟨held, inRows, cells, rfl, relates⟩ :=
        Pairing.exists_mem_of_forall₂ (written.rows_back_of_some none) member
      exact relates.fits keeps (rows held inRows)

/-- What reads the values of a grid reads its lines. -/
theorem takes_draft (keeps : KeepsKind related) (proper : grid.version.IsProper)
    (distinct : HasDistinctNames grid) (within : grid.Within) {rest : List Char}
    (reaches : Reaches dialect value written.text.toList.length) (ends : EndsRows rest) :
    Takes (draft value) written.text.toList rest fun draft =>
      draft.grid = .ok (dropEmptyColumn written.back) := by
  have size : written.text.toList.length =
      (withTags ("ver:" ++ quote grid.version.text) (String.intercalate " " written.tags)).toList.length +
        1 + (String.intercalate "," written.names).toList.length + 1 +
        (String.join (written.lines.map (· ++ "\n"))).toList.length := by
    simp only [text, String.toList_append, List.length_append]
    rfl
  have tags := forall₂_of_reaches reaches written.readableTags fun text member => by
    have within := Text.length_le_intercalate member " "
    have shorter := length_le_withTags ("ver:" ++ quote grid.version.text)
      (String.intercalate " " written.tags)
    omega
  have names := forall₂_of_reaches reaches written.readableNames fun text member => by
    have within := Text.length_le_intercalate member ","
    omega
  have lines := forall₂_of_reaches reaches written.readableLines fun text member => by
    have within := length_le_join member
    omega
  have takes := @Zinc.takes_draft value rest grid.version.text written.tags written.names written.lines
    ⟨written.metadata⟩ ⟨written.columns⟩ written.rows tags written.someNames names lines ends
  have back := written.distinctNames_back distinct
  refine takes.mono fun draft states => ?_
  exact states.grid_eq (Version.read?_text proper) (written.within_back keeps within) back.metadata
    back.columns back.columnMetadata written.sizes

/-! ### The column for no columns -/

/-- Of a row that came back as one without a tag the tag is null. -/
theorem valueOf_of_not_contains (keeps : KeepsKind related) {names : List String}
    {cells : List (Option Value)} {row : Entity} (distinct : names.Nodup)
    (relates : CellsRelated related names cells row) {name : String} (isName : name ∈ names)
    (absent : (entityOf names cells).contains name = false) : row.valueOf name = .null := by
  have under : List.Forall₂ (fun name cell => cell = none → row.valueOf name = .null) names
      (cells.map (·.filter (!·.isNull))) := by
    rw [List.forall₂_map_right_iff]
    refine relates.imp fun name cell here none => null_of_related keeps ?_
    have isNull : cell.getD .null = .null := by
      cases cell with
      | none => rfl
      | some held => cases held <;> simp [Option.filter_some, Value.isNull] at none ⊢
    rwa [isNull] at here
  refine OrderedMap.forall_get?_ofCells distinct under name isName ?_
  exact OrderedMap.get?_eq_none_iff.mpr (OrderedMap.contains_eq_false_iff.mp absent)

/-- Only the column that was written for none is dropped. -/
theorem exists_dropEmptyColumn (keeps : KeepsKind related) (distinct : grid.columns.Distinct)
    (notBare : ¬ IsBare grid) : ∃ columns : Columns,
      dropEmptyColumn written.back = { written.back with columns } ∧
      ColumnsRelated related columns.items grid.columns.items := by
  by_cases none : grid.columns.items = []
  · have relates := written.columnsRelated
    rw [shownColumns, if_pos none] at relates
    obtain ⟨⟨name, held⟩, others, ⟨sameName, noTags⟩, nothing, shape⟩ :=
      List.forall₂_cons_right_iff.mp relates
    rw [List.forall₂_nil_right_iff.mp nothing] at shape
    obtain rfl : name = emptyColumn := sameName
    have heldNone : held.items = [] := List.forall₂_nil_right_iff.mp noTags
    refine ⟨.empty, ?_, by rw [none]; exact .nil⟩
    simp [dropEmptyColumn, written.rows_back_of_none none, GridOf.removeColumn]
    simp [back, shape, OrderedMap.isEmpty, heldNone, OrderedMap.erase, OrderedMap.empty]
  · refine ⟨written.back.columns, ?_, ?_⟩
    · unfold dropEmptyColumn
      split
      · next name held shape =>
        refine if_neg fun isEmpty => notBare ?_
        simp only [Bool.and_eq_true, beq_iff_eq, OrderedMap.isEmpty, List.isEmpty_iff,
          Bool.not_eq_true', List.any_eq_false, Bool.not_eq_true] at isEmpty
        obtain ⟨⟨rfl, noTags⟩, absent⟩ := isEmpty
        have relates := written.columnsRelated
        rw [shownColumns_of_ne none, show written.columns = [(emptyColumn, held)] from shape] at relates
        obtain ⟨⟨other, tags⟩, others, ⟨sameName, heldTags⟩, nothing, columns⟩ :=
          List.forall₂_cons_left_iff.mp relates
        rw [List.forall₂_nil_left_iff.mp nothing] at columns
        obtain rfl : emptyColumn = other := sameName
        rw [noTags] at heldTags
        obtain ⟨items⟩ := tags
        obtain rfl : items = [] := List.forall₂_nil_left_iff.mp heldTags
        refine ⟨columns, fun row member => ?_⟩
        obtain ⟨back, inBack, cells, rfl, relates⟩ :=
          Pairing.exists_mem_of_forall₂ (written.rows_back_of_some none).flip member
        refine valueOf_of_not_contains keeps distinct relates ?_ (absent _ inBack)
        simp [OrderedMap.keys, columns]
      · rfl
    · have relates := written.columnsRelated
      rwa [shownColumns_of_ne none] at relates

/-! ### Grids as values, and whole texts -/

variable (keeps : KeepsKind related) (proper : grid.version.IsProper)
  (distinct : HasDistinctNames grid) (within : grid.Within)

include keeps proper distinct within

/-- Between brackets the lines are read as a value. -/
theorem readable_brackets (newDialect : dialect.IsAtLeastThree) :
    Readable dialect ("<<" ++ written.text ++ ">>") (.grid (dropEmptyColumn written.back)) := by
  refine readable_of_reaches ⟨'<', by simp, rfl⟩ fun value reaches rest follows => ?_
  have shape : ("<<" ++ written.text ++ ">>").toList =
      "<<".toList ++ (written.text.toList ++ ">>".toList) := by simp
  have open_ : ∃ more, ("<<" ++ written.text ++ ">>").toList ++ rest = '<' :: more :=
    ⟨_, by rw [shape]; rfl⟩
  obtain ⟨more, head⟩ := open_
  have inside : Reaches dialect value written.text.toList.length := by
    refine reaches.mono ?_
    rw [shape]
    simp only [List.length_append]
    have bracket : "<<".toList.length = 2 := rfl
    omega
  obtain ⟨tail, start⟩ := written.starts
  have noSpace : Stops isSpace (written.text.toList ++ (">>".toList ++ rest)) := by
    rw [start]
    exact stops_cons.mpr rfl
  have noLine : Fails newline (written.text.toList ++ (">>".toList ++ rest)) := by
    rw [start]
    refine Reads.skip_fails (Fails.optional (fails_char (by simp))) (Fails.bind (fails_char (by simp)))
  have bracket : Passes (valueAround value dialect) (innerGrid value dialect)
      (("<<" ++ written.text ++ ">>").toList ++ rest) := by
    rw [head]
    refine (passes_bracket (.inr (.inr rfl))).trans ?_
    refine Passes.trans (Fails.passes ?_) (Fails.passes ?_)
    · exact Fails.named (fails_here_bind fun _ => Fails.bind (fails_char (by simp)))
    · exact Fails.named (fails_here_bind fun _ => Fails.bind (fails_char (by simp)))
  refine bracket.takes (Takes.named (takes_here_bind fun offset => ?_))
  rw [shape]
  refine Reads.bind (reads_word "<<") (Reads.skip (a := ()) ?_ (Reads.skip (a := none) ?_ ?_))
  · rw [List.append_assoc]
    exact reads_spaces_nil noSpace
  · rw [List.append_assoc]
    exact Fails.optional noLine
  refine Takes.bind (written.takes_draft keeps proper distinct within inside (.inr ⟨rest, rfl⟩))
    fun draft read => ?_
  refine Reads.last (reads_word ">>") ?_
  rw [read, requireThree, if_neg fun below => newDialect (beq_iff_eq.mp below)]
  exact reads_pure

/-- Alone the lines are read in the dialect of their version. -/
theorem readGrid_text (nearest : ∀ read : Version, read.groups = grid.version.groups →
    read.nearest = dialect) : readGrid written.text = .ok (dropEmptyColumn written.back) := by
  obtain ⟨more, start⟩ := written.starts
  obtain ⟨header, read, isHeader, isRead, groups⟩ := exists_headerVersion? proper more
  have reads : Reads (Zinc.grid dialect) written.text.toList [] (.ok (dropEmptyColumn written.back)) := by
    refine Takes.named (Takes.last (written.takes_draft keeps proper distinct within
      (reaches_value _) (.inl rfl)) ?_)
    exact fun draft isGrid => isGrid ▸ reads_pure
  rw [readGrid, readGridChars, start, isHeader, ← start]
  simp only [bind, Except.bind, Version.read, isRead, nearest read groups]
  rw [readWhole, readAll_of_reads reads]

end GridLines

end Haystack.Zinc
