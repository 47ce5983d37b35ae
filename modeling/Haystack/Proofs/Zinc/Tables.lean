import Haystack.Proofs.Zinc.Values

/-!
Grids whose values have texts, and what the lines of their texts are read as.

The columns come back with near metadata. Each row is written as cells under all columns, so that a
row comes back with near values, less its nulls.
-/
namespace Haystack.Zinc

open Phrase
open Value (TagsRelated ColumnsRelated KeepsKind)

variable {value : Phrase (Reading Value)} {dialect version : Version}
  {related : Value → Value → Prop}

/-! ## Columns -/

/-- A text is read as a column by each phrase that goes deep enough. -/
def ReadableColumn (dialect : Version) (text : String) (item : String × Metadata) : Prop :=
  ∀ value, Reaches dialect value text.toList.length →
    LegiblePart (column value) text (DraftColumn.States · item)

theorem length_le_withTags (name tags : String) :
    tags.toList.length ≤ (withTags name tags).toList.length := by
  unfold withTags
  split
  · next none =>
    rw [String.isEmpty_iff.mp none]
    simp
  · simp only [String.toList_append, List.length_append]
    omega

theorem readableColumn {name : String} {texts : List String} {backs : List (String × Value)}
    (isName : isTagName name = true) (readable : List.Forall₂ (ReadableTag dialect) texts backs) :
    ReadableColumn dialect (withTags name (String.intercalate " " texts)) (name, ⟨backs⟩) := by
  intro value reaches
  refine legibleColumn isName (forall₂_of_reaches reaches readable fun text member => ?_)
  exact Nat.le_trans (Text.length_le_intercalate member " ") (length_le_withTags name _)

theorem exists_writeColumnItems {items : List (String × Metadata)} (keeps : KeepsKind related)
    (names : ∀ item ∈ items, isTagName item.1 = true)
    (tags : ∀ item ∈ items, ∀ name ∈ item.2.keys, isTagName name = true)
    (rereads : ∀ item ∈ items, ∀ held ∈ item.2.values, Rereads related dialect version held) :
    ∃ written backs, writeColumnItems items version = .ok written ∧
      written.map (·.1) = items.map (·.1) ∧
      List.Forall₂ (ReadableColumn dialect) (written.map fun item => withTags item.1 item.2) backs ∧
      ColumnsRelated related backs items := by
  induction items with
  | nil => exact ⟨[], [], rfl, rfl, .nil, .nil⟩
  | cons item items ih =>
      obtain ⟨name, metadata⟩ := item
      rw [List.forall_mem_cons] at names tags rereads
      obtain ⟨texts, held, writtenTags, areReadable, areRelated⟩ :=
        exists_writeTags keeps tags.1 rereads.1
      obtain ⟨written, backs, others, sameNames, columns, relates⟩ := ih names.2 tags.2 rereads.2
      refine ⟨(name, String.intercalate " " texts) :: written, (name, ⟨held⟩) :: backs, ?_, ?_,
        .cons (readableColumn names.1 areReadable) columns, .cons ⟨rfl, areRelated⟩ relates⟩
      · rw [writeColumnItems, writtenTags, others]
        rfl
      · rw [List.map_cons, List.map_cons, sameNames]

/-- The columns that are written: one that stands for none where there are none. -/
def shownColumns (columns : Columns) : Columns :=
  if columns.items = [] then ⟨[(emptyColumn, .empty)]⟩ else columns

theorem shownColumns_of_ne {columns : Columns} (some : columns.items ≠ []) :
    shownColumns columns = columns := if_neg some

/-! ## Rows -/

/-- A text is read as a cell by each phrase that goes deep enough. -/
def ReadableCell (dialect : Version) (text : String) (cell : Option Value) : Prop :=
  ∀ value, Reaches dialect value text.toList.length → LegibleCell value text cell

/-- A text is read as a row of cells by each phrase that goes deep enough. -/
def ReadableLine (dialect : Version) (line : String) (cells : List (Option Value)) : Prop :=
  ∀ value, Reaches dialect value line.toList.length → LegibleLine value line cells

/-- The cells under some columns hold what is related to the tags of a row. -/
def CellsRelated (related : Value → Value → Prop) (names : List String) (cells : List (Option Value))
    (row : Entity) : Prop :=
  List.Forall₂ (fun name cell => related (cell.getD .null) (row.valueOf name)) names cells

/-- The cells under some columns hold what is near to the tags of a row. -/
abbrev CellsNear : List String → List (Option Value) → Entity → Prop :=
  CellsRelated fun back value => Value.near back value = true

theorem Readable.cell {text : String} {back : Value} (readable : Readable dialect text back) :
    ReadableCell dialect text (some back) := fun _ reaches =>
  .present text back (reaches.legible text back (Nat.le_refl _) readable)

theorem writeCells_eq (items : List (String × Value)) :
    writeCells items version = items.map fun item => (item.1, writeValue item.2 version) := by
  induction items with
  | nil => rfl
  | cons item items ih => rw [writeCells, ih, List.map_cons]

/-- The text of the cell of a row under a column. -/
def cellText (names : List String) (tags : List (String × Except Error String)) (name : String) :
    Except Error String :=
  (tags.lookup name).getD (.ok (if 1 < names.length then "" else "N"))

theorem rowText_eq (names : List String) (tags : List (String × Except Error String)) :
    rowText names tags = (names.mapM (cellText names tags)).map (String.intercalate ",") := by
  refine congrArg (Except.map (String.intercalate ",")) (congrArg names.mapM (funext fun name => ?_))
  unfold cellText
  cases tags.lookup name <;> rfl

/-- A line is no end of rows if it has more than one empty cell. -/
theorem isLine_of_cells {texts : List String} {cells : List (Option Value)}
    (legible : List.Forall₂ (LegibleCell value) texts cells) (nonempty : texts ≠ [])
    (notBlank : cells ≠ [none]) : IsLine (String.intercalate "," texts).toList := by
  cases legible with
  | nil => exact absurd rfl nonempty
  | @cons first cell texts cells here others =>
      rw [show "," = String.singleton ',' from rfl, Text.toList_intercalate_char]
      cases here with
      | missing =>
          cases others with
          | nil => exact absurd rfl notBlank
          | cons here others => exact ⟨',', _, rfl, by decide⟩
      | present text back legible =>
          obtain ⟨c, isHead, isStart⟩ := legible.starts
          obtain ⟨more, shape⟩ : ∃ more, first.toList = c :: more := by
            cases chars : first.toList with
            | nil => simp [chars] at isHead
            | cons d more =>
                rw [chars] at isHead
                exact ⟨more, by rw [Option.some.inj isHead]⟩
          refine ⟨c, _, by rw [shape]; rfl, ?_⟩
          rintro rfl
          exact absurd isStart (by decide)

theorem exists_rowText {names : List String} {row : Entity} (nonempty : names ≠ [])
    (nulls : related .null .null)
    (rereads : ∀ held ∈ row.values, Rereads related dialect version held) :
    ∃ line cells, rowText names (writeCells row.items version) = .ok line ∧
      ReadableLine dialect line cells ∧ IsRow names cells ∧ CellsRelated related names cells row := by
  -- In a grid with one column no cell is empty.
  have each : ∀ name ∈ names, ∃ text cell,
      cellText names (writeCells row.items version) name = .ok text ∧ ReadableCell dialect text cell ∧
      related (cell.getD .null) (row.valueOf name) ∧ (cell = none → 1 < names.length) := by
    intro name _
    rw [cellText, writeCells_eq, OrderedMap.lookup_map row.items (writeValue · version), show (⟨row.items⟩ : Entity) = row from rfl]
    cases found : row.get? name with
    | some held =>
        obtain ⟨text, back, written, relates, readable⟩ :=
          rereads held (OrderedMap.mem_values_of_get? found)
        refine ⟨text, some back, written, readable.cell, ?_, fun none => absurd none (Option.some_ne_none _)⟩
        rwa [Option.getD_some, Entity.valueOf_eq found]
    | none =>
        have isNull : row.valueOf name = .null := by simp [Entity.valueOf, found]
        rw [isNull]
        by_cases several : 1 < names.length
        · exact ⟨"", none, by rw [if_pos several]; rfl, fun _ _ => .missing, nulls, fun _ => several⟩
        · have readable : Readable dialect "N" .null := readable_of_reads fun _ _ follows => reads_null follows
          exact ⟨"N", some .null, by rw [if_neg several]; rfl, readable.cell, nulls, fun none => absurd none (Option.some_ne_none _)⟩
  obtain ⟨texts, cells, written, areReadable, areRelated⟩ := Pairing.exists_mapM each
  have sizes := areRelated.length_eq
  have isRow : IsRow names cells := by
    refine ⟨sizes.symm.le, ?_⟩
    rintro rfl
    cases areRelated with
    | cons here others =>
        have several := here.2 rfl
        rw [sizes] at several
        exact absurd several (by decide)
  have someTexts : texts ≠ [] := by
    rintro rfl
    rw [List.forall₂_nil_left_iff.mp areReadable] at sizes
    exact nonempty (List.length_eq_zero_iff.mp sizes)
  refine ⟨String.intercalate "," texts, cells, by rw [rowText_eq, written]; rfl, ?_, isRow,
    areRelated.imp fun _ _ relates => relates.1⟩
  intro value reaches
  have legible := forall₂_of_reaches reaches areReadable fun text member =>
    Text.length_le_intercalate member ","
  exact ⟨(isLine_of_cells legible someTexts isRow.2).append _, fun rest =>
    takes_row reaches.separated someTexts legible⟩

/-- In a grid without columns the line of a row is blank, and is read as one with an empty cell. -/
theorem readableLine_blank : ReadableLine dialect "" [none] := by
  intro value reaches
  refine ⟨⟨'\n', [], rfl, by decide⟩, fun rest => ?_⟩
  exact @takes_row _ _ [""] _ reaches.separated (by simp) (.cons .missing .nil)

theorem writeRows_eq (rows : List Entity) :
    writeRows rows version = rows.map fun row => writeCells row.items version := by
  induction rows with
  | nil => rfl
  | cons row rows ih =>
      obtain ⟨items⟩ := row
      rw [writeRows, ih]
      rfl

/-- The line of a row under some columns, or a blank one where there are no columns. -/
def RowRelated (related : Value → Value → Prop) (names : List String) (row : Entity)
    (cells : List (Option Value)) : Prop :=
  if names = [] then cells = [none] else IsRow names cells ∧ CellsRelated related names cells row

/-- The rows come back in order, each as cells related to its tags. -/
theorem exists_rowLines {names : List String} {rows : List Entity} (nulls : related .null .null)
    (rereads : ∀ row ∈ rows, ∀ held ∈ row.values, Rereads related dialect version held) :
    ∃ lines cells, rowLines names (writeRows rows version) =
        .ok (String.join (lines.map (· ++ "\n"))) ∧
      List.Forall₂ (ReadableLine dialect) lines cells ∧
      List.Forall₂ (RowRelated related names) rows cells := by
  have each : ∀ row ∈ rows, ∃ line cells, rowText names (writeCells row.items version) = .ok line ∧
      ReadableLine dialect line cells ∧ RowRelated related names row cells := by
    intro row member
    unfold RowRelated
    split
    · next none =>
      exact ⟨"", [Option.none], by rw [none]; rfl, readableLine_blank, rfl⟩
    · next some => exact exists_rowText some nulls (rereads row member)
  obtain ⟨lines, cells, written, areReadable, areRelated⟩ := Pairing.exists_mapM each
  refine ⟨lines, cells, ?_, areReadable, areRelated⟩
  have fed : (writeRows rows version).mapM (fun row => (rowText names row).map (· ++ "\n")) =
      .ok (lines.map (· ++ "\n")) := by
    rw [writeRows_eq, List.mapM_map]
    exact Pairing.mapM_map_ok written _
  rw [rowLines, fed]
  rfl

/-- A row that comes back as near cells comes back near, with or without its nulls. -/
theorem CellsNear.nearEntity {names : List String} {cells : List (Option Value)} {row : Entity}
    (near : CellsNear names cells row)
    (namesDistinct : names.Nodup) (distinct : row.Distinct)
    (declared : ∀ name ∈ row.keys, name ∈ names) :
    Value.nearEntity (entityOf names cells) row = true := by
  have same (cell : Option Value) : (cell.filter (!·.isNull)).getD .null = cell.getD .null := by
    cases cell with
    | none => rfl
    | some held => cases held <;> rfl
  refine Value.nearEntity_ofCells namesDistinct distinct declared ?_
  rw [List.forall₂_map_right_iff]
  exact near.imp fun name cell here => by rwa [same]

end Haystack.Zinc
