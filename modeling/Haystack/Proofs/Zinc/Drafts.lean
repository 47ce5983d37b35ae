import Haystack.Proofs.Grid.Evolution
import Haystack.Proofs.Value.Equality
import Haystack.Proofs.Version
import Haystack.Proofs.Zinc.Lines

/-!
The grid that is made of the lines of a text.

Where every value fits the version no change is refused: the grid has the version, metadata and columns
that the lines state, and a row for each line of cells that is not blank. From version 3.0 on every value
fits.
-/
namespace Haystack.Zinc

variable {grid : Grid} {version : Version}

theorem fits_of_isAtLeastThree (atLeast : version.IsAtLeastThree) (value : Value) :
    value.fits version = true := by
  have fits : (compare version .three != .lt) = true := bne_iff_ne.mpr atLeast
  cases value <;> first | rfl | exact fits

theorem edited_ok {edit : Edit Unit} {after : Grid} (applied : edit.apply grid = (.ok (), after)) :
    edited grid edit = .ok after := by
  rw [edited, applied]

/-! ## Columns -/

theorem addColumns_ok {columns : List (String × Metadata)} {drafts : List DraftColumn}
    (stated : List.Forall₂ (fun column draft => DraftColumn.States draft column) columns drafts)
    (fits : ∀ column ∈ columns, ∀ value ∈ column.2.values, value.fits grid.version = true)
    (distinct : (⟨grid.columns.items ++ columns⟩ : Columns).Distinct)
    (keyed : ∀ column ∈ columns, column.2.Distinct) :
    addColumns grid drafts = .ok { grid with columns := ⟨grid.columns.items ++ columns⟩ } := by
  induction stated generalizing grid with
  | nil => simp [addColumns]
  | @cons column draft columns drafts first others ih =>
      obtain ⟨name, metadata⟩ := column
      obtain ⟨sameName, sameMetadata⟩ := first
      rw [List.forall_mem_cons] at keyed fits
      have fresh := OrderedMap.not_mem_keys_of_distinct distinct
      have added := GridOf.addColumn_apply fits.1 fresh
      rw [addColumns, sameMetadata, readTags_ok, sameName]
      simp only [bind, Except.bind]
      rw [OrderedMap.ofList_items keyed.1, added]
      have later : (⟨grid.columns.items ++ [(name, metadata)] ++ columns⟩ : Columns).Distinct := by
        simpa using distinct
      have rest := @ih { grid with columns := ⟨grid.columns.items ++ [(name, metadata)]⟩ } fits.2
        later keyed.2
      simpa using rest

/-! ## Rows -/

/-- The row that cells give, of which the empty and the null ones give no tag. -/
def entityOf (names : List String) (cells : List (Option Value)) : Entity :=
  .ofCells names (cells.map (·.filter (!·.isNull)))

theorem items_entityOf_cons (name : String) (names : List String) (cell : Option Value)
    (cells : List (Option Value)) : (entityOf (name :: names) (cell :: cells)).items =
      ((cell.filter (!·.isNull)).map (name, ·)).toList ++ (entityOf names cells).items :=
  OrderedMap.items_ofCells_cons name names _ _

theorem distinct_entityOf {names : List String} (distinct : names.Nodup)
    (cells : List (Option Value)) : (entityOf names cells).Distinct :=
  OrderedMap.distinct_ofCells distinct _

theorem readCells_ok {offset limit : Nat} {row : Entity} {names : List String}
    {cells : List (Option Value)} (sizes : cells.length ≤ names.length)
    (fresh : (row.keys ++ names).Nodup) :
    readCells offset limit row names (cells.map (·.map .ok)) =
      .ok ⟨row.items ++ (entityOf names cells).items⟩ := by
  induction cells generalizing row names with
  | nil => simp [readCells, entityOf, OrderedMap.ofCells]
  | cons cell cells ih =>
      obtain ⟨name, names, rfl⟩ : ∃ name others, names = name :: others := by
        cases names with
        | nil => simp at sizes
        | cons name names => exact ⟨name, names, rfl⟩
      have absent := OrderedMap.not_mem_keys_of_nodup fresh
      have later : (row.keys ++ names).Nodup :=
        ((List.sublist_cons_self name names).append_left row.keys).nodup fresh
      have shorter : cells.length ≤ names.length := by simpa using sizes
      cases cell with
      | none =>
          rw [List.map_cons, Option.map_none, readCells, ih shorter later, items_entityOf_cons]
          rfl
      | some value =>
          rw [List.map_cons, Option.map_some, readCells]
          simp only [bind, Except.bind]
          by_cases isNull : value.isNull = true
          · rw [if_pos isNull, ih shorter later, items_entityOf_cons]
            simp [Option.filter_some, isNull]
          · have inserted : row.insert name value = ⟨row.items ++ [(name, value)]⟩ := by
              rw [OrderedMap.insert, if_neg (by rwa [OrderedMap.contains_eq_true_iff])]
            have still : ((⟨row.items ++ [(name, value)]⟩ : Entity).keys ++ names).Nodup := by
              simpa [OrderedMap.keys] using fresh
            rw [if_neg isNull, inserted, ih shorter still, items_entityOf_cons]
            simp [Option.filter_some, isNull]

/-- Whether cells may stand on a line of their own. -/
def IsRow (names : List String) (cells : List (Option Value)) : Prop :=
  cells.length ≤ names.length ∧ cells ≠ [none]

/-- Whether nothing stands on a line. -/
def isBlankLine : List (Option Value) → Bool
  | [none] => true
  | _ => false

theorem isBlankLine_iff {cells : List (Option Value)} : isBlankLine cells = true ↔ cells = [none] := by
  unfold isBlankLine
  split <;> simp_all

/-- The rows that lines of cells give, of which the blank ones give none. -/
def entitiesOf (names : List String) (lines : List (List (Option Value))) : List Entity :=
  (lines.filter fun cells => !isBlankLine cells).map (entityOf names)

theorem entitiesOf_of_isRow {names : List String} {lines : List (List (Option Value))}
    (areRows : ∀ cells ∈ lines, IsRow names cells) :
    entitiesOf names lines = lines.map (entityOf names) := by
  rw [entitiesOf, List.filter_eq_self.mpr fun cells member => ?_]
  simpa [← isBlankLine_iff] using (areRows cells member).2

theorem DraftRow.States.isBlank {draft : DraftRow} {cells : List (Option Value)}
    (stated : draft.States cells) : draft.isBlank = isBlankLine cells := by
  unfold DraftRow.isBlank
  rw [stated]
  match cells with
  | [] => rfl
  | [none] => rfl
  | [some value] => rfl
  | none :: second :: others => rfl
  | some value :: second :: others => rfl

theorem addRows_ok {names : List String} {rows : List (List (Option Value))} {drafts : List DraftRow}
    (stated : List.Forall₂ (fun cells draft => DraftRow.States draft cells) rows drafts)
    (fits : ∀ row ∈ entitiesOf names rows, ∀ value ∈ row.values, value.fits grid.version = true)
    (distinct : names.Nodup) (sizes : ∀ cells ∈ rows, cells.length ≤ names.length) :
    addRows names grid drafts = .ok (grid.withRows (grid.rows ++ entitiesOf names rows)) := by
  induction stated generalizing grid with
  | nil => simp [addRows, entitiesOf, GridOf.withRows]
  | @cons cells draft rows drafts first others ih =>
      rw [List.forall_mem_cons] at sizes
      rw [addRows, first.isBlank]
      cases blank : isBlankLine cells with
      | true =>
          have skipped : entitiesOf names (cells :: rows) = entitiesOf names rows := by
            simp [entitiesOf, blank]
          rw [skipped] at fits ⊢
          rw [if_pos rfl]
          exact ih fits sizes.2
      | false =>
          have kept : entitiesOf names (cells :: rows) = entityOf names cells :: entitiesOf names rows := by
            simp [entitiesOf, blank]
          rw [kept, List.forall_mem_cons] at fits
          have read := @readCells_ok draft.offset names.length .empty names cells sizes.1
            (by simpa [OrderedMap.keys] using distinct)
          have appended := GridOf.append_apply fits.1
          have stated : draft.cells = cells.map (·.map .ok) := first
          rw [if_neg (by decide), stated, read]
          simp only [bind, Except.bind, OrderedMap.items_empty, List.nil_append]
          rw [show (⟨(entityOf names cells).items⟩ : Entity) = entityOf names cells from rfl,
            edited_ok appended]
          simp only
          have rest := @ih (grid.withRows (grid.rows ++ [entityOf names cells])) fits.2 sizes.2
          rw [rest, kept]
          simp [GridOf.withRows]

/-! ## Whole grids -/

variable {text : String} {metadata : Metadata} {columns : Columns} {rows : List (List (Option Value))}
  {draft : Draft}

/-- The lines give a grid with what they state, less a column that stands for none. -/
theorem Draft.States.grid_eq (stated : draft.States text metadata columns rows)
    (isVersion : Version.read? text = some version)
    (within : (⟨version, true, metadata, columns, entitiesOf columns.keys rows⟩ : Grid).Within)
    (keyed : metadata.Distinct) (distinct : columns.Distinct)
    (columnsKeyed : ∀ held ∈ columns.values, held.Distinct)
    (sizes : ∀ cells ∈ rows, cells.length ≤ columns.keys.length) :
    draft.grid = .ok (dropEmptyColumn
      ⟨version, true, metadata, columns, entitiesOf columns.keys rows⟩) := by
  have names : draft.columns.map (·.name) = columns.keys := by
    have same := stated.columns.imp fun _ _ stated => stated.1.symm
    rw [← List.forall₂_map_right_iff, ← List.forall₂_map_left_iff, List.forall₂_eq_eq_eq] at same
    exact same.symm
  obtain ⟨fits, columnsFit, rowsFit⟩ := GridOf.within_iff.mp within
  have withMetadata := edited_ok (@GridOf.setMetadata_apply (.withVersion version) metadata fits)
  have withColumns := @addColumns_ok { GridOf.withVersion version with metadata }
    columns.items draft.columns stated.columns
    (fun column member => columnsFit column.2 (List.mem_map_of_mem member)) distinct
    (fun column member => columnsKeyed column.2 (List.mem_map_of_mem member))
  have withRows := @addRows_ok { GridOf.withVersion version with metadata, columns }
    columns.keys rows draft.rows stated.rows rowsFit distinct sizes
  rw [Draft.grid, stated.version, stated.metadata, readTags_ok, names]
  simp only [bind, Except.bind, Version.read, isVersion, Except.mapError]
  rw [OrderedMap.ofList_items keyed, withMetadata]
  simp only
  rw [withColumns]
  simp only [GridOf.withVersion, GridOf.new, OrderedMap.items_empty, List.nil_append] at withRows ⊢
  rw [withRows]
  rfl

/-! ## The version that picks the dialect -/

/-- Digits and points stand for themselves in a quoted text. -/
theorem quoteBody_groupsText (groups : List Nat) :
    quoteBody (Version.groupsText groups) = Version.groupsText groups := by
  have plain : ∀ c ∈ Version.groupsText groups, quoteChar c = [c] := by
    intro c member
    have small : 46 ≤ c.toNat ∧ c.toNat ≤ 57 := by
      rcases Version.isGroupChar_of_mem member with isDigit | rfl
      · rw [isDigit_iff] at isDigit
        omega
      · decide
    have known : ∀ n, 46 ≤ n → n ≤ 57 → quoteChar (Char.ofNat n) = [Char.ofNat n] := by decide
    rw [← Char.ofNat_toNat c]
    exact known c.toNat small.1 small.2
  rw [quoteBody, List.flatMap_congr plain, List.flatMap_singleton']

theorem feed_not_mem_quoteBody (text : List Char) : '\n' ∉ quoteBody text := fun member =>
  Bool.noConfusion (not_isControl_of_mem_quoteBody text '\n' member)

/-- What goes on with no group in a text does not do so in its quoted form. -/
theorem stops_quoteBody {text : List Char} (stops : Phrase.Stops Version.isGroupChar text) :
    Phrase.Stops Version.isGroupChar (quoteBody text) := by
  cases text with
  | nil => exact stops
  | cons c rest =>
      rw [Phrase.stops_cons] at stops
      rw [quoteBody, List.flatMap_cons]
      rcases quoteChar_cases c with ⟨letter, _, written, _⟩ | ⟨control, written⟩ | ⟨written, _⟩
      · rw [written]
        exact Phrase.stops_cons.mpr (by decide)
      · obtain ⟨a, b, d, e, escape, _⟩ := unicodeEscape_of_isControl control
        rw [written, escape]
        exact Phrase.stops_cons.mpr (by decide)
      · rw [written]
        exact Phrase.stops_cons.mpr stops

/-- The text of a version is cut at the first quotation mark, which is that of an escape if its extra
text has one; its groups stand before that. -/
theorem exists_headerVersion? (proper : version.IsProper) (more : List Char) :
    ∃ header read,
      headerVersion? ('v' :: 'e' :: 'r' :: ':' :: ((quote version.text).toList ++ more)) = some header ∧
      Version.read? header = some read ∧ read.groups = version.groups := by
  have shape : (quote version.text).toList ++ more = '"' :: (Version.groupsText version.groups ++
      (quoteBody (version.extra.getD "").toList ++ '"' :: more)) := by
    rw [quote_toList, Version.toList_text, quoteBody, List.flatMap_append]
    rw [← quoteBody, quoteBody_groupsText]
    simp [quoteBody]
  have clean : ∀ c ∈ Version.groupsText version.groups, (c == '"') = false := by
    intro c member
    rcases Version.isGroupChar_of_mem member with isDigit | rfl
    · by_contra isQuote
      obtain rfl : c = '"' := by simpa using isQuote
      exact absurd isDigit (by decide)
    · decide
  obtain ⟨before, after, cut, within, _⟩ : ∃ before after, Text.cutFirst? (· == '"')
      (quoteBody (version.extra.getD "").toList ++ '"' :: more) = some (before, after) ∧
        before <+: quoteBody (version.extra.getD "").toList ∧ _ := Text.exists_cutFirst? (by decide)
  have noFeed : '\n' ∉ before.drop 1 := fun member =>
    feed_not_mem_quoteBody _ (within.subset (List.mem_of_mem_drop member))
  have stops : Phrase.Stops Version.isGroupChar before := by
    have whole := stops_quoteBody proper.stops
    obtain ⟨after, same⟩ := within
    rw [← same] at whole
    cases before with
    | nil => simp
    | cons c before => simpa using whole
  refine ⟨_, _, ?_, Version.read?_groupsText proper.nonempty proper.small stops noFeed, rfl⟩
  rw [shape, headerVersion?, Text.cutFirst?_append clean, cut]
  rfl

end Haystack.Zinc
