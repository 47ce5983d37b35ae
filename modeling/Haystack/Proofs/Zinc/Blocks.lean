import Haystack.Proofs.Grid.Writing
import Haystack.Proofs.Zinc.Endings
import Haystack.Proofs.Zinc.Grids
import Haystack.Proofs.Zinc.Solid

/-!
Values and grids that are written without blank lines.

A raw text with line breaks could have a blank line in it, and so could a grid in a value that has rows and
no columns. Nothing else has.
-/
namespace Haystack.Zinc

variable {version : Version} {grid : Grid}

/-- The names in a value itself are words. -/
def IsNamed : Value → Prop
  | .dict tags => ∀ name ∈ tags.keys, isTagName name = true
  | .grid g => HasWordNames g
  | _ => True

/-- Before 3.0, where MIME types are bare, those of a grid have no line breaks. -/
def HasPlainMimes (grid : Grid) : Prop :=
  ¬ grid.version.IsAtLeastThree → ∀ mime, Value.bin mime ∈ grid.values → Unbroken mime.toList

/-- Nothing in a value itself is written with a blank line: raw texts have no line breaks, and a grid has
rows only where it has columns. -/
def IsPlain : Value → Prop
  | .number n => ∀ unit ∈ n.unit, Unbroken unit.toList
  | .xstr x => Unbroken x.encoding.toList
  | .ref r => Unbroken r.name.toList
  | .dateTime d => d.zone.IsKnown
  | .grid g => HasPlainMimes g ∧ (g.columns.items = [] → g.rows = [])
  | _ => True

theorem block_of_isTagName {name : String} (isName : isTagName name = true) : Block name.toList := by
  obtain ⟨first, others, shape, isFirst, areOthers⟩ := exists_of_isTagName isName
  rw [shape]
  refine Unbroken.block ?_ ⟨first, List.mem_cons_self, ?_⟩
  · refine unbroken_of_class isIdChar rfl rfl (List.forall_mem_cons.mpr ⟨?_, areOthers⟩)
    exact isIdChar_of_isNameStart isFirst
  · exact isVisible_of_class isNameStart rfl rfl rfl rfl isFirst

theorem block_number {n : Number} (unit : ∀ unit ∈ n.unit, Unbroken unit.toList) :
    Block (numberText n).toList := by
  have magnitude : Block (magnitudeText n.magnitude).toList :=
    block_write (Unbroken.block_of_any (by decide) (by decide))
      (fun negative => by cases negative <;> exact Unbroken.block_of_any (by decide) (by decide)) n.magnitude
  rw [numberText, String.toList_append]
  refine magnitude.append (Unbroken.solid ?_)
  cases isUnit : n.unit with
  | none => exact fun _ none => (List.not_mem_nil none).elim
  | some name => exact unit name isUnit

theorem block_ref {r : Ref} (name : Unbroken r.name.toList) : Block (referenceText r).toList := by
  have mark : Block ("@" ++ r.name).toList := by
    rw [String.toList_append]
    exact (Unbroken.block_of_any (by decide) (by decide)).append name.solid
  unfold referenceText
  cases r.display with
  | none => exact mark
  | some display =>
      simp only [String.toList_append] at mark ⊢
      exact (mark.append (Unbroken.solid (by decide))).append (unbroken_quote display).solid

theorem block_dateTime {moment : DateTime} (known : moment.zone.IsKnown) :
    Block (dateTimeText moment).toList := by
  have iso : Unbroken (moment.rfc3339 true).toList := by
    simp only [DateTime.rfc3339, String.toList_append, unbroken_append_iff]
    refine ⟨⟨⟨unbroken_dateText _, by decide⟩, unbroken_timeText _⟩, ?_⟩
    split
    · decide
    · exact unbroken_offsetText _
  simp only [dateTimeText, String.toList_append]
  refine Unbroken.block ?_ ⟨'T', by simp [DateTime.rfc3339], rfl⟩
  simp only [unbroken_append_iff]
  exact ⟨⟨iso, by decide⟩, unbroken_shortName known⟩

/-- Parts of a text, one of them with a line of its own. -/
theorem block_bracketed {opening closing : String} (opens : Block opening.toList) {text : String}
    (solid : Solid text.toList) (closes : Solid closing.toList) :
    Block (opening ++ text ++ closing).toList := by
  simp only [String.toList_append]
  exact (opens.append solid).append closes

theorem block_bin {mime : String} (bare : ¬ version.IsAtLeastThree → Unbroken mime.toList) :
    Block (binText mime version).toList := by
  have bracketed {text : String} (unbroken : Unbroken text.toList) : Block ("Bin(" ++ text ++ ")").toList :=
    block_bracketed (Unbroken.block_of_any (by decide) (by decide)) unbroken.solid (Unbroken.solid (by decide))
  unfold binText
  split
  · exact bracketed (unbroken_quote mime)
  · next below => exact bracketed (bare fun atLeast => below (bne_iff_ne.mpr atLeast))

/-- A value without parts is written on one line. -/
theorem block_of_leaf {value : Value} {text : String} (plain : IsPlain value) (leaf : value.IsLeaf)
    (bare : ¬ version.IsAtLeastThree → ∀ mime, value = .bin mime → Unbroken mime.toList)
    (written : writeValue value version = .ok text) : Block text.toList := by
  cases value with
  | na =>
      obtain ⟨_, _, rfl⟩ := Outcome.of_map written
      exact Unbroken.block_of_any (by decide) (by decide)
  | list items => exact leaf.elim
  | dict tags => exact leaf.elim
  | grid g => exact leaf.elim
  | null | marker | remove =>
      obtain rfl := Except.ok.inj written
      exact Unbroken.block_of_any (by decide) (by decide)
  | bool b =>
      obtain rfl := Except.ok.inj written
      cases b <;> exact Unbroken.block_of_any (by decide) (by decide)
  | number n => exact Except.ok.inj written ▸ block_number plain
  | str s =>
      obtain rfl := Except.ok.inj written
      exact (unbroken_quote s).block ⟨'"', by simp [quote_toList], rfl⟩
  | uri s =>
      obtain rfl := Except.ok.inj written
      exact (unbroken_quoteUri s).block ⟨'\x60', by simp [quoteUri_toList], rfl⟩
  | bin mime => exact Except.ok.inj written ▸ block_bin fun below => bare below mime rfl
  | xstr x =>
      obtain rfl := Except.ok.inj written
      refine Unbroken.block ?_ ⟨'(', by simp, rfl⟩
      simp only [String.toList_append, unbroken_append_iff]
      exact ⟨⟨⟨plain, by decide⟩, unbroken_quote _⟩, by decide⟩
  | ref r => exact Except.ok.inj written ▸ block_ref plain
  | date d =>
      obtain rfl := Except.ok.inj written
      exact (unbroken_dateText d).block ⟨'-', by simp [Date.text], rfl⟩
  | time t =>
      obtain rfl := Except.ok.inj written
      exact (unbroken_timeText t).block ⟨':', by simp [TimeOfDay.text], rfl⟩
  | dateTime d => exact Except.ok.inj written ▸ block_dateTime plain
  | coord c =>
      obtain rfl := Except.ok.inj written
      simp only [String.toList_append]
      exact ((((Unbroken.block_of_any (by decide) (by decide)).append (block_degreesText _).toSolid).append
        (Unbroken.solid (by decide))).append (block_degreesText _).toSolid).append (Unbroken.solid (by decide))

/-! ### Tags and rows -/

/-- Each of some values is written without a blank line. -/
def WritesBlocks (version : Version) (values : List Value) : Prop :=
  ∀ value ∈ values, ∀ text, writeValue value version = .ok text → Block text.toList

theorem block_of_writeTags {tags : OrderedMap Value} {texts : List String}
    (names : ∀ name ∈ tags.keys, isTagName name = true) (values : WritesBlocks version tags.values)
    (written : writeTags tags version = .ok texts) : ∀ text ∈ texts, Block text.toList := by
  intro text member
  rw [writeTags, writeItems_eq] at written
  obtain ⟨⟨name, value⟩, inItems, made⟩ := Outcome.of_mapM written member
  obtain ⟨valueText, isText, rfl⟩ := Outcome.of_map made
  have block := values value (List.mem_map_of_mem inItems) valueText isText
  have isName := block_of_isTagName (names name (List.mem_map_of_mem inItems))
  unfold tagText
  split
  · exact isName
  · exact block_bracketed isName (Unbroken.solid (by decide)) block.toSolid

theorem block_withTags {name : String} {texts : List String} (isName : Block name.toList)
    (tags : ∀ text ∈ texts, Block text.toList) :
    Block (withTags name (String.intercalate " " texts)).toList := by
  unfold withTags
  split
  · exact isName
  · refine block_bracketed isName (Unbroken.solid (by decide)) ?_
    exact solid_intercalate (Unbroken.solid (by decide)) fun text member => (tags text member).toSolid

theorem block_of_writeColumns {written : List (String × String)}
    (names : HasWordNames grid) (values : WritesBlocks version grid.values)
    (isWritten : writeColumns grid.columns version = .ok written) : Block (columnLine written).toList := by
  have each : ∀ column ∈ written, Block (withTags column.1 column.2).toList := by
    intro column member
    rw [writeColumns, writeColumnItems_eq] at isWritten
    obtain ⟨⟨name, metadata⟩, inItems, made⟩ := Outcome.of_mapM isWritten member
    obtain ⟨texts, areTexts, rfl⟩ := Outcome.of_map made
    have held := List.mem_map_of_mem (f := Prod.snd) inItems
    refine block_withTags (block_of_isTagName (names.columns name (List.mem_map_of_mem inItems))) ?_
    refine block_of_writeTags (names.columnMetadata metadata held) ?_ areTexts
    exact fun value inside => values value (GridOf.mem_values_of_column held inside)
  unfold columnLine
  split
  · exact Unbroken.block_of_any (by decide) (by decide)
  · next some =>
    have filled : ∀ text ∈ written.map fun column => withTags column.1 column.2, Block text.toList := by
      intro text member
      obtain ⟨column, inWritten, rfl⟩ := List.mem_map.mp member
      exact each column inWritten
    refine block_intercalate (Unbroken.block_of_any (by decide) (by decide))
      (fun text member => .inl (filled text member))
      (by simpa using some) fun blank => ?_
    obtain ⟨_, _, _, none, _⟩ := (filled "" (blank ▸ List.mem_singleton_self "")).shows
    simp at none

/-- In a grid with columns the line of a row is not blank. -/
theorem block_of_rowText {names : List String} {row : Entity} {line : String} (nonempty : names ≠ [])
    (values : WritesBlocks version row.values)
    (written : rowText names (writeCells row.items version) = .ok line) : Block line.toList := by
  rw [rowText_eq] at written
  obtain ⟨cells, areCells, rfl⟩ := Outcome.of_map written
  have each : ∀ cell ∈ cells, Block cell.toList ∨ cell = "" ∧ 1 < names.length := by
    intro cell member
    obtain ⟨name, _, made⟩ := Outcome.of_mapM areCells member
    rw [cellText, writeCells_eq, OrderedMap.lookup_map row.items (writeValue · version)] at made
    cases found : (⟨row.items⟩ : Entity).get? name with
    | some value =>
        rw [found] at made
        exact .inl (values value (OrderedMap.mem_values_of_get? found) cell made)
    | none =>
        rw [found] at made
        obtain rfl := Except.ok.inj made
        by_cases several : 1 < names.length
        · exact .inr ⟨if_pos several, several⟩
        · rw [if_neg several]
          exact .inl (Unbroken.block_of_any (by decide) (by decide))
  have sizes := (Outcome.mapM_ok_iff.mp areCells).length_eq
  refine block_intercalate (Unbroken.block_of_any (by decide) (by decide))
    (fun cell member => (each cell member).imp_right And.left) ?_ ?_
  · rintro rfl
    exact nonempty (List.length_eq_zero_iff.mp sizes)
  · rintro rfl
    rcases each "" (List.mem_singleton_self "") with block | ⟨_, several⟩
    · obtain ⟨_, _, _, none, _⟩ := block.shows
      simp at none
    · exact absurd (sizes ▸ several) (by decide)

/-! ### Grids -/

theorem keys_of_writeColumns {columns : Columns} {written : List (String × String)}
    (isWritten : writeColumns columns version = .ok written) : written.map (·.1) = columns.keys := by
  rw [writeColumns, writeColumnItems_eq, Outcome.mapM_ok_iff] at isWritten
  rw [OrderedMap.keys, ← List.forall₂_eq_eq_eq, List.forall₂_map_left_iff, List.forall₂_map_right_iff]
  refine isWritten.flip.imp fun column item made => ?_
  obtain ⟨_, _, rfl⟩ := Outcome.of_map made
  rfl

theorem exists_lines {names : List String} {rows : List Entity} {text : String}
    (written : rowLines names (writeRows rows version) = .ok text) : ∃ lines,
      rows.mapM (fun row => rowText names (writeCells row.items version)) = .ok lines ∧
      text = String.join (lines.map (· ++ "\n")) := by
  obtain ⟨fed, areFed, joined⟩ := Outcome.of_bind written
  obtain rfl := Except.ok.inj joined
  rw [writeRows_eq, List.mapM_map] at areFed
  obtain ⟨lines, areLines, rfl⟩ := Outcome.of_mapM_map areFed
  exact ⟨lines, areLines, rfl⟩

/-- Without columns each row is a line feed. -/
theorem join_blank_lines {rows : List Entity} {lines : List String}
    (areLines : rows.mapM (fun row => rowText [] (writeCells row.items version)) = .ok lines) :
    (String.join (lines.map (· ++ "\n"))).toList = lineFeeds rows.length := by
  rw [Text.toList_join_lines]
  induction Outcome.mapM_ok_iff.mp areLines with
  | nil => rfl
  | cons blank others ih =>
      obtain rfl := Except.ok.inj blank
      rw [List.flatMap_cons, ih (Outcome.mapM_ok_iff.mpr others)]
      rfl

/-- A text is a block that starts like a grid, with some line feeds behind it. -/
structure HasBody (text : String) (body : List Char) (feeds : Nat) : Prop where
  parts : text.toList = body ++ lineFeeds feeds
  block : Block body
  starts : body.head? = some 'v'

/-- The line of the version and the metadata. -/
theorem block_header {tags : List String} (version : Version) (areTags : ∀ text ∈ tags, Block text.toList) :
    Block (withTags ("ver:" ++ quote version.text) (String.intercalate " " tags)).toList ∧
      (withTags ("ver:" ++ quote version.text) (String.intercalate " " tags)).toList.head? = some 'v' := by
  have mark : Block ("ver:" ++ quote version.text).toList := by
    rw [String.toList_append]
    exact (Unbroken.block_of_any (by decide) (by decide)).append (unbroken_quote _).solid
  refine ⟨block_withTags mark areTags, ?_⟩
  unfold withTags
  split <;> simp

/-- A written grid has no blank line but at its end, for rows without columns. -/
theorem exists_hasBody {text : String} (names : HasWordNames grid)
    (values : WritesBlocks grid.version grid.values) (written : writeGrid grid = .ok text) :
    ∃ body count, HasBody text body (count + 1) ∧
      ((grid.columns.items = [] → grid.rows = []) → count = 0) := by
  obtain ⟨version, pinned, metadata, columns, rows⟩ := grid
  obtain ⟨tags, areTags, written⟩ := Outcome.of_bind written
  obtain ⟨columnTexts, areColumns, written⟩ := Outcome.of_bind written
  obtain ⟨rowsText, isRows, written⟩ := Outcome.of_bind written
  obtain ⟨lines, areLines, rfl⟩ := exists_lines isRows
  obtain rfl := Except.ok.inj written
  obtain ⟨header, isFirst⟩ := block_header version (block_of_writeTags names.metadata
    (fun value member => values value (GridOf.mem_values_of_metadata member)) areTags)
  have shown := block_of_writeColumns names values areColumns
  rw [keys_of_writeColumns areColumns] at areLines
  generalize withTags ("ver:" ++ quote version.text) (String.intercalate " " tags) = first at *
  generalize columnLine columnTexts = second at *
  by_cases none : columns.items = []
  · have noKeys : columns.keys = [] := by rw [OrderedMap.keys, none, List.map_nil]
    rw [noKeys] at areLines
    refine ⟨first.toList ++ '\n' :: second.toList, rows.length, ⟨?_, header.append shown.feed, ?_⟩, ?_⟩
    · simp only [String.toList_append, join_blank_lines areLines]
      simp [lineFeeds, List.replicate_succ]
    · rw [List.head?_append, isFirst, Option.some_or]
    · exact fun noRows => List.length_eq_zero_iff.mpr (noRows none)
  · have someKeys : columns.keys ≠ [] := by simpa [OrderedMap.keys] using none
    have filled : ∀ line ∈ lines, Block line.toList := by
      intro line member
      obtain ⟨row, inRows, isLine⟩ := Outcome.of_mapM areLines member
      exact block_of_rowText someKeys (fun value inside => values value (GridOf.mem_values_of_row inRows inside))
        isLine
    obtain ⟨more, shape, block⟩ := exists_block_lines header (List.forall_mem_cons.mpr ⟨shown, filled⟩)
    refine ⟨first.toList ++ more, 0, ⟨?_, block, ?_⟩, fun _ => rfl⟩
    · rw [Text.toList_join_lines] at shape
      simp only [String.toList_append, Text.toList_join_lines]
      simpa [lineFeeds] using shape
    · rw [List.head?_append, isFirst, Option.some_or]

/-! ### All values -/

/-- What is written of a collection is so in a version that has it. -/
theorem of_gated {value : Value} {next : Except Error String} {text : String}
    (gated : value.requiredVersion = some .three)
    (written : (value.ensureFits version >>= fun _ => next) = .ok text) :
    version.IsAtLeastThree ∧ next = .ok text := by
  obtain ⟨_, fits, written⟩ := Outcome.of_bind written
  refine ⟨?_, written⟩
  unfold Value.ensureFits at fits
  split at fits
  · next isFit =>
    rw [Value.fits, gated] at isFit
    exact bne_iff_ne.mp isFit
  · cases fits

/-- A value that is plain with all that is in it is written without blank lines. -/
theorem block_of_writeValue {value : Value} {text : String}
    (plain : value.Throughout fun part => IsNamed part ∧ IsPlain part)
    (bare : ¬ version.IsAtLeastThree → ∀ mime, value = .bin mime → Unbroken mime.toList)
    (written : writeValue value version = .ok text) : Block text.toList := by
  induction plain generalizing version text with
  | intro value here inside ih =>
      obtain ⟨named, plain⟩ := here
      cases value with
      | list items =>
          obtain ⟨new, made⟩ := of_gated rfl written
          obtain ⟨texts, areTexts, same⟩ := Outcome.of_bind made
          obtain rfl := Except.ok.inj same
          rw [writeList_eq] at areTexts
          refine block_bracketed (Unbroken.block_of_any (by decide) (by decide)) ?_ (Unbroken.solid (by decide))
          refine solid_intercalate (Unbroken.solid (by decide)) fun text member => ?_
          obtain ⟨item, inItems, isText⟩ := Outcome.of_mapM areTexts member
          exact (ih item inItems (fun below => absurd new below) isText).toSolid
      | dict tags =>
          obtain ⟨new, made⟩ := of_gated rfl written
          obtain ⟨texts, areTexts, same⟩ := Outcome.of_bind made
          obtain rfl := Except.ok.inj same
          have values : WritesBlocks version tags.values := fun part member _ isText =>
            ih part member (fun below => absurd new below) isText
          refine block_bracketed (Unbroken.block_of_any (by decide) (by decide)) ?_ (Unbroken.solid (by decide))
          exact solid_intercalate (Unbroken.solid (by decide)) fun text member =>
            (block_of_writeTags named values areTexts text member).toSolid
      | grid g =>
          obtain ⟨_, made⟩ := of_gated rfl written
          obtain ⟨gridText, isGrid, same⟩ := Outcome.of_bind made
          obtain rfl := Except.ok.inj same
          have values : WritesBlocks g.version g.values := fun part member _ isText =>
            ih part member (fun below mime isBin => plain.1 below mime (isBin ▸ member)) isText
          obtain ⟨body, count, hasBody, noBlank⟩ := exists_hasBody named values isGrid
          obtain rfl := noBlank plain.2
          have marked : ("<<" ++ gridText ++ ">>").toList = "<<".toList ++ body ++ '\n' :: ">>".toList := by
            simp only [String.toList_append, hasBody.parts]
            simp [lineFeeds]
          rw [marked]
          exact ((Unbroken.block_of_any (by decide) (by decide)).append hasBody.block.toSolid).append
            (Unbroken.block_of_any (by decide) (by decide)).feed
      | _ => exact block_of_leaf plain trivial bare written

end Haystack.Zinc
