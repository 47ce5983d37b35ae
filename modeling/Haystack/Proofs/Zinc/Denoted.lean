import Haystack.Proofs.Grid.Reading
import Haystack.Proofs.Zinc.Grids
import Haystack.Proofs.Zinc.Literals

/-!
What values and grids can have been read from a text.

The image of the reader is that of its phrases: units and references keep to their characters, dates
are of the calendar, dicts have distinct names that are words. A grid that is read has such names too,
its values fit, and the column that stands for none has been dropped.
-/
namespace Haystack.Zinc

open Phrase
open Value (HasDistinctNames)

variable {dialect : Version}

/-- A grid as the reader makes them. -/
structure IsDocument (grid : Grid) : Prop where
  version : grid.version.IsProper
  names : HasWordNames grid
  distinct : HasDistinctNames grid
  within : grid.Within
  notBare : ¬ IsBare grid

/-- Whether a value itself can have been read; of what is in it this says nothing. -/
def Denotable : Value → Prop
  | .number n => ∀ unit ∈ n.unit, IsUnit unit
  | .xstr x => IsEncoded x
  | .ref r => r.name.toList.all isRefChar = true
  | .date d => d.isValid = true ∧ d.HasFourDigits
  | .time t => t.InDay ∧ t.IsProper
  | .dateTime d => d.zone.IsKnown ∧ d.instant.nanosecond < 2 * TimeOfDay.nanosPerSecond
  | .dict tags => tags.Distinct ∧ ∀ name ∈ tags.keys, isTagName name = true
  | .grid g => IsDocument g
  | _ => True

/-- What is read is a value that can be read with all that is in it, unless it is refused. -/
def Denotes (reading : Reading Value) : Prop :=
  ∀ value, reading = .ok value → value.Throughout Denotable

/-! ## Literals -/

theorem of_blame {α : Type} {offset : Nat} {made : Except Unreadable α} {a : α}
    (read : Reading.blame offset made = .ok a) : made = .ok a := by
  cases made with
  | error cause => exact nomatch read
  | ok b => exact congrArg Except.ok (Except.ok.inj read)

theorem denotes_ok {value : Value} (denotable : value.Throughout Denotable) : Denotes (.ok value) :=
  fun _ same => Except.ok.inj same ▸ denotable

theorem throughout_of_leaf {value : Value} (leaf : value.IsLeaf) (denotable : Denotable value) :
    value.Throughout Denotable := by
  refine Value.throughout_of_childless denotable ?_
  cases value <;> first | rfl | exact leaf.elim

/-- A text between quotes is refused at its place only. -/
theorem yields_quoted : Yields quoted fun reading => ∃ offset made, reading = Reading.blame offset made :=
  Yields.named (yields_after fun offset => yields_after fun _ => yields_after fun _ => yields_after fun _ =>
    yields_pure ⟨offset, _, rfl⟩)

theorem yields_str : Yields (do let text ← quoted; pure (text.map Value.str)) Denotes :=
  yields_after fun text => yields_pure fun value read => by
    obtain ⟨s, _, rfl⟩ := Outcome.of_map read
    exact throughout_of_leaf trivial trivial

theorem yields_uri : Yields uri Denotes :=
  Yields.named (yields_after fun _ => yields_after fun _ => yields_after fun _ => yields_after fun _ =>
    yields_pure fun value read => by
      obtain ⟨s, _, rfl⟩ := Outcome.of_map (of_blame read)
      exact throughout_of_leaf trivial trivial)

theorem yields_bin : Yields bin Denotes :=
  Yields.named (yields_after fun _ => yields_after fun _ => yields_after fun _ =>
    yields_pure fun value read => by
      obtain ⟨s, _, rfl⟩ := Outcome.of_map read
      exact throughout_of_leaf trivial trivial)

theorem yields_reference : Yields reference Denotes := by
  refine Yields.named (yields_after fun _ => yields_run.bind fun name isName => yields_after fun display =>
    yields_pure fun value read => ?_)
  have chars : (String.ofList name).toList.all isRefChar = true := by simpa using isName
  cases display with
  | none =>
      obtain rfl := Except.ok.inj read
      exact throughout_of_leaf trivial chars
  | some text =>
      obtain ⟨shown, _, read⟩ := Outcome.of_bind read
      obtain rfl := Except.ok.inj read
      exact throughout_of_leaf trivial chars

theorem yields_coordinate : Yields coordinate Denotes :=
  Yields.named (yields_after fun _ => yields_after fun _ => yields_after fun _ => yields_after fun _ =>
    yields_after fun _ => yields_after fun _ => yields_after fun _ => yields_after fun _ =>
    yields_after fun _ => yields_after fun _ => yields_pure fun value read => by
      obtain ⟨_, _, read⟩ := Outcome.of_bind (of_blame read)
      obtain ⟨_, _, read⟩ := Outcome.of_bind read
      obtain rfl := Except.ok.inj read
      exact throughout_of_leaf trivial trivial)

theorem encoding_of_ofText {encoding payload : String} {x : XStr}
    (made : XStr.ofText encoding payload = .ok x) : x.encoding = encoding := by
  unfold XStr.ofText at made
  split at made
  · split at made
    · exact Except.ok.inj made ▸ rfl
    · exact nomatch made
  split at made
  · split at made
    · exact Except.ok.inj made ▸ rfl
    · exact nomatch made
  · exact Except.ok.inj made ▸ rfl

/-- Before a quoted text in parentheses the word for MIME types is no encoding. -/
theorem found_bin_of_quoted {cursor middle last after : Cursor} {reading : Reading String}
    (front : cursor.rest = ['B', 'i', 'n', '('] ++ middle.rest) (offset : middle.offset = cursor.offset + 4)
    (isText : (quoted middle).found = some (reading, last))
    (isClosed : (char ')' last).found = some (')', after)) : (bin cursor).found ≠ none := by
  have isWord : (word "Bin(" cursor).found = some ((), middle) := by
    have reads : Reads (word "Bin(") "Bin(".toList middle.rest () := reads_word "Bin("
    have found := reads.found cursor.offset
    rw [show "Bin(".toList = ['B', 'i', 'n', '('] by decide, ← front] at found
    rw [found, show cursor.offset + ['B', 'i', 'n', '('].length = middle.offset from offset.symm]
  rw [bin, found_named, found_bind, isWord, Option.bind_some, found_bind, found_orElse, isText,
    Option.some_or, Option.bind_some, found_bind, isClosed]
  exact Option.some_ne_none _

theorem denotes_of_encoded {cursor after : Cursor} {reading : Reading Value}
    (noBin : (bin cursor).found = none) (found : (encoded cursor).found = some (reading, after)) :
    Denotes reading := by
  simp only [encoded, found_named, found_bind, Option.bind_eq_some_iff, Prod.exists] at found
  obtain ⟨offset, start, isStart, encoding, afterWord, isWord, _, middle, isOpen, text, last, isText, c,
    _, isClosed, made⟩ := found
  obtain ⟨_, rfl⟩ := Prod.mk.inj (Option.some.inj isStart)
  obtain ⟨_, wordRest, wordOffset, rfl, nonempty, chars, _⟩ := spells_run1.token _ _ _ isWord
  obtain ⟨_, openRest, openOffset, rfl⟩ := spells_char '(' _ _ _ isOpen
  obtain ⟨rfl, _⟩ := Prod.mk.inj (Option.some.inj made)
  intro value read
  obtain ⟨payload, isPayload, read⟩ := Outcome.of_bind read
  split at read
  · next x isBytes =>
    obtain rfl := Except.ok.inj read
    have same := encoding_of_ofText isBytes
    refine throughout_of_leaf trivial (?_ : IsEncoded x)
    refine ⟨by simpa [same] using chars, ?_, ?_, payload, same ▸ isBytes⟩
    · rw [same, Ne, ← String.toList_eq_nil_iff, String.toList_ofList]
      exact nonempty
    · rw [same]
      intro isBin
      obtain rfl : encoding = ['B', 'i', 'n'] := by
        rw [← String.toList_ofList (l := encoding), isBin]
        decide
      obtain ⟨_, _, _, _, closed⟩ := spells_satisfying _ _ _ isClosed
      obtain rfl : c = ')' := beq_iff_eq.mp closed
      refine found_bin_of_quoted ?_ ?_ isText isClosed noBin
      · rw [wordRest, openRest]
        rfl
      · rw [openOffset, wordOffset]
        rfl
  · exact nomatch read

theorem yields_number : Yields number Denotes := by
  have isUnit : Spells (do
      let text ← decimal
      let unit ← Phrase.optional unit
      pure (text, unit) : Phrase (List Char × Option String)) fun _ pair _ =>
        ∀ unit ∈ pair.2, IsUnit unit := by
    have unit : Spells (Phrase.optional Zinc.unit) fun taken given rest =>
        EndsDigits (taken ++ rest) → ∀ unit ∈ given, IsUnit unit :=
      spells_unit.optional (fun taken name rest isUnit ends unit same => Option.some.inj same ▸ isUnit ends)
        fun _ _ _ none => nomatch none
    exact spells_decimal.bind fun _ _ => unit.bind fun _ _ => spells_pure fun rest isUnit ends => by
      simpa using isUnit (by simpa using ends)
  refine Yields.named (Yields.orElse (yields_after fun _ => yields_pure (denotes_ok ?_))
    (yields_after fun offset => ?_))
  · exact throughout_of_leaf trivial fun unit none => nomatch none
  · intro cursor reading after found
    simp only [found_bind, Option.bind_eq_some_iff, Prod.exists] at found
    obtain ⟨text, middle, isText, given, last, isGiven, made⟩ := found
    obtain ⟨rfl, rfl⟩ := Prod.mk.inj (Option.some.inj made)
    have units := isUnit.yields cursor (text, given) last (by
      simp only [found_bind, Option.bind_eq_some_iff, Prod.exists]
      exact ⟨text, middle, isText, given, last, isGiven, rfl⟩)
    intro value read
    obtain ⟨magnitude, _, read⟩ := Outcome.of_bind (of_blame read)
    obtain rfl := Except.ok.inj read
    exact throughout_of_leaf trivial units

/-! ## Dates, times and moments -/

theorem of_mapError {α ε δ : Type} {made : Except ε α} {wrap : ε → δ} {a : α}
    (read : made.mapError wrap = .ok a) : made = .ok a := by
  cases made with
  | error cause => exact nomatch read
  | ok b => exact congrArg Except.ok (Except.ok.inj read)

theorem yields_date : Yields date Denotes := by
  refine Yields.token (yields_after fun offset => Yields.bind (Spells.yields (spells_dateText.spanned.mono
    fun taken read _ here => (here.1 ▸ here.2 : Date.IsText read))) fun text isText => yields_pure ?_)
  intro value read
  obtain ⟨date, isDate, rfl⟩ := Outcome.of_map (of_mapError (of_blame read))
  exact throughout_of_leaf trivial (Date.of_read isText isDate)

theorem yields_time : Yields time Denotes := by
  refine Yields.token (yields_after fun offset => Yields.bind (Spells.yields (spells_timeText.spanned.mono
    fun taken read _ here => (here.1 ▸ here.2 : TimeOfDay.IsText read))) fun text isText => yields_pure ?_)
  intro value read
  obtain ⟨time, isTime, rfl⟩ := Outcome.of_map (of_mapError (of_blame read))
  exact throughout_of_leaf trivial (TimeOfDay.of_read isText isTime)

theorem isKnown_of_zoneOf {name : List Char} {zone : Zone} (found : zoneOf name = .ok zone) :
    zone.IsKnown :=
  Zone.isKnown_of_named (of_mapError found)

theorem yields_dateTime : Yields dateTime Denotes := by
  refine Yields.named (yields_after fun offset => Yields.bind (Spells.yields (spells_isoText.mono
    fun taken read _ here => (here.1 ▸ here.2 : DateTime.IsText read))) fun text isText =>
      yields_after fun name => yields_pure ?_)
  intro value read
  obtain ⟨zone, isZone, read⟩ := Outcome.of_bind (of_blame read)
  obtain ⟨moment, isMoment, read⟩ := Outcome.of_bind read
  obtain rfl := Except.ok.inj read
  refine throughout_of_leaf trivial (DateTime.of_read isText (fun given isGiven => ?_) isMoment)
  obtain rfl := Option.mem_def.mp isGiven
  cases name with
  | none => exact nomatch Except.ok.inj isZone
  | some name =>
      rw [Option.mapM_some] at isZone
      obtain ⟨found, isFound, same⟩ := Outcome.of_map isZone
      obtain rfl := Option.some.inj same
      exact isKnown_of_zoneOf isFound

/-! ## Values with parts -/

variable {value : Phrase (Reading Value)}

/-- Tags whose names are words, with a condition that holds of their values. -/
def EachTag (holds : Reading Value → Prop) (tags : List (String × Reading Value)) : Prop :=
  ∀ tag ∈ tags, isTagName tag.1 = true ∧ holds tag.2

theorem yields_tagName : Yields tagName (isTagName · = true) := by
  refine Yields.token (yields_satisfying.bind fun first isFirst => yields_run.bind fun others areOthers =>
    yields_pure ?_)
  simp only [isTagName, String.toList_ofList, Bool.and_eq_true, List.all_eq_true]
  exact ⟨isFirst, areOthers⟩

theorem readTags_cases {tags : List (String × Reading Value)} {items : List (String × Value)}
    (read : readTags tags = .ok items) :
    List.Forall₂ (fun tag item => tag.1 = item.1 ∧ tag.2 = .ok item.2) tags items := by
  induction tags generalizing items with
  | nil =>
      obtain rfl := Except.ok.inj read
      exact .nil
  | cons tag tags ih =>
      obtain ⟨value, isValue, read⟩ := Outcome.of_bind read
      obtain ⟨others, areOthers, read⟩ := Outcome.of_bind read
      obtain rfl := Except.ok.inj read
      exact .cons ⟨rfl, isValue⟩ (ih areOthers)

/-- Names that are distinct words, with values that can be read. -/
structure AreTags (tags : OrderedMap Value) : Prop where
  distinct : tags.Distinct
  names : ∀ name ∈ tags.keys, isTagName name = true
  values : ∀ held ∈ tags.values, held.Throughout Denotable

theorem areTags_of_readTags {tags : List (String × Reading Value)} {items : List (String × Value)}
    (denotes : EachTag Denotes tags) (read : readTags tags = .ok items) : AreTags (.ofList items) := by
  have areTags := (readTags_cases read).flip
  refine ⟨OrderedMap.distinct_ofList items, fun name member => ?_, fun held member => ?_⟩
  · obtain ⟨item, inItems, rfl⟩ := List.mem_map.mp (OrderedMap.mem_keys_ofList.mp member)
    obtain ⟨tag, inTags, sameName, _⟩ := Pairing.exists_mem_of_forall₂ areTags inItems
    exact sameName ▸ (denotes tag inTags).1
  · obtain ⟨item, inItems, rfl⟩ := List.mem_map.mp (OrderedMap.mem_values_ofList member)
    obtain ⟨tag, inTags, _, isValue⟩ := Pairing.exists_mem_of_forall₂ areTags inItems
    exact (denotes tag inTags).2 item.2 isValue

section Inside

variable {holds : Reading Value → Prop} (inside : Yields value holds)

include inside

theorem yields_items : Yields (do
    let first ← value
    spaces
    let others ← many do
      let _ ← char ','
      spaces
      let item ← value
      spaces
      pure item
    let _ ← Phrase.optional do
      let _ ← char ','
      spaces
    pure (first :: others)) fun readings => ∀ reading ∈ readings, holds reading := by
  refine inside.bind fun first isFirst => yields_after fun _ => Yields.bind (Yields.many (yields_after
    fun _ => yields_after fun _ => inside.bind fun _ here => yields_after fun _ =>
      yields_pure here)) fun others areOthers => yields_after fun _ => yields_pure ?_
  exact List.forall_mem_cons.mpr ⟨isFirst, areOthers⟩

/-- A tag without a value is a marker. -/
theorem yields_tag (marker : holds (.ok .marker)) :
    Yields (tag value) fun tag => isTagName tag.1 = true ∧ holds tag.2 := by
  refine Yields.named (yields_tagName.bind fun name isName => Yields.bind (Yields.optional (yields_after
    fun _ => yields_after fun _ => yields_after fun _ => inside)) fun given here =>
      yields_pure ⟨isName, ?_⟩)
  cases given with
  | none => exact marker
  | some reading => exact here reading rfl

theorem yields_tags (marker : holds (.ok .marker)) : Yields (do
    let first ← tag value
    let others ← many do
      spaces
      let _ ← Phrase.optional (char ',')
      spaces
      tag value
    pure (first :: others)) (EachTag holds) := by
  refine (yields_tag inside marker).bind fun first isFirst => Yields.bind (Yields.many (yields_after fun _ =>
    yields_after fun _ => yields_after fun _ => yields_tag inside marker)) fun others areOthers => yields_pure ?_
  exact List.forall_mem_cons.mpr ⟨isFirst, areOthers⟩

/-! ### The lines of a grid -/

/-- Lines whose names are words, with a condition that holds of their values. The version is refused at
its place only. -/
structure EachLine (holds : Reading Value → Prop) (draft : Draft) : Prop where
  version : ∃ offset made, draft.version = Reading.blame offset made
  metadata : EachTag holds draft.metadata
  columns : ∀ column ∈ draft.columns, isTagName column.name = true ∧ EachTag holds column.metadata
  rows : ∀ row ∈ draft.rows, ∀ cell ∈ row.cells, ∀ reading ∈ cell, holds reading

theorem yields_spacedTags (marker : holds (.ok .marker)) : Yields (spacedTags value) (EachTag holds) :=
  Yields.many (yields_after fun _ => yields_tag inside marker)

omit inside in
theorem yields_separated {α : Type} {item : Phrase α} {holds : α → Prop} (yields : Yields item holds) :
    Yields (separated item) fun items => ∀ item ∈ items, holds item := by
  refine Yields.named (yields_after fun _ => yields.bind fun first isFirst => yields_after fun _ =>
    Yields.bind (Yields.many (yields_after fun _ => yields_after fun _ => yields.bind fun _ here =>
      yields_after fun _ => yields_pure here)) fun others areOthers => yields_pure ?_)
  exact List.forall_mem_cons.mpr ⟨isFirst, areOthers⟩

theorem yields_column (marker : holds (.ok .marker)) : Yields (column value) fun column =>
    isTagName column.name = true ∧ EachTag holds column.metadata :=
  Yields.named (yields_after fun _ => yields_tagName.bind fun _ isName =>
    (yields_spacedTags inside marker).bind fun _ each => yields_pure ⟨isName, each⟩)

theorem yields_row : Yields (row value) fun row =>
    ∀ cell ∈ row.cells, ∀ reading ∈ cell, holds reading :=
  yields_after fun _ => (yields_separated inside.optional.named).bind fun _ each => yields_pure each

theorem yields_rows : Yields (rows value) fun rows =>
    ∀ row ∈ rows, ∀ cell ∈ row.cells, ∀ reading ∈ cell, holds reading := by
  have line {ends : Phrase Unit} : Yields (do
      moreRows
      let line ← row value
      ends
      pure line) fun row => ∀ cell ∈ row.cells, ∀ reading ∈ cell, holds reading :=
    yields_after fun _ => (yields_row inside).bind fun _ each => yields_after fun _ => yields_pure each
  refine Yields.named (line.many.bind fun lines areLines => line.optional.bind fun last isLast =>
    yields_pure (List.forall_mem_append.mpr ⟨areLines, fun row member => ?_⟩))
  exact isLast row (Option.mem_toList.mp member)

theorem yields_draft (marker : holds (.ok .marker)) : Yields (draft value) (EachLine holds) := by
  have first : Yields (header value) fun pair =>
      (∃ offset made, pair.1 = Reading.blame offset made) ∧ EachTag holds pair.2 :=
    Yields.named ((Yields.named (yields_after fun _ => yields_quoted)).bind fun _ version =>
      (yields_spacedTags inside marker).bind fun _ each => yields_after fun _ => yields_pure ⟨version, each⟩)
  exact Yields.named (first.bind fun _ opening => yields_after fun _ =>
    (yields_separated (yields_column inside marker)).bind fun _ columns => yields_after fun _ =>
      (yields_rows inside).bind fun _ rows => yields_pure ⟨opening.1, opening.2, columns, rows⟩)

end Inside

/-! ### Lists and dicts that can be read -/

theorem denotes_marker : Denotes (.ok .marker) := denotes_ok (throughout_of_leaf trivial trivial)

section Readable

variable (inside : Yields value Denotes)

include inside

theorem yields_list : Yields (list dialect value) Denotes := by
  refine Yields.named (yields_after fun _ => yields_after fun _ => yields_after fun _ =>
    (yields_items inside).optional.bind fun given denotes => yields_after fun _ => yields_pure
      fun value read => ?_)
  obtain ⟨_, _, read⟩ := Outcome.of_bind read
  obtain ⟨values, areValues, read⟩ := Outcome.of_bind read
  obtain rfl := Except.ok.inj read
  refine .intro _ trivial fun part member => ?_
  obtain ⟨reading, isItem, isPart⟩ := Outcome.of_mapM areValues member
  cases given with
  | none => exact nomatch isItem
  | some readings => exact denotes readings rfl reading isItem part isPart

theorem yields_dict : Yields (dict dialect value) Denotes := by
  refine Yields.named (yields_after fun _ => yields_after fun _ => yields_after fun _ =>
    (yields_tags inside denotes_marker).optional.bind fun given denotes => yields_after fun _ =>
      yields_after fun _ => yields_after fun _ => yields_after fun _ => yields_pure fun value read => ?_)
  obtain ⟨_, _, read⟩ := Outcome.of_bind read
  obtain ⟨items, areItems, read⟩ := Outcome.of_bind read
  obtain rfl := Except.ok.inj read
  have denotes : EachTag Denotes (given.getD []) := by
    cases given with
    | none => exact fun _ none => nomatch none
    | some tags => exact denotes tags rfl
  have areTags := areTags_of_readTags denotes areItems
  exact .intro _ ⟨areTags.distinct, areTags.names⟩ areTags.values

end Readable

end Haystack.Zinc
