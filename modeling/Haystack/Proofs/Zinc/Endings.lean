import Haystack.Proofs.Grid.Reading
import Haystack.Proofs.Text.Pieces
import Haystack.Proofs.Zinc.LastRows

/-!
Grids in texts that line feeds are put behind.

Where rows may end with the text, line feeds add blank rows, which are none of the grid. Inside a value
the rows end at a mark, so that there nothing changes.
-/
namespace Haystack.Zinc

open Phrase

variable {α : Type} {count limit : Nat} {value longer : Phrase (Reading Value)} {dialect : Version}
  {cursor : Cursor} {text rest : List Char}

/-! ## Grids -/

/-- The columns on a line of their own. -/
def columnsLine (value : Phrase (Reading Value)) : Phrase (List DraftColumn) := do
  newline
  separated (column value)

/-- The rows after the line of the columns, which may be the last one. -/
def linesAfter (value : Phrase (Reading Value)) : Phrase (List DraftRow) := do
  newline <|> endOfRows
  rows value

theorem fails_separated_column (count : Nat) : Fails (separated (column value)) (lineFeeds count) := by
  have noName : Fails (column value) (lineFeeds count) :=
    Fails.named (fails_here_bind fun _ => Fails.bind (fails_tagName (stops_lineFeeds count (by decide))))
  exact Fails.named (Reads.skip_fails (reads_spaces_nil (stops_lineFeeds count (by decide))) (Fails.bind noName))

/-- There are no columns where only line feeds are. -/
theorem agrees_columnsLine (values : Agrees count limit 0 value longer) :
    Agrees count limit 0 (columnsLine value) (columnsLine longer) := by
  intro cursor inside
  rw [columnsLine, columnsLine, found_bind, found_bind]
  by_cases nothing : cursor.rest = []
  · obtain ⟨offset, text⟩ := cursor
    obtain rfl : text = [] := nothing
    cases count with
    | zero => exact .missing
    | succ count =>
        change Matched (count + 1) 0 _ none ((separated (column longer)) ⟨offset + 1, lineFeeds count⟩).found
        rw [(fails_separated_column count).found]
        exact .missing
  · generalize (newline cursor).found = here, (newline (cursor.extended count)).found = there,
      matched_newline cursor count inside nothing = feeds
    cases feeds with
    | missing => exact .missing
    | found _ feed after parts _ =>
        have columns := (Agrees.separated (agrees_column values)).weaken
        exact (columns ⟨_, after⟩ (parts ▸ inside).rest).after parts (Nat.zero_le _)

theorem found_linesAfter_of_newline {after : Cursor} (ended : (newline cursor).found = some ((), after)) :
    (linesAfter value cursor).found = (rows value after).found := by
  rw [linesAfter, found_bind, found_orElse, ended]
  rfl

theorem found_linesAfter_of_none (noEnd : (newline cursor).found = none) (ends : EndsRows cursor.rest) :
    (linesAfter value cursor).found = (rows value cursor).found := by
  have ending := ends.reads_endOfRows.found cursor.offset
  rw [linesAfter, found_bind, found_orElse, noEnd, Option.none_or]
  rw [List.nil_append] at ending
  exact congrArg (Option.bind · fun pair => (rows value pair.2).found) ending

theorem lined_linesAfter (values : Agrees count limit 0 value longer)
    (noValue : ∀ count, Fails longer (lineFeeds count)) (cursor : Cursor) (inside : Inside limit cursor.rest) :
    Lined count MoreBlank cursor (linesAfter value cursor).found
      (linesAfter longer (cursor.extended count)).found := by
  by_cases nothing : cursor.rest = []
  · obtain ⟨offset, text⟩ := cursor
    obtain rfl : text = [] := nothing
    rw [found_linesAfter_of_none rfl (.inl rfl), found_rows, found_rowsWithin_nil]
    cases count with
    | zero =>
        rw [found_linesAfter_of_none rfl (.inl rfl), Cursor.extended, found_rows]
        exact (found_rowsWithin_nil _ offset).symm ▸ .ended [] [] ⟨[], rfl, fun _ member => (List.not_mem_nil member).elim⟩ _ _
    | succ count =>
        obtain ⟨blanks, last, found, blank⟩ := exists_rowsWithin_lineFeeds noValue count
          ((lineFeeds count).length + 1) (offset + 1) (by simp [lineFeeds])
        have there : (linesAfter longer (Cursor.extended ⟨offset, []⟩ (count + 1))).found =
            (rows longer ⟨offset + 1, lineFeeds count⟩).found := found_linesAfter_of_newline rfl
        rw [there, found_rows, found]
        exact .ended [] blanks blank _ _
  · generalize here : (newline cursor).found = ending, there : (newline (cursor.extended count)).found = endingThere,
      matched_newline cursor count inside nothing = feeds
    cases feeds with
    | found _ feed after parts _ =>
        rw [found_linesAfter_of_newline here, found_linesAfter_of_newline there]
        exact (lined_rows values noValue ⟨_, after⟩ (parts ▸ inside).rest).after parts
    | missing =>
        by_cases ends : EndsRows cursor.rest
        · rw [found_linesAfter_of_none here ends,
            found_linesAfter_of_none there ((endsRows_append count nothing).mpr ends)]
          exact lined_rows values noValue cursor inside
        · have unfinished := ends ∘ (endsRows_append count nothing).mp
          have noRows := (fails_endOfRows ends).found cursor.offset
          have noRowsThere := (fails_endOfRows unfinished).found cursor.offset
          rw [linesAfter, linesAfter, found_bind, found_bind, found_orElse, found_orElse, here, there,
            Option.none_or, Option.none_or]
          change Lined count MoreBlank cursor ((endOfRows ⟨cursor.offset, cursor.rest⟩).found.bind _)
            ((endOfRows ⟨cursor.offset, cursor.rest ++ lineFeeds count⟩).found.bind _)
          rw [noRows, noRowsThere]
          exact .missing

/-- Drafts that differ in blank rows at the end. -/
def Draft.Alike (draft more : Draft) : Prop :=
  ∃ rows, MoreBlank draft.rows rows ∧ more = { draft with rows := rows }

/-- The lines before the rows. -/
def heading (value : Phrase (Reading Value)) :
    Phrase ((Reading String × List (String × Reading Value)) × List DraftColumn) := do
  let header ← header value
  let columns ← columnsLine value
  pure (header, columns)

theorem agrees_heading (values : Agrees count limit 0 value longer) :
    Agrees count limit 0 (heading value) (heading longer) :=
  (agrees_header values).bind fun _ => (agrees_columnsLine values).bind fun _ => unaffected_pure _

theorem found_draft : (draft value cursor).found = (heading value cursor).found.bind fun front =>
    (linesAfter value front.2).found.bind fun lines =>
      some (⟨front.1.1.1, front.1.1.2, front.1.2, lines.1⟩, lines.2) := by
  rw [draft, found_named]
  simp only [heading, columnsLine, linesAfter, found_bind, Option.bind_assoc]
  rfl

theorem lined_draft (values : Agrees count limit 0 value longer)
    (noValue : ∀ count, Fails longer (lineFeeds count)) (inside : Inside limit cursor.rest) :
    Lined count Draft.Alike cursor (draft value cursor).found (draft longer (cursor.extended count)).found := by
  rw [found_draft, found_draft]
  generalize (heading value cursor).found = here, (heading longer (cursor.extended count)).found = there,
    agrees_heading values cursor inside = fronts
  cases fronts with
  | missing => exact .missing
  | found front taken rest parts _ =>
      have lines := (lined_linesAfter values noValue ⟨_, rest⟩ (parts ▸ inside).rest).after parts
      have whole : Lined count Draft.Alike cursor _ _ :=
        lines.map (fun rows => ⟨front.1.1, front.1.2, front.2, rows⟩) fun rows more blank => ⟨more, blank, rfl⟩
      rw [Option.map_eq_bind, Option.map_eq_bind] at whole
      exact whole

theorem fails_draft : Fails (draft value) (lineFeeds count) := by
  have noWord : Fails (word "ver:") (lineFeeds count) :=
    fails_word (c := 'v') (by decide) (head?_lineFeeds_ne (by decide))
  exact Fails.named (Fails.bind (Fails.named (Fails.bind (Fails.named (Fails.bind noWord)))))

/-! ## Values -/

/-- The lines of a grid with the mark after them. -/
def markedLines (value : Phrase (Reading Value)) : Phrase Draft := do
  let draft ← draft value
  word ">>"
  pure draft

theorem fails_markedLines (value : Phrase (Reading Value)) (count : Nat) :
    Fails (markedLines value) (lineFeeds count) := Fails.bind fails_draft

/-- Before a mark the lines do not end with the text. -/
theorem agrees_markedLines (values : Agrees count limit 0 value longer)
    (noValue : ∀ count, Fails longer (lineFeeds count)) :
    Agrees count limit 0 (markedLines value) (markedLines longer) := by
  intro cursor inside
  rw [markedLines, markedLines, found_bind, found_bind]
  generalize (draft value cursor).found = here, (draft longer (cursor.extended count)).found = there,
    lined_draft values noValue inside = drafts
  cases drafts with
  | missing => exact .missing
  | ended => exact .missing
  | found draft taken rest parts _ =>
      have mark : Unaffected count limit 0 (do word ">>"; pure draft) :=
        ((unaffected_word ">>" (by decide)).bind fun _ => unaffected_pure _).weaken
      exact (mark ⟨_, rest⟩ (parts ▸ inside).rest).after parts (Nat.zero_le _)

theorem agrees_innerGrid (values : Agrees count limit 0 value longer)
    (noValue : ∀ count, Fails longer (lineFeeds count)) :
    Agrees count (limit + 1) 0 (innerGrid value dialect) (innerGrid longer dialect) := by
  have lines : Agrees count limit 0 (do let _ ← Phrase.optional newline; markedLines value)
      (do let _ ← Phrase.optional newline; markedLines longer) := by
    intro cursor inside
    rw [found_bind, found_bind]
    by_cases nothing : cursor.rest = []
    · obtain ⟨offset, text⟩ := cursor
      obtain rfl : text = [] := nothing
      have here := (fails_markedLines value 0).found offset
      have there : ((Phrase.optional newline (Cursor.extended ⟨offset, []⟩ count)).found.bind fun pair =>
          (markedLines longer pair.2).found) = none := by
        cases count with
        | zero => exact (fails_markedLines longer 0).found offset
        | succ count => exact (fails_markedLines longer count).found (offset + 1)
      rw [there]
      exact here ▸ .missing
    · rw [found_optional, found_optional]
      generalize (newline cursor).found = here, (newline (cursor.extended count)).found = there,
        matched_newline cursor count inside nothing = feeds
      cases feeds with
      | missing => exact agrees_markedLines values noValue cursor inside
      | found _ feed after parts _ =>
          exact (agrees_markedLines values noValue ⟨_, after⟩ (parts ▸ inside).rest).after parts (Nat.zero_le _)
  have mark : Unaffected count (limit + 1) (1 + 1) (word "<<") := unaffected_word "<<" (by decide)
  have whole : Agrees count (limit + 1) 0 _ _ := Agrees.weaken (Agrees.named (agrees_here_bind fun offset =>
    mark.bind_shorter fun _ => unaffected_spaces.bind fun _ => lines.bind fun draft => unaffected_pure (do
      requireThree dialect offset "Grid"
      let grid ← draft.grid
      pure (.grid grid) : Reading Value)))
  intro cursor inside
  have matched := whole cursor inside
  simp only [innerGrid, markedLines, found_named, found_bind, Option.bind_assoc] at matched ⊢
  exact matched

theorem agrees_valueAround (values : Agrees count limit 0 value longer)
    (noValue : ∀ count, Fails longer (lineFeeds count)) :
    Agrees count (limit + 1) 0 (valueAround value dialect) (valueAround longer dialect) := by
  have constant {text : String} {meant : Value} (clean : '\n' ∉ text.toList) : Unaffected count (limit + 1) 0
      (do let v ← singleton text meant; pure (Except.ok v : Reading Value)) :=
    (unaffected_singleton clean).bind fun _ => unaffected_pure _
  have truth (text : String) (meant : Value) (clean : '\n' ∉ text.toList) : Unaffected count (limit + 1) 0
      (do keyword text; pure meant) :=
    (unaffected_keyword clean).bind fun _ => unaffected_pure _
  have bools := (Agrees.token ((truth "T" (.bool true) (by decide)).orElse
    (truth "F" (.bool false) (by decide)))).bind fun v => unaffected_pure (Except.ok v : Reading Value)
  exact unaffected_reference.orElse (unaffected_str.orElse (unaffected_uri.weaken.orElse
    (unaffected_bin.orElse (unaffected_coordinate.orElse (unaffected_encoded.orElse
    (unaffected_dateTime.orElse (unaffected_date.orElse (unaffected_time.orElse
    (unaffected_number.orElse (unaffected_notAvailable.orElse ((constant (by decide)).orElse
    ((constant (by decide)).orElse ((constant (by decide)).orElse (bools.orElse
    ((agrees_list values).orElse ((agrees_dict values).orElse (agrees_innerGrid values noValue)))))))))))))))))

theorem fails_valueWithin (dialect : Version) (depth count : Nat) :
    Fails (valueWithin dialect depth) (lineFeeds count) := by
  cases depth with
  | zero => exact fails_of_found fun _ => rfl
  | succ depth => exact fails_valueAround (stops_lineFeeds count (by decide))

/-- What goes deeper than a text is long reads the same values in it. -/
theorem agrees_valueWithin {depth deeper : Nat} (deep : limit < depth) (further : limit < deeper) :
    Agrees count limit 0 (valueWithin dialect depth) (valueWithin dialect deeper) := by
  induction limit generalizing depth deeper with
  | zero =>
      intro cursor inside
      obtain ⟨offset, text⟩ := cursor
      obtain rfl : text = [] := List.length_eq_zero_iff.mp (Nat.le_zero.mp inside.length)
      have here : (valueWithin dialect depth ⟨offset, []⟩).found = none :=
        (fails_valueWithin dialect depth 0).found offset
      have there := (fails_valueWithin dialect deeper count).found offset
      rw [Cursor.extended, List.nil_append, there]
      rw [here]
      exact .missing
  | succ limit ih =>
      obtain ⟨depth, rfl⟩ : ∃ n, depth = n + 1 := ⟨depth - 1, by omega⟩
      obtain ⟨deeper, rfl⟩ : ∃ n, deeper = n + 1 := ⟨deeper - 1, by omega⟩
      exact agrees_valueAround (ih (by omega) (by omega)) (fails_valueWithin dialect deeper)

theorem unaffected_value (dialect : Version) : Unaffected count limit 0 (Zinc.value dialect) := fun cursor inside =>
  have within : Inside cursor.rest.length cursor.rest := ⟨Nat.le_refl _, inside.ending⟩
  agrees_valueWithin (Nat.lt_succ_self _) (by simp only [Cursor.extended, List.length_append]; omega) cursor within

/-! ## Whole texts -/

/-- Blank rows are no rows of the grid. -/
theorem addRows_append_blank {names : List String} {grid : Grid} {rows blanks : List DraftRow}
    (blank : ∀ row ∈ blanks, row.isBlank = true) :
    addRows names grid (rows ++ blanks) = addRows names grid rows := by
  induction rows generalizing grid with
  | nil =>
      induction blanks with
      | nil => rfl
      | cons row blanks ih =>
          rw [List.forall_mem_cons] at blank
          rw [List.nil_append] at ih ⊢
          rw [addRows]
          exact (if_pos blank.1).trans (ih blank.2)
  | cons row rows ih =>
      rw [List.cons_append, addRows, addRows]
      split
      · exact ih
      · exact congrArg (readCells row.offset names.length .empty names row.cells >>= ·)
          (funext fun entity => congrArg (edited grid (GridOf.append entity) >>= ·) (funext fun grid => ih))

theorem Draft.Alike.grid_eq {draft more : Draft} (alike : draft.Alike more) : more.grid = draft.grid := by
  obtain ⟨_, ⟨blanks, rfl, blank⟩, rfl⟩ := alike
  unfold Draft.grid
  simp only [addRows_append_blank blank]

theorem lined_grid (dialect : Version) (count : Nat) (cursor : Cursor) (inside : Inside limit cursor.rest) :
    Lined count Eq cursor (Zinc.grid dialect cursor).found (Zinc.grid dialect (cursor.extended count)).found := by
  have noValue (count : Nat) : Fails (Zinc.value dialect) (lineFeeds count) :=
    fails_of_found fun offset => (fails_valueWithin dialect _ count).found offset
  have drafts : Lined count Draft.Alike cursor _ _ := lined_draft (unaffected_value dialect) noValue inside
  have grids : Lined count Eq cursor _ _ := drafts.map (·.grid) fun _ _ alike => alike.grid_eq.symm
  rw [Option.map_eq_bind, Option.map_eq_bind] at grids
  simp only [Zinc.grid, found_named, found_bind]
  exact grids

theorem readAll_grid_lineFeeds {reading : Reading Grid} (ending : text.getLast? ≠ some '\r') :
    (Zinc.grid dialect).readAll (text ++ lineFeeds count) = .ok reading ↔
      (Zinc.grid dialect).readAll text = .ok reading := by
  have lined := lined_grid dialect count (.start text) ⟨Nat.le_refl _, ending⟩
  generalize here : (Zinc.grid dialect (.start text)).found = short,
    there : (Zinc.grid dialect ((Cursor.start text).extended count)).found = long at lined
  constructor
  · intro read
    obtain ⟨offset, found⟩ := exists_found_of_readAll read
    cases lined with
    | missing => exact nomatch there.symm.trans found
    | found a taken rest parts more =>
        have same := there.symm.trans found
        simp [more] at same
    | ended a b alike short long =>
        obtain ⟨rfl, _⟩ := Prod.mk.inj (Option.some.inj (there.symm.trans found))
        exact readAll_of_found (alike ▸ here)
  · intro read
    obtain ⟨offset, found⟩ := exists_found_of_readAll read
    cases lined with
    | missing => exact nomatch here.symm.trans found
    | found a taken rest parts more =>
        have same := here.symm.trans found
        simp [more] at same
    | ended a b alike short long =>
        obtain ⟨rfl, _⟩ := Prod.mk.inj (Option.some.inj (here.symm.trans found))
        exact readAll_of_found (alike ▸ there)

/-- What is written before the version. -/
def versionMark : List Char := "ver:\"".toList

theorem headerVersion?_of_unmarked (noMark : ¬ versionMark <+: text) : headerVersion? text = none := by
  unfold headerVersion?
  split
  · exact absurd ⟨_, rfl⟩ noMark
  · rfl

theorem headerVersion?_lineFeeds : headerVersion? (text ++ lineFeeds count) = headerVersion? text := by
  have noQuote : ∀ c ∈ lineFeeds count, (c == '"') = false := fun c member => by
    rw [List.eq_of_mem_replicate member]
    rfl
  by_cases marked : versionMark <+: text
  · obtain ⟨rest, rfl⟩ := marked
    change (Text.cutFirst? (· == '"') (rest ++ lineFeeds count)).map _ = (Text.cutFirst? (· == '"') rest).map _
    rw [Text.cutFirst?_append_clean noQuote, Option.map_map]
    rfl
  · rw [headerVersion?_of_unmarked marked, headerVersion?_of_unmarked fun longer => marked ?_]
    -- A mark that goes on behind the text would have line feeds in it.
    rcases List.prefix_or_prefix_of_prefix longer (List.prefix_append text _) with here | ⟨more, parts⟩
    · exact here
    rw [← parts, List.prefix_append_right_inj] at longer
    cases more with
    | nil => exact ⟨[], by rw [← parts, List.append_nil, List.append_nil]⟩
    | cons c more =>
        have isFeed : c = '\n' := List.eq_of_mem_replicate (longer.subset List.mem_cons_self)
        have inMark : c ∈ versionMark := parts ▸ List.mem_append_right _ List.mem_cons_self
        exact absurd (isFeed ▸ inMark) (by decide)

/-- Line feeds behind a text do not change which grid it is. -/
theorem readGridChars_lineFeeds {grid : Grid} (count : Nat) (ending : text.getLast? ≠ some '\r') :
    readGridChars (text ++ lineFeeds count) = .ok grid ↔ readGridChars text = .ok grid := by
  simp only [readGridChars_ok_iff, headerVersion?_lineFeeds, readAll_grid_lineFeeds ending]

end Haystack.Zinc
