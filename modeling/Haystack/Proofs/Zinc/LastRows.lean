import Haystack.Proofs.Zinc.Choice
import Haystack.Proofs.Zinc.Extension
import Haystack.Proofs.Zinc.Lines

/-!
Rows in texts that line feeds are put behind.

The rows of a grid may end with the text. With line feeds behind it the last row ends its line there, and
each further line feed is a blank row.
-/
namespace Haystack.Zinc

open Phrase

variable {α β : Type} {count limit : Nat} {value longer : Phrase (Reading Value)} {cursor : Cursor}
  {text rest : List Char}

/-! ## Marks between and after lines -/

theorem fails_newline {c : Char} (noFeed : c ≠ '\n') (noReturn : c ≠ '\r') : Fails newline (c :: rest) :=
  Reads.skip_fails (Fails.optional (fails_char (by simpa using noReturn)))
    (Fails.bind (fails_char (by simpa using noFeed)))

theorem fails_newline_return {c : Char} (noFeed : c ≠ '\n') : Fails newline ('\r' :: c :: rest) := by
  change Fails newline (['\r'] ++ c :: rest)
  exact Reads.bind_fails (Reads.optional reads_char) (Fails.bind (fails_char (by simpa using noFeed)))

/-- Before more text a line ends where it does without the line feeds. -/
theorem matched_newline (cursor : Cursor) (count : Nat) (inside : Inside limit cursor.rest) (more : cursor.rest ≠ []) :
    Matched count 1 cursor (newline cursor).found (newline (cursor.extended count)).found := by
  obtain ⟨offset, _ | ⟨c, rest⟩⟩ := cursor
  · exact absurd rfl more
  by_cases isFeed : c = '\n'
  · subst isFeed
    exact .found () ['\n'] rest rfl (Nat.le_refl 1)
  by_cases isReturn : c = '\r'
  · subst isReturn
    cases rest with
    | nil => exact absurd rfl inside.ending
    | cons c rest =>
        by_cases isFeed : c = '\n'
        · subst isFeed
          exact .found () ['\r', '\n'] rest rfl (by decide)
        · rw [(fails_newline_return isFeed).found, Cursor.extended, List.cons_append, List.cons_append,
            (fails_newline_return isFeed).found]
          exact .missing
  · rw [(fails_newline isFeed isReturn).found, Cursor.extended, List.cons_append,
      (fails_newline isFeed isReturn).found]
    exact .missing

/-- Before more text the rows end where they do without the line feeds. -/
theorem endsRows_append (count : Nat) (some : text ≠ []) : EndsRows (text ++ lineFeeds count) ↔ EndsRows text := by
  rcases text with _ | ⟨c, _ | ⟨d, text⟩⟩
  · exact absurd rfl some
  · rcases count with _ | count <;> simp [EndsRows, lineFeeds, List.replicate_succ]
  · simp [EndsRows]

theorem reads_moreRows (unfinished : ¬ EndsRows text) : Reads moreRows [] text () := by
  refine reads_of_found fun offset => ?_
  rw [List.nil_append]
  unfold moreRows
  split
  · next none => exact absurd (.inl none) unfinished
  · next more shape => exact absurd (.inr ⟨more, shape⟩) unfinished
  · rfl

theorem EndsRows.reads_endOfRows (ends : EndsRows text) : Reads endOfRows [] text () := by
  rcases ends with rfl | ⟨more, rfl⟩
  · exact reads_of_found fun _ => rfl
  · exact reads_of_found fun _ => rfl

theorem fails_endOfRows (unfinished : ¬ EndsRows text) : Fails endOfRows text := by
  have noMark : Fails (word ">>") text := by
    rcases text with _ | ⟨c, text⟩
    · exact absurd (.inl rfl) unfinished
    · by_cases first : c = '>'
      · subst first
        refine Reads.bind_fails (reads_char : Reads (char '>') ['>'] text '>')
          (fails_chars_cons fun second => unfinished ?_)
        obtain ⟨more, rfl⟩ := List.head?_eq_some_iff.mp second
        exact .inr ⟨more, rfl⟩
      · exact fails_word (c := '>') (by decide) (by simpa using first)
  have noEnd : Fails endOfText text := by
    rcases text with _ | ⟨c, text⟩
    · exact absurd (.inl rfl) unfinished
    · exact Fails.named (fails_of_found fun _ => rfl)
  exact Fails.orElse noMark.ahead noEnd.ahead

/-! ## What may end with the text -/

/-- What is found of lines that may end with the text, and with line feeds behind it: nothing, or the same
before more text, or both come to the end with what is as good. -/
inductive Lined (count : Nat) (same : α → α → Prop) (cursor : Cursor) :
    Option (α × Cursor) → Option (α × Cursor) → Prop where
  | missing : Lined count same cursor none none
  | found (a : α) (taken rest : List Char) (parts : cursor.rest = taken ++ rest) (more : rest ≠ []) :
      Lined count same cursor (some (a, ⟨cursor.offset + taken.length, rest⟩))
        (some (a, ⟨cursor.offset + taken.length, rest ++ lineFeeds count⟩))
  | ended (a b : α) (alike : same a b) (here there : Nat) :
      Lined count same cursor (some (a, ⟨here, []⟩)) (some (b, ⟨there, []⟩))

theorem Lined.after {same : α → α → Prop} {taken : List Char} {here there : Option (α × Cursor)}
    (lined : Lined count same ⟨cursor.offset + taken.length, rest⟩ here there)
    (parts : cursor.rest = taken ++ rest) : Lined count same cursor here there := by
  cases lined with
  | missing => exact .missing
  | ended a b alike here there => exact .ended a b alike here there
  | found a more last shape some =>
      have shape : rest = more ++ last := shape
      have parts : cursor.rest = (taken ++ more) ++ last := by rw [parts, shape, List.append_assoc]
      have whole := @Lined.found α count same _ a _ _ parts some
      rwa [List.length_append, ← Nat.add_assoc] at whole

theorem Lined.map {same : α → α → Prop} {alike : β → β → Prop} {here there : Option (α × Cursor)}
    (lined : Lined count same cursor here there) (f : α → β) (keeps : ∀ a b, same a b → alike (f a) (f b)) :
    Lined count alike cursor (here.map fun pair => (f pair.1, pair.2)) (there.map fun pair => (f pair.1, pair.2)) := by
  cases lined with
  | missing => exact .missing
  | found a taken rest parts some => exact .found (f a) taken rest parts some
  | ended a b here there => exact .ended (f a) (f b) (keeps a b ‹_›) _ _

/-! ## Rows -/

/-- A row with the end of its line. -/
def rowLine (value : Phrase (Reading Value)) : Phrase DraftRow := do
  moreRows
  let line ← row value
  newline
  pure line

/-- The last row, where the text ends or the grid does. -/
def lastRow (value : Phrase (Reading Value)) : Phrase DraftRow := do
  moreRows
  let line ← row value
  endOfRows
  pure line

/-- At most so many rows with line ends, and perhaps a last one. -/
def rowsWithin (value : Phrase (Reading Value)) (times : Nat) : Phrase (List DraftRow) := do
  let lines ← upTo (rowLine value) times
  let last ← Phrase.optional (lastRow value)
  pure (lines ++ last.toList)

theorem found_rows (cursor : Cursor) :
    (rows value cursor).found = (rowsWithin value (cursor.rest.length + 1) cursor).found :=
  found_named cursor

theorem found_rowsWithin_succ (times : Nat) : (rowsWithin value (times + 1) cursor).found =
    match (rowLine value cursor).found with
    | some (row, after) => (rowsWithin value times after).found.map fun pair => (row :: pair.1, pair.2)
    | none => match (lastRow value cursor).found with
      | some (row, after) => some ([row], after)
      | none => some ([], cursor) := by
  rw [rowsWithin, found_bind, found_upTo_succ]
  cases (rowLine value cursor).found with
  | some pair =>
      obtain ⟨row, after⟩ := pair
      simp only [rowsWithin, found_bind]
      cases (upTo (rowLine value) times after).found with
      | none => rfl
      | some pair =>
          simp only [Option.map_some, Option.bind_some]
          cases (Phrase.optional (lastRow value) pair.2).found <;> rfl
  | none =>
      simp only [Option.bind_some, found_bind, found_optional]
      cases (lastRow value cursor).found <;> rfl

theorem found_rowsWithin_of_line {times : Nat} {row : DraftRow} {after : Cursor}
    (first : (rowLine value cursor).found = some (row, after)) :
    (rowsWithin value (times + 1) cursor).found =
      (rowsWithin value times after).found.map fun pair => (row :: pair.1, pair.2) := by
  rw [found_rowsWithin_succ, first]

theorem found_rowsWithin_of_last {times : Nat} {row : DraftRow} {after : Cursor}
    (noLine : (rowLine value cursor).found = none) (last : (lastRow value cursor).found = some (row, after)) :
    (rowsWithin value (times + 1) cursor).found = some ([row], after) := by
  rw [found_rowsWithin_succ, noLine, last]

theorem found_rowsWithin_of_none {times : Nat} (noLine : (rowLine value cursor).found = none)
    (noLast : (lastRow value cursor).found = none) :
    (rowsWithin value (times + 1) cursor).found = some ([], cursor) := by
  rw [found_rowsWithin_succ, noLine, noLast]

theorem found_rowLine : (rowLine value cursor).found =
    ((do moreRows; row value : Phrase DraftRow) cursor).found.bind fun pair =>
      (newline pair.2).found.bind fun last => some (pair.1, last.2) := by
  simp only [rowLine, found_bind, Option.bind_assoc]
  rfl

theorem found_rowLine_of_newline {middle after : Cursor} {line : DraftRow}
    (cells : ((do moreRows; row value : Phrase DraftRow) cursor).found = some (line, middle))
    (ended : (newline middle).found = some ((), after)) :
    (rowLine value cursor).found = some (line, after) := by
  rw [found_rowLine, cells, Option.bind_some, ended, Option.bind_some]

theorem found_rowLine_of_none {middle : Cursor} {line : DraftRow}
    (cells : ((do moreRows; row value : Phrase DraftRow) cursor).found = some (line, middle))
    (noEnd : (newline middle).found = none) : (rowLine value cursor).found = none := by
  rw [found_rowLine, cells, Option.bind_some, noEnd, Option.bind_none]

theorem found_lastRow (value : Phrase (Reading Value)) (cursor : Cursor) : (lastRow value cursor).found =
    ((do moreRows; row value : Phrase DraftRow) cursor).found.bind fun pair =>
      (endOfRows pair.2).found.bind fun last => some (pair.1, last.2) := by
  simp only [lastRow, found_bind, Option.bind_assoc]
  rfl

/-- A row without cells and without more text is blank. -/
theorem takes_row_blank (fails : Fails value rest) (noSpace : Stops isSpace rest)
    (noComma : rest.head? ≠ some ',') : Takes (row value) [] rest (·.isBlank = true) := by
  have cell : Reads (named (Phrase.optional value)) [] rest none := Takes.named fails.optional
  have cells : Reads (separated (named (Phrase.optional value))) [] rest [none] :=
    Takes.named (Reads.skip (reads_spaces_nil noSpace) (Reads.skip cell
      (Reads.skip (reads_spaces_nil noSpace) (Reads.skip
        (reads_many (.nil (Fails.bind (fails_char noComma)))) reads_pure))))
  exact takes_here_bind fun offset => Reads.last cells (takes_pure rfl)

/-- At the end of the text there are no rows. -/
theorem found_rowsWithin_nil (times offset : Nat) :
    (rowsWithin value times ⟨offset, []⟩).found = some ([], ⟨offset, []⟩) := by
  have noMore : Fails moreRows [] := EndsRows.fails_moreRows (.inl rfl)
  have noLine : Fails (rowLine value) [] := Fails.bind noMore
  have noLast : Fails (lastRow value) [] := Fails.bind noMore
  cases times with
  | zero =>
      rw [rowsWithin, found_bind]
      simp only [upTo]
      change ((do let last ← Phrase.optional (lastRow value); pure ([] ++ last.toList)
        : Phrase (List DraftRow)) ⟨offset, []⟩).found = _
      rw [found_bind, found_optional, noLast.found]
      rfl
  | succ times => exact found_rowsWithin_of_none (noLine.found offset) (noLast.found offset)

/-- Rows that are more by blank ones. -/
def MoreBlank (rows more : List DraftRow) : Prop :=
  ∃ blanks : List DraftRow, more = rows ++ blanks ∧ ∀ row ∈ blanks, row.isBlank = true

theorem MoreBlank.cons {rows more : List DraftRow} (blank : MoreBlank rows more) (row : DraftRow) :
    MoreBlank (row :: rows) (row :: more) := by
  obtain ⟨blanks, rfl, areBlank⟩ := blank
  exact ⟨blanks, rfl, areBlank⟩

/-- Each line feed by itself is a blank row. -/
theorem exists_rowsWithin_lineFeeds (noValue : ∀ count, Fails longer (lineFeeds count)) (count times offset : Nat)
    (enough : count < times) : ∃ blanks last,
      (rowsWithin longer times ⟨offset, lineFeeds count⟩).found = some (blanks, ⟨last, []⟩) ∧
        MoreBlank [] blanks := by
  induction count generalizing offset times with
  | zero => exact ⟨[], offset, found_rowsWithin_nil times offset, [], rfl, fun _ member => nomatch member⟩
  | succ count ih =>
      obtain ⟨times, rfl⟩ : ∃ n, times = n + 1 := ⟨times - 1, by omega⟩
      have isBlank : Takes (rowLine longer) ['\n'] (lineFeeds count) (·.isBlank = true) := by
        refine Reads.skip (reads_moreRows (by simp [EndsRows])) ?_
        have blank : Takes (row longer) [] (['\n'] ++ lineFeeds count) (·.isBlank = true) :=
          takes_row_blank (noValue (count + 1)) (stops_lineFeeds (count + 1) (by decide)) (by simp)
        exact blank.bind fun row isBlank => Reads.last reads_newline (takes_pure isBlank)
      obtain ⟨row, found, blank⟩ := isBlank.exists_found offset
      obtain ⟨blanks, last, others, areBlank⟩ := ih times (offset + ['\n'].length) (Nat.lt_of_succ_lt_succ enough)
      refine ⟨row :: blanks, last, ?_, row :: blanks, rfl, ?_⟩
      · exact (found_rowsWithin_of_line found).trans (by rw [others]; rfl)
      · obtain ⟨_, rfl, areBlank⟩ := areBlank
        exact List.forall_mem_cons.mpr ⟨blank, areBlank⟩

/-- What stands on a line before its end. -/
theorem matched_cells (values : Agrees count limit 0 value longer) (inside : Inside limit cursor.rest)
    (more : cursor.rest ≠ []) :
    Matched count 0 cursor ((do moreRows; row value : Phrase DraftRow) cursor).found
      ((do moreRows; row longer : Phrase DraftRow) (cursor.extended count)).found := by
  obtain ⟨offset, text⟩ := cursor
  rw [found_bind, found_bind]
  by_cases ends : EndsRows text
  · rw [ends.fails_moreRows.found, Cursor.extended,
      ((endsRows_append count more).mpr ends).fails_moreRows.found]
    exact .missing
  · have here := (reads_moreRows ends).found offset
    have there := (reads_moreRows (ends ∘ (endsRows_append count more).mp)).found offset
    rw [List.nil_append] at here there
    rw [here, Cursor.extended, there]
    exact agrees_row values ⟨offset, text⟩ inside

/-- A row that reaches the end of the text ends at the first line feed behind it. -/
theorem lined_of_whole_row (noValue : ∀ count, Fails longer (lineFeeds count)) {other : Cursor}
    {times more offset : Nat} {line : DraftRow} (further : count < more + 1)
    (here : ((do moreRows; row value : Phrase DraftRow) cursor).found = some (line, ⟨offset, []⟩))
    (there : ((do moreRows; row longer : Phrase DraftRow) other).found = some (line, ⟨offset, lineFeeds count⟩)) :
    Lined count MoreBlank cursor (rowsWithin value (times + 1) cursor).found
      (rowsWithin longer (more + 1) other).found := by
  have noLine : (rowLine value cursor).found = none := found_rowLine_of_none here rfl
  have last : (lastRow value cursor).found = some (line, ⟨offset, []⟩) := by
    rw [found_lastRow, here]
    rfl
  rw [found_rowsWithin_of_last noLine last]
  cases count with
  | zero =>
      have noLine : (rowLine longer other).found = none := found_rowLine_of_none there rfl
      have last : (lastRow longer other).found = some (line, ⟨offset, []⟩) := by
        rw [found_lastRow, there]
        rfl
      rw [found_rowsWithin_of_last noLine last]
      exact .ended [line] [line] ⟨[], rfl, fun _ member => nomatch member⟩ _ _
  | succ count =>
      have first : (rowLine longer other).found = some (line, ⟨offset + 1, lineFeeds count⟩) :=
        found_rowLine_of_newline there rfl
      obtain ⟨blanks, last, found, blank⟩ :=
        exists_rowsWithin_lineFeeds noValue count more (offset + 1) (by omega)
      rw [found_rowsWithin_of_line first, found]
      exact .ended [line] (line :: blanks) (blank.cons line) _ _

/-- A row before more text that does not end its line is the last one, or none. -/
theorem lined_of_open_row {times more : Nat} {line : DraftRow} {taken : List Char}
    (parts : cursor.rest = taken ++ rest) (some : rest ≠ [])
    (here : ((do moreRows; row value : Phrase DraftRow) cursor).found =
      .some (line, ⟨cursor.offset + taken.length, rest⟩))
    (there : ((do moreRows; row longer : Phrase DraftRow) (cursor.extended count)).found =
      .some (line, ⟨cursor.offset + taken.length, rest ++ lineFeeds count⟩))
    (noEnd : (newline ⟨cursor.offset + taken.length, rest⟩).found = none)
    (noEndThere : (newline ⟨cursor.offset + taken.length, rest ++ lineFeeds count⟩).found = none) :
    Lined count MoreBlank cursor (rowsWithin value (times + 1) cursor).found
      (rowsWithin longer (more + 1) (cursor.extended count)).found := by
  have noLine := found_rowLine_of_none here noEnd
  have noLineThere := found_rowLine_of_none there noEndThere
  have last := found_lastRow value cursor
  have lastThere := found_lastRow longer (cursor.extended count)
  rw [here, Option.bind_some] at last
  rw [there, Option.bind_some] at lastThere
  by_cases ends : EndsRows rest
  · have ending := ends.reads_endOfRows.found (cursor.offset + taken.length)
    have endingThere := ((endsRows_append count some).mpr ends).reads_endOfRows.found
      (cursor.offset + taken.length)
    rw [List.nil_append] at ending endingThere
    rw [ending] at last
    rw [endingThere] at lastThere
    rw [found_rowsWithin_of_last noLine last, found_rowsWithin_of_last noLineThere lastThere]
    exact .found [line] taken rest parts some
  · have unfinished := ends ∘ (endsRows_append count some).mp
    rw [(fails_endOfRows ends).found] at last
    rw [(fails_endOfRows unfinished).found] at lastThere
    rw [found_rowsWithin_of_none noLine last, found_rowsWithin_of_none noLineThere lastThere]
    refine .found [] [] cursor.rest rfl fun nothing => some ?_
    exact (List.append_eq_nil_iff.mp (parts.symm.trans nothing)).2

/-- The rows of a text are those of the text with line feeds behind it, but for blank ones at the end. -/
theorem lined_rowsWithin (values : Agrees count limit 0 value longer)
    (noValue : ∀ count, Fails longer (lineFeeds count)) {times more : Nat} (cursor : Cursor)
    (inside : Inside limit cursor.rest) (enough : cursor.rest.length < times)
    (further : cursor.rest.length + count < more) :
    Lined count MoreBlank cursor (rowsWithin value times cursor).found
      (rowsWithin longer more (cursor.extended count)).found := by
  induction times generalizing more cursor with
  | zero => exact absurd enough (Nat.not_lt_zero _)
  | succ times ih =>
      obtain ⟨more, rfl⟩ : ∃ n, more = n + 1 := ⟨more - 1, by omega⟩
      by_cases nothing : cursor.rest = []
      · obtain ⟨offset, text⟩ := cursor
        obtain rfl : text = [] := nothing
        obtain ⟨blanks, last, found, blank⟩ :=
          exists_rowsWithin_lineFeeds noValue count (more + 1) offset (by omega)
        rw [found_rowsWithin_nil, Cursor.extended, List.nil_append, found]
        exact .ended [] blanks blank offset last
      generalize here : ((do moreRows; row value : Phrase DraftRow) cursor).found = front,
        there : ((do moreRows; row longer : Phrase DraftRow) (cursor.extended count)).found = frontThere,
        matched_cells values inside nothing = cells
      cases cells with
      | missing =>
          rw [found_rowsWithin_of_none, found_rowsWithin_of_none]
          · exact .found [] [] cursor.rest rfl nothing
          · rw [found_rowLine, there, Option.bind_none]
          · rw [found_lastRow, there, Option.bind_none]
          · rw [found_rowLine, here, Option.bind_none]
          · rw [found_lastRow, here, Option.bind_none]
      | found line taken rest parts _ =>
          by_cases ended : rest = []
          · subst ended
            exact lined_of_whole_row noValue (by omega) here there
          have insideRest : Inside limit rest := (parts ▸ inside : Inside limit (taken ++ rest)).rest
          generalize ending : (newline ⟨cursor.offset + taken.length, rest⟩).found = end_,
            endingThere : (newline (Cursor.extended ⟨cursor.offset + taken.length, rest⟩ count)).found = endThere,
            matched_newline ⟨cursor.offset + taken.length, rest⟩ count insideRest ended = feeds
          cases feeds with
          | missing => exact lined_of_open_row parts ended here there ending endingThere
          | found _ feed after shape some =>
              have shape : rest = feed ++ after := shape
              have first := found_rowLine_of_newline here ending
              have firstThere := found_rowLine_of_newline there endingThere
              have shorter : after.length < cursor.rest.length := by
                rw [parts, shape, List.length_append, List.length_append]
                omega
              have insideAfter : Inside limit after := (shape ▸ insideRest : Inside limit (feed ++ after)).rest
              have others := ih ⟨cursor.offset + taken.length + feed.length, after⟩ insideAfter
                (show after.length < times by omega) (show after.length + count < more by omega)
              rw [found_rowsWithin_of_line first, found_rowsWithin_of_line firstThere]
              have mapped := others.map (line :: ·) fun _ _ blank => blank.cons line
              have further : Lined count MoreBlank ⟨cursor.offset + taken.length, rest⟩ _ _ := mapped.after shape
              exact further.after parts

theorem lined_rows (values : Agrees count limit 0 value longer)
    (noValue : ∀ count, Fails longer (lineFeeds count)) (cursor : Cursor) (inside : Inside limit cursor.rest) :
    Lined count MoreBlank cursor (rows value cursor).found (rows longer (cursor.extended count)).found := by
  rw [found_rows, found_rows]
  refine lined_rowsWithin values noValue cursor inside (Nat.lt_succ_self _) ?_
  simp only [Cursor.extended, lineFeeds, List.length_append, List.length_replicate]
  omega

end Haystack.Zinc
