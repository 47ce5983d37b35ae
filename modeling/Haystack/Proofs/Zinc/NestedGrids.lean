import Haystack.Proofs.Zinc.LastRows
import Haystack.Proofs.Zinc.Nested

/-!
Grids inside values, and values of any depth, in texts that go on.

The lines of a grid in a value end with a mark of their own. The last row may stand on the line of that
mark, so whether another row follows is told by what ends it.
-/
namespace Haystack.Zinc

open Phrase

variable {α : Type} {more text rest : List Char} {before ending : List Char → Prop} {goes : α → α → Prop}
  {item other : Phrase α} {value longer : Phrase (Reading Value)} {dialect : Version} {k : Continuation}

/-! ## Grids of drafts that go together -/

/-- Columns with the same name and with metadata that goes together. -/
def ColumnCarries (here there : DraftColumn) : Prop :=
  here.name = there.name ∧ List.Forall₂ TagCarries here.metadata there.metadata

/-- Rows whose cells go together. -/
def RowCarries (here there : DraftRow) : Prop := List.Forall₂ (Option.Rel Carries) here.cells there.cells

/-- Lines that say the same, wherever they stand. -/
structure DraftCarries (here there : Draft) : Prop where
  version : Carries here.version there.version
  metadata : List.Forall₂ TagCarries here.metadata there.metadata
  columns : List.Forall₂ ColumnCarries here.columns there.columns
  rows : List.Forall₂ RowCarries here.rows there.rows

theorem carries_addColumns {here there : List DraftColumn} (related : List.Forall₂ ColumnCarries here there)
    (grid : Grid) : Carries (addColumns grid here) (addColumns grid there) := by
  induction related generalizing grid with
  | nil => exact carries_refl
  | @cons column twin _ _ carries _ ih =>
      obtain ⟨same, metadata⟩ := carries
      rw [addColumns, addColumns]
      refine (carries_readTags metadata).bind fun tags => ?_
      rw [same]
      cases (GridOf.addColumn twin.name (.ofList tags)).apply grid with
      | mk outcome grid =>
          cases outcome with
          | ok _ => exact ih grid
          | error error =>
              intro _ same
              cases same

theorem carries_readCells {here there : List (Option (Reading Value))} {offset offset' limit : Nat}
    (related : List.Forall₂ (Option.Rel Carries) here there) (row : Entity) (names : List String) :
    Carries (readCells offset limit row names here) (readCells offset' limit row names there) := by
  induction related generalizing row names with
  | nil => exact fun _ same => by simpa only [readCells] using same
  | cons cell _ ih =>
      cases names with
      | nil =>
          intro _ same
          simp [readCells] at same
      | cons name names =>
          cases cell with
          | none => exact ih row names
          | some carries => exact carries.bind fun value => ih _ names

theorem RowCarries.isBlank_eq {here there : DraftRow} (carries : RowCarries here there) :
    here.isBlank = there.isBlank := by
  obtain ⟨offset, cells⟩ := here
  obtain ⟨offset', others⟩ := there
  change List.Forall₂ (Option.Rel Carries) cells others at carries
  cases carries with
  | nil => rfl
  | cons cell further =>
      cases further with
      | nil => cases cell <;> rfl
      | cons => cases cell <;> rfl

theorem carries_addRows {here there : List DraftRow} {names : List String}
    (related : List.Forall₂ RowCarries here there) (grid : Grid) :
    Carries (addRows names grid here) (addRows names grid there) := by
  induction related generalizing grid with
  | nil => exact carries_refl
  | cons carries _ ih =>
      rw [addRows, addRows, carries.isBlank_eq]
      split
      · exact ih grid
      · exact (carries_readCells carries _ _).bind fun _ => Carries.bind carries_refl fun grid => ih grid

theorem columnNames_eq {here there : List DraftColumn} (related : List.Forall₂ ColumnCarries here there) :
    here.map (·.name) = there.map (·.name) := by
  induction related with
  | nil => rfl
  | cons first _ ih => rw [List.map_cons, List.map_cons, first.1, ih]

theorem carries_draft {here there : Draft} (carries : DraftCarries here there) : Carries here.grid there.grid := by
  unfold Draft.grid
  rw [columnNames_eq carries.columns]
  exact carries.version.bind fun _ => Carries.bind carries_refl fun _ =>
    (carries_readTags carries.metadata).bind fun _ => Carries.bind carries_refl fun grid =>
    (carries_addColumns carries.columns grid).bind fun grid =>
    (carries_addRows carries.rows grid).bind fun _ => carries_refl

/-! ## Lines -/

/-- Where a line of columns or a row ends. -/
def isLineEnd (c : Char) : Bool := c == '\r' || c == '\n' || c == '>'

/-- The end of a grid in a value. -/
def Marked (rest : List Char) : Prop := ∃ tail, rest = '>' :: '>' :: tail

theorem isLineEnd_cases {c : Char} (isEnd : isLineEnd c = true) : c = '\r' ∨ c = '\n' ∨ c = '>' := by
  simpa [isLineEnd, or_assoc] using isEnd

theorem spaced_of_lineEnd (isEnd : Front isLineEnd rest) : Spaced (Front isEnder) rest :=
  spaced_of_ended (isEnd.mono fun c here => by rcases isLineEnd_cases here with rfl | rfl | rfl <;> rfl)

theorem Marked.lineEnd (marked : Marked rest) : Front isLineEnd rest := by
  obtain ⟨tail, rfl⟩ := marked
  exact ⟨'>', '>' :: tail, rfl, rfl⟩

theorem keeps_newline : Keeps k 1 before Eq newline newline :=
  Keeps.after_optional_char (keeps_char.bind_eq fun _ => keeps_pure rfl) (leads_ne_nil (fails_of_found fun _ => rfl))

theorem leads_newline : Leads (Front isLineEnd) newline ending := by
  have mark : Leads (Front isLineEnd) (Phrase.optional (char '\r')) (Front isLineEnd) :=
    Leads.optional (leads_char fun tail _ => ⟨'\r', tail, rfl, rfl⟩) fun _ => id
  exact mark.bind fun _ => (leads_char fun tail _ => ⟨'\n', tail, rfl, rfl⟩).bind_first

theorem rest_of_ahead {p : Phrase α} {cursor after : Cursor} {u : Unit}
    (found : (ahead p cursor).found = some (u, after)) : after = cursor := by
  obtain ⟨_, _, same⟩ := Option.map_eq_some_iff.mp found
  exact (Prod.mk.inj same).2.symm

theorem endsRows_of_found {cursor after : Cursor} {u : Unit} (found : (endOfRows cursor).found = some (u, after)) :
    after = cursor ∧ EndsRows cursor.rest := by
  refine ⟨?_, by_contra fun unfinished => Fails.not_found (fails_endOfRows unfinished) found⟩
  rw [endOfRows, found_orElse, Option.or_eq_some_iff] at found
  exact found.elim rest_of_ahead fun last => rest_of_ahead last.2

/-- Before more text the end of the rows is a mark. -/
theorem marked_of_endsRows (ends : EndsRows rest) (some : rest ≠ []) : Marked rest :=
  ends.elim (absurd · some) id

theorem Marked.endsRows (marked : Marked rest) : EndsRows (rest ++ more) := by
  obtain ⟨tail, rfl⟩ := marked
  exact .inr ⟨tail ++ more, rfl⟩

theorem keeps_endOfRows : Keeps k 0 (· ≠ []) Eq endOfRows endOfRows := by
  intro cursor _ after _ found some
  obtain ⟨rfl, ends⟩ := endsRows_of_found found
  exact ⟨[], rfl, Nat.zero_le _, (marked_of_endsRows ends some).endsRows.reads_endOfRows⟩

theorem leads_endOfRows : Leads (Front isLineEnd) endOfRows (· ≠ []) := by
  intro cursor _ after found some
  obtain ⟨rfl, ends⟩ := endsRows_of_found found
  exact (marked_of_endsRows ends some).lineEnd

theorem rest_of_moreRows {cursor after : Cursor} {u : Unit} (found : (moreRows cursor).found = some (u, after)) :
    after = cursor ∧ ¬ EndsRows cursor.rest := by
  refine ⟨?_, fun ends => Fails.not_found ends.fails_moreRows found⟩
  unfold moreRows at found
  split at found
  · exact nomatch found
  · exact nomatch found
  · exact (Prod.mk.inj (Option.some.inj found)).2.symm

theorem keeps_moreRows (breaks : Breaks k.more) : Keeps k 0 before Eq moreRows moreRows := by
  intro cursor _ after _ found _
  obtain ⟨rfl, unfinished⟩ := rest_of_moreRows found
  refine ⟨[], rfl, Nat.zero_le _, reads_moreRows ?_⟩
  rintro (none | ⟨tail, shape⟩)
  · exact unfinished (.inl (List.append_eq_nil_iff.mp none).1)
  · match left : after.rest with
    | [] => exact unfinished (.inl left)
    | [c] =>
        rw [left] at shape
        obtain ⟨rfl, same⟩ : c = '>' ∧ k.more = '>' :: tail := List.cons_eq_cons.mp shape
        exact breaks.head?_ne (c := '>') (by decide) (by rw [same]; rfl)
    | c :: d :: others =>
        rw [left] at shape
        obtain ⟨rfl, same⟩ := List.cons_eq_cons.mp shape
        obtain ⟨rfl, _⟩ := List.cons_eq_cons.mp same
        exact unfinished (.inr ⟨others, left⟩)

/-! ## Tags and columns -/

theorem leads_spacedTag : Leads (Spaced Parted) (do spaces1; tag value) (Spaced Parted) := by
  have run : Leads (Spaced Parted) (run1 isSpace) (Spaced Parted) :=
    spells_run1.leads fun _ _ _ ⟨_, _, all, _⟩ spaced => spaced.append all
  have tag : Leads (Spaced Parted) (tag value) (Spaced Parted) := leads_tag_spaced
  exact Leads.bind (run.bind fun _ => leads_pure fun _ => id) fun _ => tag

theorem keeps_spacedTag (breaks : Breaks more) (kept : Kept more value longer) :
    Keeps (onward more) 1 (Spaced Parted) TagCarries (do spaces1; tag value) (do spaces1; tag longer) := by
  have spaces : Keeps (onward more) 1 (· ≠ []) Eq spaces1 spaces1 :=
    (keeps_run1 fun _ => id).bind (fun _ _ _ => keeps_pure rfl) fun _ => leads_pure fun _ => id
  exact spaces.bind (fun _ _ _ => (keeps_tag breaks kept).weaken) fun _ => leads_ne_nil (fails_tag stops_nil)

/-- Spaces lead to no further tag before a mark. -/
theorem fails_spacedTag (ended : Spaced (Front isEnder) rest) : Fails (do spaces1; tag longer) (rest ++ more) := by
  have mark : Front isEnder (rest.dropWhile isSpace ++ more) := Front.append ended
  have noTag : Fails (tag longer) (rest.dropWhile isSpace ++ more) := fails_tag (mark.stops fun c here => by
    rcases isEnder_cases here with rfl | rfl | rfl | rfl | rfl | rfl <;> rfl)
  have noSpace : Stops isSpace (rest.dropWhile isSpace ++ more) := mark.stops fun c here => by
    rcases isEnder_cases here with rfl | rfl | rfl | rfl | rfl | rfl <;> rfl
  rw [← List.takeWhile_append_dropWhile (p := isSpace) (l := rest), List.append_assoc]
  by_cases none : rest.takeWhile isSpace = []
  · rw [none]
    exact Fails.bind (fails_spaces1 noSpace)
  · exact Reads.bind_fails (Reads.last (reads_run1 (fun _ => List.mem_takeWhile_imp) none noSpace) reads_pure) noTag

theorem keeps_spacedTags (breaks : Breaks more) (kept : Kept more value longer) :
    Keeps (onward more) 0 (Spaced (Front isEnder)) (List.Forall₂ TagCarries) (spacedTags value) (spacedTags longer) :=
  (keeps_spacedTag breaks kept).many leads_spacedTag (fun _ => spaced_parted_of_ended) fun _ _ => fails_spacedTag

theorem keeps_header (breaks : Breaks more) (kept : Kept more value longer) :
    Keeps (onward more) 0 (Front isEnder) (fun here there => Carries here.1 there.1 ∧
      List.Forall₂ TagCarries here.2 there.2) (header value) (header longer) := by
  have version : Keeps (onward more) 0 (fun _ => True) Carries (named (do word "ver:"; quoted))
      (named (do word "ver:"; quoted)) :=
    Keeps.weaken (Keeps.named (keeps_chars.bind_eq fun _ => keeps_quoted))
  exact Keeps.named (version.bind (fun _ _ carries => (keeps_spacedTags breaks kept).bind
      (fun _ _ related => (keeps_spaces fun _ => Front.ne_nil).bind (fun _ _ _ => keeps_pure ⟨carries, related⟩)
        fun _ => leads_pure fun _ => id)
      fun _ => leads_spaces.bind fun _ => leads_pure fun _ => spaced_of_ended)
    fun _ => leads_anywhere fun _ => trivial)

theorem keeps_column (breaks : Breaks more) (kept : Kept more value longer) :
    Keeps (onward more) 0 (Spaced (Front isEnder)) ColumnCarries (column value) (column longer) :=
  Keeps.weaken (Keeps.named (keeps_here_bind fun _ _ => breaks.tagName.keeps.bind_eq fun _ =>
    (keeps_spacedTags breaks kept).bind (fun _ _ related => keeps_pure ⟨rfl, related⟩) fun _ => leads_pure fun _ => id))

/-- Parts with commas between them fill a line. -/
theorem keeps_separated (keeps : Keeps (onward more) 0 (Spaced (Front isEnder)) goes item other)
    (present : Leads (· ≠ []) item (· ≠ [])) :
    Keeps (onward more) 0 (Front isLineEnd) (List.Forall₂ goes) (separated item) (separated other) := by
  have others : Keeps (onward more) 0 (Front isLineEnd) (List.Forall₂ goes) (many (furtherPart item))
      (many (furtherPart other)) :=
    (keeps_furtherPart keeps present).many leads_furtherPart (fun _ => spaced_of_lineEnd)
      fun _ _ isEnd => Fails.bind (fails_char (isEnd.head?_ne rfl))
  have leads (first : α) : Leads (Spaced (Front isEnder))
      (do let others ← many (furtherPart item); pure (first :: others)) (Front isLineEnd) :=
    (Leads.many leads_furtherPart fun _ => spaced_of_lineEnd).bind fun _ => leads_pure fun _ => id
  have some (first : α) : Leads (· ≠ []) (do let others ← many (furtherPart item); pure (first :: others))
      (Front isLineEnd) := (leads first).mono fun _ ended => ended.front.ne_nil
  exact Keeps.named (Keeps.after_spaces (keeps.bind (fun _ _ related => Keeps.after_spaces (others.bind
      (fun _ _ further => keeps_pure (.cons related further)) fun _ => leads_pure fun _ => id) (some _))
    fun _ => leads_spaces.bind fun _ => leads _)
    (present.bind fun _ => leads_spaces_ne_nil.bind fun _ => some _))

/-! ## Rows -/

theorem keeps_row (kept : Kept more value longer) :
    Keeps (onward more) 0 (Front isLineEnd) RowCarries (row value) (row longer) := by
  have cell : Keeps (onward more) 0 (Spaced (Front isEnder)) (Option.Rel Carries) (named (Phrase.optional value))
      (named (Phrase.optional longer)) :=
    Keeps.named (kept.keeps_spaced.optional (fun _ => id) fun _ _ _ ended =>
      kept.further _ (ended.stops_of_ended (by decide)))
  have present : Leads (· ≠ []) (named (Phrase.optional value)) (· ≠ []) :=
    Leads.named (Leads.optional (leads_ne_nil (kept.absent [] stops_nil)) fun _ => id)
  refine keeps_here_bind fun _ _ => (keeps_separated cell present).bind (fun _ _ related => keeps_pure ?_)
    fun _ => leads_pure fun _ => id
  exact related

theorem keeps_rowLine (breaks : Breaks more) (kept : Kept more value longer) :
    Keeps (onward more) 1 before RowCarries (rowLine value) (rowLine longer) :=
  (keeps_moreRows breaks).bind_eq fun _ => (keeps_row kept).bind (fun _ _ related =>
    keeps_newline.bind_eq fun _ => keeps_pure related) fun _ => leads_newline.bind_first

/-- The end of the lines: the mark, or a last row before it. -/
def EndsLines (value : Phrase (Reading Value)) (rest : List Char) : Prop :=
  Marked rest ∨ ∃ offset line after, (row value ⟨offset, rest⟩).found = some (line, after) ∧ Marked after.rest

/-- The lines of a grid go on only with a row that ends in a line feed. -/
theorem EndsLines.fails (ends : EndsLines value rest) (kept : Kept more value longer)
    (admitted : (onward more).admits rest) : Fails (rowLine longer) (rest ++ more) := by
  rcases ends with marked | ⟨offset, line, after, found, marked⟩
  · exact Fails.bind marked.endsRows.fails_moreRows
  · obtain ⟨taken, parts, _, takes⟩ := keeps_row kept ⟨offset, rest⟩ line after admitted found marked.lineEnd
    have shape : rest ++ more = taken ++ (after.rest ++ more) := by
      rw [← List.append_assoc]
      exact congrArg (· ++ more) parts
    by_cases ended : EndsRows (rest ++ more)
    · exact Fails.bind ended.fails_moreRows
    · refine Reads.skip_fails (reads_moreRows ended) ?_
      rw [shape]
      obtain ⟨tail, isMark⟩ := marked
      exact takes.bind_fails fun _ => Fails.bind (isMark ▸ fails_newline (by decide) (by decide))

theorem leads_lastRow : Leads (EndsLines value) (Phrase.optional (lastRow value)) Marked := by
  refine Leads.optional (fun cursor line after found marked => ?_) fun _ => .inl
  rw [lastRow, found_bind, Option.bind_eq_some_iff] at found
  obtain ⟨⟨_, start⟩, isStart, found⟩ := found
  obtain ⟨rfl, _⟩ := rest_of_moreRows isStart
  rw [found_bind, Option.bind_eq_some_iff] at found
  obtain ⟨⟨cells, middle⟩, isRow, found⟩ := found
  rw [found_bind, Option.bind_eq_some_iff] at found
  obtain ⟨⟨_, last⟩, isEnd, made⟩ := found
  obtain ⟨rfl, _⟩ := endsRows_of_found isEnd
  obtain ⟨_, rfl⟩ := Prod.mk.inj (Option.some.inj made)
  exact .inr ⟨start.offset, cells, last, isRow, marked⟩

theorem keeps_rows (breaks : Breaks more) (kept : Kept more value longer) :
    Keeps (onward more) 0 Marked (List.Forall₂ RowCarries) (rows value) (rows longer) := by
  have line : Keeps (onward more) 1 (fun _ => True) RowCarries (rowLine value) (rowLine longer) :=
    keeps_rowLine breaks kept
  have lines : Keeps (onward more) 0 (EndsLines value) (List.Forall₂ RowCarries) (many (rowLine value))
      (many (rowLine longer)) :=
    line.many (leads_anywhere fun _ => trivial) (fun _ _ => trivial) fun _ admitted ends => ends.fails kept admitted
  have last : Keeps (onward more) 0 Marked RowCarries (lastRow value) (lastRow longer) := by
    have some (rest : List Char) (marked : Marked rest) : rest ≠ [] := marked.lineEnd.ne_nil
    exact (keeps_moreRows breaks).bind_eq fun _ => (keeps_row kept).bind (fun _ _ related =>
        (keeps_endOfRows.mono some).bind (fun _ _ _ => keeps_pure related) fun _ => leads_pure fun _ => id)
      fun _ => leads_endOfRows.bind fun _ => leads_pure some
  have perhaps : Keeps (onward more) 0 Marked (Option.Rel RowCarries) (Phrase.optional (lastRow value))
      (Phrase.optional (lastRow longer)) :=
    last.optional (fun _ => id) fun _ _ _ marked => Fails.bind marked.endsRows.fails_moreRows
  refine Keeps.named (lines.bind (fun _ _ related => perhaps.bind (fun here there further => keeps_pure ?_)
    fun _ => leads_pure fun _ => id) fun _ => leads_lastRow.bind fun _ => leads_pure fun _ => id)
  refine List.rel_append related ?_
  cases further with
  | none => exact .nil
  | some carries => exact .cons carries .nil

/-! ## Grids -/

/-- The line of the columns ends with a line feed, or before the mark if there are no rows. -/
theorem keeps_columnsEnd : Keeps k 0 (· ≠ []) Eq (newline <|> endOfRows) (newline <|> endOfRows) := by
  refine keeps_newline.weaken.orElse keeps_endOfRows fun cursor _ after _ _ found some => ?_
  obtain ⟨rfl, ends⟩ := endsRows_of_found found
  obtain ⟨tail, shape⟩ := marked_of_endsRows ends some
  rw [shape]
  exact fails_newline (by decide) (by decide)

theorem leads_rows_ne_nil : Leads (· ≠ []) (rows value) (· ≠ []) := by
  have line : Leads (· ≠ []) (rowLine value) (· ≠ []) := leads_ne_nil (Fails.bind (EndsRows.fails_moreRows (.inl rfl)))
  have last : Leads (· ≠ []) (lastRow value) (· ≠ []) := leads_ne_nil (Fails.bind (EndsRows.fails_moreRows (.inl rfl)))
  exact Leads.named ((Leads.many line fun _ => id).bind fun _ => (Leads.optional last fun _ => id).bind fun _ =>
    leads_pure fun _ => id)

theorem keeps_draft (breaks : Breaks more) (kept : Kept more value longer) :
    Keeps (onward more) 0 Marked DraftCarries (draft value) (draft longer) := by
  have columns := keeps_separated (keeps_column breaks kept) (leads_ne_nil (Fails.named
    (fails_here_bind fun _ => Fails.bind (fails_tagName stops_nil))))
  have mark : Leads (Front isLineEnd) (newline <|> endOfRows) (· ≠ []) := leads_newline.orElse leads_endOfRows
  have behind (front : Reading String × List (String × Reading Value)) (columns : List DraftColumn) :
      Leads (· ≠ []) (do let rows ← rows value; pure (⟨front.1, front.2, columns, rows⟩ : Draft)) Marked :=
    leads_rows_ne_nil.bind fun _ => leads_pure fun _ marked => marked.lineEnd.ne_nil
  have lineEnd : Leads (Front isEnder) newline fun _ => True := leads_newline.mono fun _ isEnd =>
    isEnd.mono fun c here => by rcases isLineEnd_cases here with rfl | rfl | rfl <;> rfl
  exact Keeps.weaken (Keeps.named ((keeps_header breaks kept).bind (fun here there front =>
      keeps_newline.bind_eq fun _ => columns.bind (fun _ _ areColumns => keeps_columnsEnd.bind
          (fun _ _ _ => (keeps_rows breaks kept).bind
            (fun _ _ areRows => keeps_pure ⟨front.1, front.2, areColumns, areRows⟩) fun _ => leads_pure fun _ => id)
          fun _ => behind here _)
        fun _ => mark.bind fun _ => behind here _)
    fun _ => lineEnd.bind_first))

theorem leads_draft : Leads (Front (· == 'v')) (draft value) ending := by
  have version : Leads (Front (· == 'v')) (word "ver:") fun _ => True :=
    spells_chars.leads fun taken _ rest same _ => by
      rw [same]
      exact ⟨'v', 'e' :: 'r' :: ':' :: rest, rfl, rfl⟩
  exact Leads.named (Leads.bind_first (Leads.named (Leads.bind_first (Leads.named version.bind_first))))

theorem keeps_innerGrid (breaks : Breaks more) (kept : Kept more value longer) :
    Keeps (onward more) 0 ending Carries (innerGrid value dialect) (innerGrid longer dialect) := by
  have feed : Keeps (onward more) 0 (Front (· == 'v')) (Option.Rel Eq) (Phrase.optional newline)
      (Phrase.optional newline) := by
    refine (keeps_newline.weaken).optional (fun _ => id) fun _ _ _ front => ?_
    obtain ⟨c, tail, shape, isFront⟩ := front
    rw [shape, beq_iff_eq.mp isFront]
    exact fails_newline (by decide) (by decide)
  have mark : Leads Marked (word ">>") fun _ => True := spells_chars.leads fun taken _ rest same _ => by
    rw [same]
    exact ⟨rest, rfl⟩
  have none : Fails (draft value) [] := Fails.named (Fails.bind (Fails.named (Fails.bind (Fails.named
    (Fails.bind (fails_of_found fun _ => rfl))))))
  refine Keeps.weaken (Keeps.named (keeps_here_bind fun _ _ => keeps_chars.bind_eq fun _ => Keeps.after_spaces
    (feed.bind (fun _ _ _ => Keeps.weaken ((keeps_draft breaks kept).bind
        (fun _ _ lines => Keeps.weaken (keeps_chars.bind_eq fun _ => keeps_pure ?_)) fun _ => mark.bind_first))
      fun _ => leads_draft.bind_first)
    ((Leads.optional (leads_ne_nil (fails_of_found fun _ => rfl)) fun _ => id).bind fun _ =>
      leads_ne_nil (Fails.bind none))))
  exact carries_requireThree.bind fun _ => (carries_draft lines).bind fun _ => carries_refl

/-! ## Values -/

theorem fails_list (other : text.head? ≠ some '[') : Fails (list dialect value) text :=
  Fails.named (fails_here_bind fun _ => Fails.bind (fails_char other))

theorem fails_dict (other : text.head? ≠ some '\x7b') : Fails (dict dialect value) text :=
  Fails.named (fails_here_bind fun _ => Fails.bind (fails_char other))

theorem fails_innerGrid (other : text.head? ≠ some '<') : Fails (innerGrid value dialect) text :=
  Fails.named (fails_here_bind fun _ => Fails.bind (fails_word (by decide) other))

theorem keeps_collections (breaks : Breaks more) (kept : Kept more value longer) :
    Keeps (onward more) 0 Apart Carries (collections value dialect) (collections longer dialect) := by
  refine (keeps_list kept).orElse ((keeps_dict breaks kept).orElse (keeps_innerGrid breaks kept) ?dict) ?list
  case list =>
    intro cursor a after _ _ found _
    refine fails_list (breaks.head?_append_ne (by decide) fun head => Fails.not_found (Fails.orElse ?_ ?_) found)
    · exact fails_dict (by simp [head])
    · exact fails_innerGrid (by simp [head])
  case dict =>
    intro cursor a after _ _ found _
    exact fails_dict (breaks.head?_append_ne (by decide) fun head =>
      Fails.not_found (fails_innerGrid (by simp [head])) found)

theorem kept_valueWithin (breaks : Breaks more) {depth deeper : Nat} (deep : depth ≤ deeper) :
    Kept more (valueWithin dialect depth) (valueWithin dialect deeper) := by
  have absent (depth : Nat) (text : List Char) (stops : Stops isValueStart text) :
      Fails (valueWithin dialect depth) text := by
    cases depth with
    | zero => exact fails_of_found fun _ => rfl
    | succ depth => exact fails_valueAround stops
  induction depth generalizing deeper with
  | zero => exact ⟨fun _ _ _ _ found _ => (nomatch found), absent 0, absent deeper⟩
  | succ depth ih =>
      obtain ⟨deeper, rfl⟩ : ∃ n, deeper = n + 1 := ⟨deeper - 1, by omega⟩
      have kept := @ih deeper (by omega)
      exact ⟨keeps_valueAround breaks (keeps_collections breaks kept), absent (depth + 1), absent (deeper + 1)⟩

/-- A value is kept where its text goes on, unless that closes a quotation mark in it. -/
theorem keeps_value (breaks : Breaks more) (dialect : Version) :
    Keeps (onward more) 0 Apart Carries (Zinc.value dialect) (Zinc.value dialect) := by
  intro cursor reading after admitted found apart
  have kept : Kept more (valueWithin dialect (cursor.rest.length + 1))
    (valueWithin dialect ((cursor.rest ++ more).length + 1)) := kept_valueWithin breaks (by simp)
  obtain ⟨taken, parts, enough, takes⟩ := kept.keeps cursor reading after admitted found apart
  refine ⟨taken, parts, enough, ?_⟩
  unfold Takes at takes ⊢
  rw [parts, List.append_assoc] at takes
  exact takes

end Haystack.Zinc
