import Haystack.Format
import Haystack.Proofs.Zinc.Blocks

/-!
Several grids in one text.

Texts are cut where lines are blank, before anything is read. In grids that are plain no line is, so each
part is the text of one grid, less line feeds at its end, and is read as that text is.
-/
namespace Haystack.Zinc

variable {chunk body rest next : List Char} {limit : Nat}

/-! ## Cutting a text -/

theorem afterNewline?_of_ne {c : Char} (noFeed : c ≠ '\n') (noReturn : c ≠ '\r') :
    afterNewline? (c :: rest) = none := by
  unfold afterNewline?
  split
  · next shape => exact absurd (List.cons.inj shape).1 noFeed
  · next shape => exact absurd (List.cons.inj shape).1 noReturn
  · rfl

theorem Shows.afterBlankLine? (shows : Shows body) : afterBlankLine? body = none := by
  obtain ⟨front, c, more, rfl, spaces, visible⟩ := shows
  simp only [isVisible, Bool.and_eq_true, Bool.not_eq_true', bne_iff_ne] at visible
  rw [Zinc.afterBlankLine?, List.dropWhile_append_of_pos spaces,
    List.dropWhile_cons_of_neg (by simp [visible.1.1])]
  exact afterNewline?_of_ne visible.1.2 visible.2

theorem Solid.tail {c : Char} (solid : Solid (c :: body)) : Solid body where
  noReturn := fun member => solid.noReturn (List.mem_cons_of_mem c member)
  lines := fun before after parts => solid.lines (c :: before) after (by rw [parts, List.cons_append])

/-- No text is cut in a block, nor where it ends. -/
theorem Solid.separator? {c : Char} (solid : Solid (c :: body)) :
    separator? (c :: body ++ rest) = none := by
  by_cases isFeed : c = '\n'
  · subst isFeed
    have shows := (solid.lines [] body rfl).append rest
    simp [Zinc.separator?, afterNewline?, shows.afterBlankLine?]
  · have noReturn : c ≠ '\r' := fun isReturn => solid.noReturn (isReturn ▸ List.mem_cons_self)
    rw [Zinc.separator?, List.cons_append, afterNewline?_of_ne isFeed noReturn]
    rfl

theorem chunksWithin_of_some {text : List Char} (cut : Zinc.separator? text = some rest) :
    chunksWithin chunk text (limit + 1) = chunk.reverse :: chunksWithin [] rest limit := by
  simp only [chunksWithin, cut]

theorem chunksWithin_of_none {c : Char} (uncut : Zinc.separator? (c :: rest) = none) :
    chunksWithin chunk (c :: rest) (limit + 1) = chunksWithin (c :: chunk) rest limit := by
  simp only [chunksWithin, uncut]

/-- At the end of a text nothing more is cut. -/
theorem chunksWithin_nil : chunksWithin chunk [] limit = [chunk.reverse] := by
  cases limit <;> simp [chunksWithin, separator?, afterNewline?]

theorem chunksWithin_solid (solid : Solid body) :
    chunksWithin chunk (body ++ rest) (body.length + limit) = chunksWithin (body.reverse ++ chunk) rest limit := by
  induction body generalizing chunk with
  | nil => simp
  | cons c body ih =>
      have step : chunksWithin chunk (c :: body ++ rest) (body.length + limit + 1) =
          chunksWithin (c :: chunk) (body ++ rest) (body.length + limit) :=
        chunksWithin_of_none solid.separator?
      rw [List.length_cons, Nat.add_right_comm, step, ih solid.tail]
      simp

theorem afterBlankLines_lineFeeds (stops : afterBlankLine? next = none) {count : Nat} (enough : count ≤ limit) :
    afterBlankLines (lineFeeds count ++ next) limit = next := by
  induction count generalizing limit with
  | zero => cases limit <;> simp [lineFeeds, afterBlankLines, stops]
  | succ count ih =>
      obtain ⟨limit, rfl⟩ : ∃ n, limit = n + 1 := ⟨limit - 1, by omega⟩
      exact ih (Nat.le_of_succ_le_succ enough)

/-- Line feeds are taken all at once. -/
theorem separator?_lineFeeds (stops : afterBlankLine? next = none) (count : Nat) :
    separator? (lineFeeds (count + 2) ++ next) = some next := by
  change some (afterBlankLines (lineFeeds count ++ next) (lineFeeds count ++ next).length) = some next
  rw [afterBlankLines_lineFeeds stops (by simp [lineFeeds])]

/-- The text after a block is cut off before its line feeds, if there are two or more. -/
theorem chunksWithin_body (block : Block body) (stops : afterBlankLine? next = none) (count : Nat) :
    chunksWithin [] (body ++ (lineFeeds (count + 2) ++ next)) (body.length + (limit + 1)) =
      body :: chunksWithin [] next limit := by
  rw [chunksWithin_solid block.toSolid, chunksWithin_of_some (separator?_lineFeeds stops count)]
  simp

/-- A part of a text as one grid was written, less line feeds at its end. -/
structure IsPart (part : List Char) (text : String) : Prop where
  block : ∃ body before, part = body ++ lineFeeds before ∧ Block body ∧ body.head? = some 'v'
  feeds : ∃ after, text.toList = part ++ lineFeeds after

theorem HasBody.isPart {text : String} {feeds : Nat} (hasBody : HasBody text body feeds) : IsPart body text where
  block := ⟨body, 0, by simp [lineFeeds], hasBody.block, hasBody.starts⟩
  feeds := ⟨feeds, hasBody.parts⟩

theorem not_isAllBlank (starts : chunk.head? = some 'v') : Text.isAllBlank chunk = false := by
  obtain ⟨more, rfl⟩ := List.head?_eq_some_iff.mp starts
  rfl

/-- What is read as grids, in order. -/
def filledChunks (text : List Char) (limit : Nat) : List (List Char) :=
  (chunksWithin [] text limit).filter fun chunk => !Text.isAllBlank chunk

/-- The last text keeps its line feed, or is cut where it has several. -/
theorem filledChunks_last {text : String} {count : Nat} (limit : Nat) (hasBody : HasBody text body (count + 1)) :
    ∃ part, filledChunks text.toList (body.length + (limit + 1)) = [part] ∧ IsPart part text := by
  rw [filledChunks, hasBody.parts]
  cases count with
  | zero =>
      refine ⟨body ++ ['\n'], ?_, ⟨⟨body, 1, rfl, hasBody.block, hasBody.starts⟩, ⟨0, ?_⟩⟩⟩
      · rw [chunksWithin_solid hasBody.block.toSolid]
        change (chunksWithin (body.reverse ++ []) ['\n'] (limit + 1)).filter _ = _
        have starts : (body ++ ['\n']).head? = some 'v' := by rw [List.head?_append, hasBody.starts, Option.some_or]
        rw [chunksWithin_of_none rfl, chunksWithin_nil]
        simp [not_isAllBlank starts]
      · rw [hasBody.parts]
        simp [lineFeeds]
  | succ count =>
      refine ⟨body, ?_, hasBody.isPart⟩
      have cut : chunksWithin [] _ (body.length + (limit + 1)) = _ :=
        chunksWithin_body hasBody.block (rfl : afterBlankLine? [] = none) count
      rw [List.append_nil] at cut
      rw [cut, chunksWithin_nil, List.filter_cons_of_pos (by rw [not_isAllBlank hasBody.starts]; rfl)]
      rfl

/-- Between two texts there are line feeds enough to cut them apart. -/
theorem filledChunks_cons {text : String} {count : Nat} (hasBody : HasBody text body (count + 1))
    (shows : Shows next) : filledChunks (text.toList ++ '\n' :: next) (body.length + (limit + 1)) =
      body :: filledChunks next limit := by
  have shape : text.toList ++ '\n' :: next = body ++ (lineFeeds (count + 2) ++ next) := by
    rw [hasBody.parts, List.append_assoc, lineFeeds, lineFeeds, List.replicate_succ' (n := count + 1)]
    simp
  rw [shape, filledChunks, chunksWithin_body hasBody.block shows.afterBlankLine? count]
  simp [not_isAllBlank hasBody.starts, filledChunks]

/-- The parts of a text that grids were written in, in order, are the texts of the grids. -/
theorem parts_of_intercalate {texts : List String}
    (bodies : ∀ text ∈ texts, ∃ body count, HasBody text body (count + 1))
    (enough : (String.intercalate "\n" texts).toList.length < limit) :
    List.Forall₂ IsPart (filledChunks (String.intercalate "\n" texts).toList limit) texts := by
  induction texts generalizing limit with
  | nil =>
      rw [String.intercalate_nil, String.toList_empty, filledChunks, chunksWithin_nil]
      exact .nil
  | cons text texts ih =>
      rw [List.forall_mem_cons] at bodies
      obtain ⟨body, count, hasBody⟩ := bodies.1
      have size : text.toList.length = body.length + (count + 1) := by
        rw [hasBody.parts, List.length_append, lineFeeds, List.length_replicate]
      have within := Text.length_le_intercalate (List.mem_cons_self (a := text) (l := texts)) "\n"
      obtain ⟨more, rfl⟩ : ∃ more, limit = body.length + (more + 1) := ⟨limit - body.length - 1, by omega⟩
      cases texts with
      | nil =>
          obtain ⟨part, only, isPart⟩ := filledChunks_last more hasBody
          rw [String.intercalate_singleton, only]
          exact .cons isPart .nil
      | cons second texts =>
          obtain ⟨_, _, hasBodySecond⟩ := bodies.2 second List.mem_cons_self
          have shows : Shows (String.intercalate "\n" (second :: texts)).toList := by
            rw [show "\n" = String.singleton '\n' from rfl, Text.toList_intercalate_char, hasBodySecond.parts]
            exact (hasBodySecond.block.shows.append _).append _
          have shape : (String.intercalate "\n" (text :: second :: texts)).toList =
              text.toList ++ '\n' :: (String.intercalate "\n" (second :: texts)).toList := by
            simp [String.intercalate_cons_cons]
          rw [shape] at enough ⊢
          rw [filledChunks_cons hasBody shows]
          refine .cons hasBody.isPart (ih bodies.2 ?_)
          rw [List.length_append, List.length_cons] at enough
          omega

/-! ## Grids in one text -/

variable {grids backs : List Grid} {grid back : Grid}

/-- A grid is written as a text that is read as another. -/
def ReadsAs (grid back : Grid) : Prop := ∃ text, writeGrid grid = .ok text ∧ readGrid text = .ok back

/-- Nothing in a grid is written with a blank line; its own rows may be without columns. -/
structure IsCompact (grid : Grid) : Prop where
  mimes : HasPlainMimes grid
  values : ∀ part ∈ grid.values, part.Throughout IsPlain

/-- A grid that is compact has blank lines at the end of its text at most. -/
theorem exists_body {text : String} (named : grid.Throughout IsNamed) (compact : IsCompact grid)
    (written : writeGrid grid = .ok text) : ∃ body count, HasBody text body (count + 1) := by
  have values : WritesBlocks grid.version grid.values := fun part member _ isText =>
    block_of_writeValue ((named.inside member).and (compact.values part member))
      (fun below mime isBin => compact.mimes below mime (isBin ▸ member)) isText
  obtain ⟨body, count, hasBody, _⟩ := exists_hasBody named.here values written
  exact ⟨body, count, hasBody⟩

/-- The part of a text that a grid was written in is read as the text of the grid is. -/
theorem IsPart.read {part : List Char} {text : String} (isPart : IsPart part text)
    (read : readGrid text = .ok back) :
    readGridChars (part.dropWhile fun c => c == '\r' || c == '\n') = .ok back := by
  obtain ⟨⟨body, before, rfl, block, starts⟩, ⟨after, parts⟩⟩ := isPart
  have ending : body.getLast? ≠ some '\r' := fun last => block.noReturn (List.mem_of_getLast? last)
  have whole : text.toList = body ++ lineFeeds (before + after) := by
    rw [parts, List.append_assoc, lineFeeds, lineFeeds, lineFeeds, List.replicate_append_replicate]
  have kept : (body ++ lineFeeds before).dropWhile (fun c => c == '\r' || c == '\n') =
      body ++ lineFeeds before := by
    obtain ⟨more, rfl⟩ := List.head?_eq_some_iff.mp starts
    rfl
  rw [kept, readGridChars_lineFeeds before ending, ← readGridChars_lineFeeds (before + after) ending, ← whole]
  exact read

/-- Grids with words for names and without blank lines are written in one text, whose parts are the texts
of the grids in order, less line feeds at their ends. It is read as what each of the texts is read as. -/
theorem readGrids_writeGrids (named : ∀ grid ∈ grids, grid.Throughout IsNamed)
    (compact : ∀ grid ∈ grids, IsCompact grid) (again : List.Forall₂ ReadsAs grids backs) :
    ∃ text, Format.zinc.writeGrids grids = .ok text ∧ readGrids text = .ok backs ∧
      List.Forall₂ (fun grid part => ∃ feeds, writeGrid grid = .ok (String.ofList (part ++ lineFeeds feeds)))
        grids ((chunks text.toList).filter fun chunk => !Text.isAllBlank chunk) := by
  obtain ⟨texts, written, read⟩ := Pairing.exists_middle again
  have isWritten : grids.mapM writeGrid = .ok texts := Outcome.mapM_ok_iff.mpr written
  have bodies : ∀ text ∈ texts, ∃ body count, HasBody text body (count + 1) := by
    intro text member
    obtain ⟨grid, inGrids, isText⟩ := Outcome.of_mapM isWritten member
    exact exists_body (named grid inGrids) (compact grid inGrids) isText
  have parts := parts_of_intercalate bodies (Nat.lt_succ_self _)
  refine ⟨String.intercalate "\n" texts, ?_, ?_, ?_⟩
  · rw [Format.writeGrids, isWritten]
    rfl
  · exact Outcome.mapM_ok_iff.mpr (Pairing.forall₂_trans (fun _ _ _ isPart read => isPart.read read) parts read)
  · refine Pairing.forall₂_trans (fun grid text part isText isPart => ?_) written parts.flip
    obtain ⟨feeds, shape⟩ := IsPart.feeds isPart
    exact ⟨feeds, by rw [isText, ← shape, String.ofList_toList]⟩

/-! ### Two grids in one text -/

/-- What a grid is read as again, if it can be written and read. -/
def readAgain (grid : Grid) : Option Grid := do
  let text ← (writeGrid grid).toOption
  (readGrid text).toOption

theorem exists_readsAs (grid : Grid) (reads : (readAgain grid).isSome = true) : ∃ back, ReadsAs grid back := by
  unfold readAgain at reads
  cases written : writeGrid grid with
  | error refusal => simp [written, Except.toOption] at reads
  | ok text =>
      cases read : readGrid text with
      | error refusal => simp [written, read, Except.toOption] at reads
      | ok back => exact ⟨back, text, written, read⟩

/-- A grid of an old version without columns, whose rows are line feeds. -/
def tallies : Grid := ⟨.two, false, .empty, .empty, [.empty, .empty]⟩

def seedlings : Grid := ⟨.three, false, .empty, ⟨[("n", .empty)]⟩, [.empty]⟩

/-- A grid with a list and another grid in its rows. -/
def orchard : Grid where
  version := .three
  pinned := false
  metadata := ⟨[("dis", .str "Trees\n\n")]⟩
  columns := ⟨[("id", .empty), ("more", .empty)]⟩
  rows := [⟨[("id", .ref ⟨"a", none⟩), ("more", .list [.marker, .null])]⟩, ⟨[("more", .grid seedlings)]⟩]

theorem orchard_plain : ∀ part ∈ orchard.values, part.Throughout fun part => IsNamed part ∧ IsPlain part := by
  have names : HasWordNames seedlings := ⟨by decide, by decide, by decide⟩
  intro part member
  simp only [orchard, GridOf.values, OrderedMap.values, OrderedMap.empty, List.map_cons, List.map_nil,
    List.flatMap_cons, List.flatMap_nil, List.mem_append, List.mem_cons, List.not_mem_nil, or_false] at member
  rcases member with rfl | (rfl | rfl) | rfl
  · exact Value.throughout_of_childless ⟨trivial, trivial⟩ rfl
  · exact Value.throughout_of_childless ⟨trivial, (by decide : Unbroken "a".toList)⟩ rfl
  · refine .intro _ ⟨trivial, trivial⟩ fun item inItems => ?_
    rcases List.mem_pair.mp inItems with rfl | rfl <;>
      exact Value.throughout_of_childless ⟨trivial, trivial⟩ rfl
  · have columns : seedlings.columns.items ≠ [] := by simp [seedlings]
    exact Value.throughout_of_childless ⟨names, fun old => absurd (by decide) old,
      fun none => absurd none columns⟩ rfl

theorem readGrids_writeGrids_orchard : ∃ backs, (∀ grid ∈ [orchard, tallies], grid.Throughout IsNamed) ∧
    (∀ grid ∈ [orchard, tallies], IsCompact grid) ∧ List.Forall₂ ReadsAs [orchard, tallies] backs ∧
    ∃ text, Format.zinc.writeGrids [orchard, tallies] = .ok text ∧ readGrids text = .ok backs ∧
      List.Forall₂ (fun grid part => ∃ feeds, writeGrid grid = .ok (String.ofList (part ++ lineFeeds feeds)))
        [orchard, tallies] ((chunks text.toList).filter fun chunk => !Text.isAllBlank chunk) := by
  have named : ∀ grid ∈ [orchard, tallies], grid.Throughout IsNamed := by
    refine List.forall_mem_cons.mpr ⟨.intro _ ⟨by decide, by decide, by decide⟩ fun part member => ?_,
      List.forall_mem_singleton.mpr ?_⟩
    · exact (orchard_plain part member).imp fun _ both => both.1
    · exact Value.throughout_of_childless ⟨by decide, by decide, by decide⟩ rfl
  have compact : ∀ grid ∈ [orchard, tallies], IsCompact grid := by
    refine List.forall_mem_cons.mpr ⟨.mk (fun old => absurd (by decide) old) fun part member => ?_,
      List.forall_mem_singleton.mpr ?_⟩
    · exact (orchard_plain part member).imp fun _ both => both.2
    · exact .mk (fun _ _ none => nomatch none) fun _ none => nomatch none
  obtain ⟨first, reads⟩ := exists_readsAs orchard (by decide +kernel)
  obtain ⟨second, readsToo⟩ := exists_readsAs tallies (by decide +kernel)
  have again : List.Forall₂ ReadsAs [orchard, tallies] [first, second] := .cons reads (.cons readsToo .nil)
  exact ⟨[first, second], named, compact, again, readGrids_writeGrids named compact again⟩

/-! ### Rows without columns in a value -/

/-- A grid with a grid in it that has a row and no columns. -/
def hollow : Grid where
  version := .three
  pinned := false
  metadata := .empty
  columns := ⟨[("a", .empty)]⟩
  rows := [⟨[("a", .grid ⟨.three, false, .empty, .empty, [.empty]⟩)]⟩]

def hollowText : String := "ver:\"3.0\"\na\n<<ver:\"3.0\"\nempty\n\n>>\n"

theorem writeGrid_hollow : writeGrid hollow = .ok hollowText := rfl

theorem hollow_named : hollow.Throughout IsNamed := by
  refine .intro _ ⟨by decide, by decide, by decide⟩ fun part member => ?_
  obtain rfl := List.mem_singleton.mp member
  exact Value.throughout_of_childless ⟨by decide, by decide, by decide⟩ rfl

/-- The row is written as a blank line, where the text is cut. -/
theorem not_readGrids_writeGrids : ¬ ∀ grids backs : List Grid,
    (∀ grid ∈ grids, grid.Throughout IsNamed) → List.Forall₂ ReadsAs grids backs →
      ∃ text, Format.zinc.writeGrids grids = .ok text ∧ readGrids text = .ok backs := by
  intro claim
  have accepted : (readGrid hollowText).isOk = true := by decide +kernel
  have refused : (readGrids hollowText).isOk = false := by decide +kernel
  obtain ⟨back, read⟩ := Outcome.succeeds_of_isOk accepted
  obtain ⟨text, written, reads⟩ := claim [hollow] [back] (List.forall_mem_singleton.mpr hollow_named)
    (.cons ⟨hollowText, writeGrid_hollow, read⟩ .nil)
  have same : Format.zinc.writeGrids [hollow] = .ok hollowText := rfl
  obtain rfl := Except.ok.inj (written.symm.trans same)
  rw [reads] at refused
  exact nomatch refused

end Haystack.Zinc
