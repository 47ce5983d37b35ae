import Haystack.Proofs.Zinc.Collections
import Haystack.Zinc.Writer

/-!
The lines of a grid as they are read: the header, the columns and the rows.

Cells and columns are followed by a comma or by the end of their line, so that what follows a cell
follows a value too; the rows end where the text does, or the brackets around the grid.
-/
namespace Haystack.Zinc

open Phrase

variable {value : Phrase (Reading Value)} {rest : List Char}

/-! ## Parts of a line -/

/-- What follows a column or a cell. -/
def FollowsCell (rest : List Char) : Prop := ∃ c more, rest = c :: more ∧ (c = ',' ∨ c = '\n')

theorem FollowsCell.follows (next : FollowsCell rest) : Follows rest := by
  obtain ⟨c, more, rfl, rfl | rfl⟩ := next
  · exact .separator ',' more rfl
  · exact .separator '\n' more rfl

theorem FollowsCell.noSpace (next : FollowsCell rest) : Stops isSpace rest := by
  obtain ⟨c, more, rfl, rfl | rfl⟩ := next
  · exact stops_cons.mpr rfl
  · exact stops_cons.mpr rfl

/-- A text is read as a part of a line, whichever part or end of line follows it. -/
structure LegiblePart {α : Type} (item : Phrase α) (text : String) (holds : α → Prop) : Prop where
  noSpace : ∀ rest, FollowsCell rest → Stops isSpace (text.toList ++ rest)
  takes : ∀ rest, FollowsCell rest → Takes item text.toList rest holds

/-- Parts with commas between them fill a line. -/
theorem takes_separated {α γ : Type} {item : Phrase α} {holds : γ → α → Prop} {texts : List String}
    {values : List γ} (nonempty : texts ≠ [])
    (legible : List.Forall₂ (fun text value => LegiblePart item text (holds value)) texts values) :
    Takes (separated item) (String.intercalate "," texts).toList ('\n' :: rest)
      (List.Forall₂ holds values) := by
  cases legible with
  | nil => exact absurd rfl nonempty
  | @cons first held texts values here others =>
      have parts : TakesEach (do
          let _ ← char ','
          spaces
          let next ← item
          spaces
          pure next) holds ('\n' :: rest) (texts.flatMap fun text => ',' :: text.toList) values := by
        refine TakesEach.of_forall₂ FollowsCell ?_ ⟨'\n', rest, rfl, .inr rfl⟩
          (Fails.bind (fails_char (by simp)))
        refine others.imp fun text held legible => ⟨by simp, fun more => ⟨',', _, rfl, .inl rfl⟩, ?_⟩
        intro more next
        refine Reads.bind_cons reads_char ?_
        refine Reads.skip (reads_spaces_nil (legible.noSpace more next)) ?_
        refine Takes.last (legible.takes more next) fun a held => ?_
        exact Reads.skip (reads_spaces_nil next.noSpace) (takes_pure held)
      have next : FollowsCell ((texts.flatMap fun text => ',' :: text.toList) ++ '\n' :: rest) := by
        cases texts with
        | nil => exact ⟨'\n', rest, rfl, .inr rfl⟩
        | cons text texts => exact ⟨',', _, rfl, .inl rfl⟩
      rw [show "," = String.singleton ',' from rfl, Text.toList_intercalate_char]
      refine Takes.named (Reads.skip (a := ()) ?_ (Takes.bind (here.takes _ next) fun a isFirst => ?_))
      · rw [List.append_assoc]
        exact reads_spaces_nil (here.noSpace _ next)
      refine Reads.skip (reads_spaces_nil next.noSpace) (Takes.last parts.many fun as areOthers => ?_)
      exact takes_pure (.cons isFirst areOthers)

/-! ## Tags after a name -/

/-- A name and its tags, each after a space. -/
theorem toList_withTags {name : String} {texts : List String} {items : List (String × Value)}
    (legible : List.Forall₂ (LegibleTag value) texts items) :
    (withTags name (String.intercalate " " texts)).toList =
      name.toList ++ texts.flatMap fun text => ' ' :: text.toList := by
  cases legible with
  | nil => simp [withTags, String.isEmpty]
  | @cons first item texts items here others =>
      obtain ⟨c, more, shape, _⟩ := here.starts
      have joined : (String.intercalate " " (first :: texts)).toList =
          first.toList ++ texts.flatMap fun text => ' ' :: text.toList :=
        Text.toList_intercalate_char ' ' first texts
      have nonempty : (String.intercalate " " (first :: texts)).isEmpty = false := by
        rw [String.isEmpty_eq_false_iff, Ne, ← String.toList_eq_nil_iff, joined, shape]
        simp
      rw [withTags, nonempty, if_neg (by decide), String.toList_append, String.toList_append, joined]
      simp

theorem reads_spacedTags {texts : List String} {items : List (String × Value)}
    (legible : List.Forall₂ (LegibleTag value) texts items) (next : FollowsCell rest) :
    Reads (spacedTags value) (texts.flatMap fun text => ' ' :: text.toList) rest
      (items.map fun item => (item.1, .ok item.2)) := by
  refine reads_many (TakesEach.of_forall₂ Follows ?_ next.follows
    (Fails.bind (fails_spaces1 next.noSpace)))
  rw [List.forall₂_map_right_iff]
  refine legible.imp fun text item legible => ⟨by simp, legible.follows, fun more follows => ?_⟩
  exact Reads.bind_cons (reads_spaces1_one legible.stops.1) (legible.reads more follows)

/-- What follows a name is a space before a tag, or follows the cell. -/
theorem stops_isIdChar_of_tags {texts : List String} (next : FollowsCell rest) :
    Stops isIdChar ((texts.flatMap fun text => ' ' :: text.toList) ++ rest) := by
  cases texts with
  | nil => exact follows_stops_isIdChar next.follows
  | cons text texts => exact stops_cons.mpr rfl

theorem reads_header {version : String} {texts : List String} {items : List (String × Value)}
    (legible : List.Forall₂ (LegibleTag value) texts items) (next : FollowsCell rest) :
    Reads (header value) (withTags ("ver:" ++ quote version) (String.intercalate " " texts)).toList
      rest (.ok version, items.map fun item => (item.1, .ok item.2)) := by
  have isVersion {rest : List Char} : Reads (named do
      word "ver:"
      quoted) ("ver:" ++ quote version).toList rest (.ok version) := by
    rw [String.toList_append]
    exact Takes.named (Reads.bind (reads_word "ver:") (reads_quoted version rest))
  rw [toList_withTags legible]
  refine Takes.named (Reads.bind isVersion (Reads.last (reads_spacedTags legible next) ?_))
  exact Reads.skip (reads_spaces_nil next.noSpace) reads_pure

/-- A column of a grid as it is read. -/
def DraftColumn.States (draft : DraftColumn) (column : String × Metadata) : Prop :=
  draft.name = column.1 ∧ draft.metadata = column.2.items.map fun item => (item.1, .ok item.2)

/-- A column is read with its name and its metadata. -/
theorem legibleColumn {name : String} {texts : List String} {items : List (String × Value)}
    (isName : isTagName name = true) (legible : List.Forall₂ (LegibleTag value) texts items) :
    LegiblePart (column value) (withTags name (String.intercalate " " texts))
      fun draft => draft.States (name, ⟨items⟩) := by
  obtain ⟨first, others, shape, isFirst, _⟩ := exists_of_isTagName isName
  constructor
  · intro rest next
    rw [toList_withTags legible, shape]
    exact stops_cons.mpr (isSpace_of_isNameStart isFirst)
  · intro rest next
    rw [toList_withTags legible]
    refine Takes.named (takes_here_bind fun offset => ?_)
    refine Reads.bind (reads_tagName isName (stops_isIdChar_of_tags next)) ?_
    exact Reads.last (reads_spacedTags legible next) (takes_pure ⟨rfl, rfl⟩)

/-! ## Rows -/

/-- A cell is empty or holds a value. -/
inductive LegibleCell (value : Phrase (Reading Value)) : String → Option Value → Prop where
  | missing : LegibleCell value "" none
  | present (text : String) (back : Value) (legible : Legible value text back) :
      LegibleCell value text (some back)

theorem LegibleCell.part {text : String} {cell : Option Value} (legible : LegibleCell value text cell)
    (separated : Separated value) :
    LegiblePart (named (Phrase.optional value)) text (Eq (cell.map .ok)) := by
  cases legible with
  | missing =>
      refine ⟨fun rest next => next.noSpace, fun rest next => Takes.named (Fails.optional ?_)⟩
      obtain ⟨c, more, rfl, rfl | rfl⟩ := next
      · exact separated ',' more rfl
      · exact separated '\n' more rfl
  | present text back legible =>
      refine ⟨fun rest _ => ?_, fun rest next => Takes.named ?_⟩
      · exact legible.starts.append.stops fun _ => not_isSpace_of_isValueStart
      · exact (legible.reads rest next.follows).optional

/-- A row with its cells as it is read. -/
def DraftRow.States (draft : DraftRow) (cells : List (Option Value)) : Prop :=
  draft.cells = cells.map (·.map .ok)

/-- A line is read as a row of its cells. -/
theorem takes_row {texts : List String} {cells : List (Option Value)} (separated : Separated value)
    (nonempty : texts ≠ []) (legible : List.Forall₂ (LegibleCell value) texts cells) :
    Takes (row value) (String.intercalate "," texts).toList ('\n' :: rest)
      (DraftRow.States · cells) := by
  have parts : List.Forall₂ (fun text cell => LegiblePart (named (Phrase.optional value)) text (Eq cell))
      texts (cells.map (·.map .ok)) := by
    rw [List.forall₂_map_right_iff]
    exact legible.imp fun _ _ legible => legible.part separated
  refine takes_here_bind fun offset => Takes.last (takes_separated nonempty parts) fun read same => ?_
  rw [List.forall₂_eq_eq_eq] at same
  exact takes_pure same.symm

/-- The rows of a grid end with the text or at the bracket after the grid. -/
def EndsRows (rest : List Char) : Prop := rest = [] ∨ ∃ more, rest = '>' :: '>' :: more

theorem EndsRows.fails_moreRows (ends : EndsRows rest) : Fails moreRows rest := by
  rcases ends with rfl | ⟨more, rfl⟩
  · exact fails_of_found fun _ => rfl
  · exact fails_of_found fun _ => rfl

/-- A line, with its end or without, is no end of rows. -/
def IsLine (text : List Char) : Prop := ∃ c more, text = c :: more ∧ c ≠ '>'

theorem IsLine.append {text : List Char} (line : IsLine text) (more : List Char) :
    IsLine (text ++ more) := by
  obtain ⟨c, others, rfl, other⟩ := line
  exact ⟨c, others ++ more, rfl, other⟩

theorem IsLine.reads_moreRows {text : List Char} (line : IsLine text) :
    Reads moreRows [] (text ++ rest) () := by
  obtain ⟨c, more, rfl, other⟩ := line
  refine reads_of_found fun offset => ?_
  simp only [moreRows, List.nil_append, List.cons_append]
  split
  · next none => simp at none
  · next bracket =>
    obtain ⟨rfl, _⟩ := List.cons.inj bracket
    exact absurd rfl other
  · rfl

/-- A line with cells on it that are read from it. -/
structure LegibleLine (value : Phrase (Reading Value)) (line : String)
    (cells : List (Option Value)) : Prop where
  isLine : IsLine (line.toList ++ ['\n'])
  takes : ∀ rest, Takes (row value) line.toList ('\n' :: rest) (DraftRow.States · cells)

/-- Lines are read one after the other up to the end of the rows. -/
theorem takes_rows {lines : List String} {cells : List (List (Option Value))}
    (legible : List.Forall₂ (LegibleLine value) lines cells) (ends : EndsRows rest) :
    Takes (rows value) (lines.flatMap fun line => line.toList ++ ['\n']) rest
      (List.Forall₂ (fun cells draft => DraftRow.States draft cells) cells) := by
  have parts : TakesEach (do
      moreRows
      let line ← row value
      newline
      pure line) (fun cells draft => DraftRow.States draft cells) rest
      (lines.flatMap fun line => line.toList ++ ['\n']) cells := by
    refine TakesEach.of_forall₂ (fun _ => True) ?_ trivial (Fails.bind ends.fails_moreRows)
    refine legible.imp fun line cells legible => ⟨by simp, fun _ => trivial, fun more _ => ?_⟩
    refine Reads.skip (a := ()) legible.isLine.reads_moreRows
      (Takes.bind (legible.takes more) fun draft stated => ?_)
    exact Reads.last reads_newline (takes_pure stated)
  refine Takes.named (Takes.last parts.many fun drafts stated => ?_)
  refine Reads.skip (Fails.optional (Fails.bind ends.fails_moreRows)) ?_
  rw [Option.toList_none, List.append_nil]
  exact takes_pure stated

/-! ## All lines -/

/-- What the lines of a grid say. -/
structure Draft.States (draft : Draft) (version : String) (metadata : Metadata) (columns : Columns)
    (rows : List (List (Option Value))) : Prop where
  version : draft.version = .ok version
  metadata : draft.metadata = metadata.items.map fun item => (item.1, .ok item.2)
  columns : List.Forall₂ (fun column draft => DraftColumn.States draft column) columns.items draft.columns
  rows : List.Forall₂ (fun cells draft => DraftRow.States draft cells) rows draft.rows

theorem takes_draft {version : String} {tags names lines : List String} {metadata : Metadata}
    {columns : Columns} {rows : List (List (Option Value))}
    (legibleTags : List.Forall₂ (LegibleTag value) tags metadata.items) (nonempty : names ≠ [])
    (legibleNames : List.Forall₂ (fun text item =>
      LegiblePart (column value) text (DraftColumn.States · item)) names columns.items)
    (legibleLines : List.Forall₂ (LegibleLine value) lines rows) (ends : EndsRows rest) :
    Takes (draft value) (withTags ("ver:" ++ quote version) (String.intercalate " " tags) ++ "\n" ++
      String.intercalate "," names ++ "\n" ++ String.join (lines.map (· ++ "\n"))).toList rest
      fun draft => draft.States version metadata columns rows := by
  simp only [String.toList_append, List.append_assoc, Text.toList_join_lines,
    show "\n".toList = ['\n'] from rfl]
  refine Takes.named (Reads.bind (reads_header legibleTags ⟨'\n', _, rfl, .inr rfl⟩) ?_)
  refine Reads.bind reads_newline (Takes.bind (takes_separated nonempty legibleNames) ?_)
  intro columnDrafts statedColumns
  refine Reads.bind (Takes.orElse reads_newline) (Takes.last (takes_rows legibleLines ends) ?_)
  exact fun rowDrafts statedRows => takes_pure ⟨rfl, rfl, statedColumns, statedRows⟩

end Haystack.Zinc
