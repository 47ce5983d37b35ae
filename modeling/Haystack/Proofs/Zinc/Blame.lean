import Haystack.Proofs.Grid.Refusals
import Haystack.Proofs.Zinc.Denoted

/-!
What is wrong with a text that is refused.

A text is refused at a place in it, or because of what it says as a whole. It is never refused as a
request that only trees and values built by hand make.
-/
namespace Haystack

/-- An error that a text can lead to. -/
def Error.IsOfText (error : Error) : Prop := ∀ cause, error ≠ .misuse cause

namespace Zinc

open Phrase

def Refusal.IsOfText : Refusal → Prop
  | .at _ _ => True
  | .overall error => error.IsOfText

/-- If a reading is refused then for what the text says. -/
def Blames {α : Type} (reading : Reading α) : Prop :=
  ∀ refusal, reading = .error refusal → refusal.IsOfText

variable {α β : Type} {reading : Reading α} {dialect : Version}

theorem Refusal.IsOfText.error {refusal : Refusal} (ofText : refusal.IsOfText) (text : List Char) :
    (refusal.error text).IsOfText := by
  rcases refusal with ⟨offset, cause⟩ | error
  · exact fun _ => Error.noConfusion
  · exact ofText

theorem isOfText_of_isRefusal {version : Version} {error : Error} (isRefusal : GridOf.IsRefusal version error) :
    error.IsOfText := by
  cases isRefusal <;> exact fun _ => Error.noConfusion

theorem blames_ok (a : α) : Blames (.ok a) := fun _ same => by cases same

theorem blames_error {refusal : Refusal} (ofText : refusal.IsOfText) : Blames (α := α) (.error refusal) :=
  fun _ same => Except.error.inj same ▸ ofText

theorem blames_blame (offset : Nat) (made : Except Unreadable α) : Blames (Reading.blame offset made) := by
  cases made with
  | error cause => exact blames_error trivial
  | ok a => exact blames_ok a

theorem Blames.bind {next : α → Reading β} (first : Blames reading) (later : ∀ a, Blames (next a)) :
    Blames (reading >>= next) := by
  cases reading with
  | error refusal => exact blames_error (first refusal rfl)
  | ok a => exact later a

theorem Blames.map {make : α → β} (blames : Blames reading) : Blames (reading.map make) :=
  blames.bind fun a => blames_ok (make a)

theorem blames_mapM {readings : List (Reading α)} (each : ∀ reading ∈ readings, Blames reading) :
    Blames (readings.mapM id) := by
  induction readings with
  | nil => exact blames_ok []
  | cons reading readings ih =>
      rw [List.forall_mem_cons] at each
      rw [List.mapM_cons]
      exact each.1.bind fun _ => (ih each.2).bind fun _ => blames_ok _

/-! ## Literals -/

theorem blames_quoted : Yields quoted Blames := by
  intro cursor reading after found
  obtain ⟨offset, made, rfl⟩ := yields_quoted cursor reading after found
  exact blames_blame offset made

theorem blames_uri : Yields uri Blames :=
  Yields.named (yields_after fun offset => yields_after fun _ => yields_after fun _ => yields_after fun _ =>
    yields_pure (blames_blame offset _))

theorem blames_reference : Yields reference Blames := by
  refine Yields.named (yields_after fun _ => yields_after fun _ => Yields.bind (Yields.optional (yields_after
    fun _ => blames_quoted)) fun display blames => yields_pure ?_)
  cases display with
  | none => exact blames_ok _
  | some text => exact (blames text rfl).bind fun _ => blames_ok _

theorem blames_bin : Yields bin Blames :=
  Yields.named (yields_after fun _ => Yields.bind
    (blames_quoted.orElse (yields_after fun _ => yields_pure (blames_ok _))) fun _ blames =>
      yields_after fun _ => yields_pure blames.map)

theorem blames_encoded : Yields encoded Blames := by
  refine Yields.named (yields_after fun _ => yields_after fun encoding => yields_after fun _ =>
    blames_quoted.bind fun _ blames => yields_after fun _ => yields_pure (blames.bind fun payload => ?_))
  cases XStr.ofText (String.ofList encoding) payload with
  | ok x => exact blames_ok _
  | error cause => exact blames_error trivial

theorem blames_coordinate : Yields coordinate Blames :=
  Yields.named (yields_after fun offset => yields_after fun _ => yields_after fun _ => yields_after fun _ =>
    yields_after fun _ => yields_after fun _ => yields_after fun _ => yields_after fun _ =>
      yields_after fun _ => yields_after fun _ => yields_pure (blames_blame offset _))

theorem blames_number : Yields number Blames :=
  Yields.named (Yields.orElse (yields_after fun _ => yields_pure (blames_ok _))
    (yields_after fun offset => yields_after fun _ => yields_after fun _ => yields_pure (blames_blame offset _)))

theorem blames_date : Yields date Blames :=
  Yields.token (yields_after fun offset => yields_after fun _ => yields_pure (blames_blame offset _))

theorem blames_time : Yields time Blames :=
  Yields.token (yields_after fun offset => yields_after fun _ => yields_pure (blames_blame offset _))

theorem blames_dateTime : Yields dateTime Blames :=
  Yields.named (yields_after fun offset => yields_after fun _ => yields_after fun _ =>
    yields_pure (blames_blame offset _))

theorem blames_requireThree (offset : Nat) (feature : String) : Blames (requireThree dialect offset feature) := by
  unfold requireThree
  split
  · exact blames_error trivial
  · exact blames_ok ()

/-! ## Grids -/

theorem blames_readTags {tags : List (String × Reading Value)} (each : EachTag Blames tags) :
    Blames (readTags tags) := by
  induction tags with
  | nil => exact blames_ok []
  | cons tag tags ih =>
      have blames := List.forall_mem_cons.mp each
      exact blames.1.2.bind fun _ => (ih blames.2).bind fun _ => blames_ok _

theorem blames_edited {grid : Grid} {edit : Edit Unit}
    (refuses : ∀ error after, edit.apply grid = (.error error, after) → error.IsOfText) :
    Blames (edited grid edit) := by
  unfold edited
  split
  · exact blames_ok _
  · next error after refused => exact blames_error (refuses error after refused)

theorem isOfText_columnRefusal {error : Error} (ofText : error.IsOfText) (offset : Nat) :
    (columnRefusal offset error).IsOfText := by
  unfold columnRefusal
  split
  · trivial
  · trivial
  · exact ofText

theorem blames_addColumns {grid : Grid} {columns : List DraftColumn}
    (each : ∀ column ∈ columns, EachTag Blames column.metadata) : Blames (addColumns grid columns) := by
  induction columns generalizing grid with
  | nil => exact blames_ok grid
  | cons column columns ih =>
      rw [List.forall_mem_cons] at each
      rw [addColumns]
      refine (blames_readTags each.1).bind fun metadata => ?_
      split
      · exact ih each.2
      · next refused =>
        exact blames_error (isOfText_columnRefusal
          (isOfText_of_isRefusal (GridOf.cases_of_addColumnAt refused).2) column.offset)

theorem blames_readCells {offset limit : Nat} {row : Entity} {names : List String}
    {cells : List (Option (Reading Value))} (each : ∀ cell ∈ cells, ∀ reading ∈ cell, Blames reading) :
    Blames (readCells offset limit row names cells) := by
  induction cells generalizing row names with
  | nil =>
      rw [readCells]
      exact blames_ok row
  | cons cell cells ih =>
      rw [List.forall_mem_cons] at each
      cases names with
      | nil =>
          rw [readCells]
          exact blames_error trivial
      | cons name names =>
          cases cell with
          | none =>
              rw [readCells]
              exact ih each.2
          | some reading =>
              rw [readCells]
              exact (each.1 reading rfl).bind fun _ => ih each.2

theorem blames_addRows {names : List String} {grid : Grid} {rows : List DraftRow}
    (each : ∀ row ∈ rows, ∀ cell ∈ row.cells, ∀ reading ∈ cell, Blames reading) :
    Blames (addRows names grid rows) := by
  induction rows generalizing grid with
  | nil => exact blames_ok grid
  | cons row rows ih =>
      rw [List.forall_mem_cons] at each
      rw [addRows]
      split
      · exact ih each.2
      · refine (blames_readCells each.1).bind fun entity => Blames.bind ?_ fun _ => ih each.2
        exact blames_edited fun error after refused =>
          isOfText_of_isRefusal (GridOf.kept_of_checkAll_modify refused).2

theorem blames_version (text : String) : Blames ((Version.read text).mapError Refusal.overall) := by
  unfold Version.read
  split
  · exact blames_ok _
  · exact blames_error fun _ => Error.noConfusion

theorem blames_draft {draft : Draft} (each : EachLine Blames draft) : Blames draft.grid := by
  obtain ⟨offset, made, isVersion⟩ := each.version
  unfold Draft.grid
  rw [isVersion]
  refine (blames_blame offset made).bind fun text => (blames_version text).bind fun version =>
    (blames_readTags each.metadata).bind fun metadata => Blames.bind ?_ fun grid =>
      (blames_addColumns fun column member => (each.columns column member).2).bind fun grid =>
        (blames_addRows each.rows).bind fun grid => blames_ok _
  exact blames_edited fun error after refused =>
    isOfText_of_isRefusal (GridOf.kept_of_checkAll_modify refused).2

/-! ## Values -/

section Inside

variable {value : Phrase (Reading Value)} (inside : Yields value Blames)

include inside

theorem blames_list : Yields (list dialect value) Blames := by
  refine Yields.named (yields_after fun offset => yields_after fun _ => yields_after fun _ =>
    (yields_items inside).optional.bind fun given blames => yields_after fun _ => yields_pure
      ((blames_requireThree offset _).bind fun _ => (blames_mapM fun reading member => ?_).bind
        fun _ => blames_ok _))
  cases given with
  | none => exact (List.not_mem_nil member).elim
  | some readings => exact blames readings rfl reading member

theorem blames_dict : Yields (dict dialect value) Blames := by
  refine Yields.named (yields_after fun offset => yields_after fun _ => yields_after fun _ =>
    (yields_tags inside (blames_ok _)).optional.bind fun given blames => yields_after fun _ =>
      yields_after fun _ => yields_after fun _ => yields_after fun _ => yields_pure
        ((blames_requireThree offset _).bind fun _ => (blames_readTags ?_).bind fun _ => blames_ok _))
  cases given with
  | none => exact fun _ none => (List.not_mem_nil none).elim
  | some tags => exact blames tags rfl

theorem blames_innerGrid : Yields (innerGrid value dialect) Blames :=
  Yields.named (yields_after fun offset => yields_after fun _ => yields_after fun _ => yields_after fun _ =>
    (yields_draft inside (blames_ok _)).bind fun _ each => yields_after fun _ => yields_pure
      ((blames_requireThree offset _).bind fun _ => (blames_draft each).bind fun _ => blames_ok _))

theorem blames_valueAround : Yields (valueAround value dialect) Blames := by
  have constant {p : Phrase Value} : Yields (do let v ← p; pure (Except.ok v : Reading Value)) Blames :=
    yields_after fun _ => yields_pure (blames_ok _)
  have text : Yields (do let text ← quoted; pure (text.map Value.str)) Blames :=
    blames_quoted.bind fun _ blames => yields_pure blames.map
  have notAvailable : Yields (notAvailable dialect) Blames :=
    Yields.token (yields_after fun offset => yields_after fun _ => yields_pure
      ((blames_requireThree offset _).bind fun _ => blames_ok _))
  exact blames_reference.orElse (text.orElse (blames_uri.orElse (blames_bin.orElse (blames_coordinate.orElse
    (blames_encoded.orElse (blames_dateTime.orElse (blames_date.orElse (blames_time.orElse
      (blames_number.orElse (notAvailable.orElse (constant.orElse (constant.orElse (constant.orElse
        (constant.orElse ((blames_list inside).orElse ((blames_dict inside).orElse
          (blames_innerGrid inside)))))))))))))))))

end Inside

theorem blames_valueWithin (depth : Nat) : Yields (valueWithin dialect depth) Blames := by
  induction depth with
  | zero => exact fun _ _ _ found => by cases found
  | succ depth ih => exact blames_valueAround ih

/-- A value that is refused is refused for what its text says. -/
theorem blames_value : Yields (Zinc.value dialect) Blames := fun cursor =>
  blames_valueWithin (cursor.rest.length + 1) cursor

end Zinc

end Haystack
