import Haystack.Csv.Document
import Haystack.Json.Reader
import Haystack.Proofs.Grid.Gate
import Haystack.Proofs.Outcome
import Haystack.Proofs.Phrase

/-!
Grids as they are read.

Each reader starts from an empty grid with the version of the text and makes checked changes of it, so
that the values of what it returns fit.
-/
namespace Haystack

open GridOf (Within Evolves)

theorem GridOf.within_of_evolves {version : Version} {grid : Grid}
    (evolves : (withVersion version).Evolves grid) : grid.Within :=
  evolves.within fun _ member => nomatch member

/-! ## Zinc -/

namespace Zinc

variable {grid after : Grid}

theorem of_edited {edit : Edit Unit} (changed : edited grid edit = .ok after) :
    edit.apply grid = (.ok (), after) := by
  unfold edited at changed
  split at changed
  · next applied => rw [applied, Except.ok.inj changed]
  · exact nomatch changed

theorem evolves_of_edited {edit : Edit Unit} (changed : edited grid edit = .ok after)
    (evolves : grid.Evolves (edit.apply grid).2) : grid.Evolves after := by
  rwa [of_edited changed] at evolves

theorem evolves_addColumns {columns : List DraftColumn}
    (changed : addColumns grid columns = .ok after) : grid.Evolves after := by
  induction columns generalizing grid with
  | nil => exact Except.ok.inj changed ▸ .refl grid
  | cons column rest ih =>
      rw [addColumns] at changed
      obtain ⟨metadata, _, changed⟩ := Outcome.of_bind changed
      split at changed
      · next middle applied =>
        have first := @GridOf.evolves_addColumnAt grid column.name (.ofList metadata) .last
        rw [← GridOf.addColumn, applied] at first
        exact first.trans (ih changed)
      · contradiction

theorem evolves_addRows {names : List String} {rows : List DraftRow}
    (changed : addRows names grid rows = .ok after) : grid.Evolves after := by
  induction rows generalizing grid with
  | nil => exact Except.ok.inj changed ▸ .refl grid
  | cons row rest ih =>
      rw [addRows] at changed
      split at changed
      · exact ih changed
      · obtain ⟨entity, _, changed⟩ := Outcome.of_bind changed
        obtain ⟨middle, appended, changed⟩ := Outcome.of_bind changed
        exact (evolves_of_edited appended (GridOf.evolves_append entity)).trans (ih changed)

theorem evolves_dropEmptyColumn : grid.Evolves (dropEmptyColumn grid) := by
  unfold dropEmptyColumn
  split
  · split
    · exact GridOf.evolves_removeColumn emptyColumn
    · exact .refl grid
  · exact .refl grid

theorem within_of_draft {draft : Draft} (read : draft.grid = .ok grid) : grid.Within := by
  unfold Draft.grid at read
  obtain ⟨text, _, read⟩ := Outcome.of_bind read
  obtain ⟨version, _, read⟩ := Outcome.of_bind read
  obtain ⟨metadata, _, read⟩ := Outcome.of_bind read
  obtain ⟨headed, withMetadata, read⟩ := Outcome.of_bind read
  obtain ⟨titled, withColumns, read⟩ := Outcome.of_bind read
  obtain ⟨filled, withRows, read⟩ := Outcome.of_bind read
  obtain rfl := Except.ok.inj read
  have headed := evolves_of_edited withMetadata (GridOf.evolves_setMetadata _)
  exact GridOf.within_of_evolves (headed.trans ((evolves_addColumns withColumns).trans
    ((evolves_addRows withRows).trans evolves_dropEmptyColumn)))

/-- What is read as a grid is the grid of some lines. -/
theorem exists_draft {dialect : Version} {text : List Char} {reading : Reading Grid}
    (read : (Zinc.grid dialect).readAll text = .ok reading) : ∃ draft : Draft, reading = draft.grid := by
  unfold Phrase.readAll at read
  simp only [Phrase.found_bind] at read
  split at read
  · next meaning _ found =>
    obtain rfl := Except.ok.inj read
    obtain ⟨⟨first, middle⟩, isGrid, ended⟩ := Option.bind_eq_some_iff.mp found
    obtain ⟨_, _, last⟩ := Option.bind_eq_some_iff.mp ended
    obtain ⟨rfl, _⟩ := Prod.mk.inj (Option.some.inj last)
    rw [Zinc.grid, Phrase.found_named, Phrase.found_bind] at isGrid
    obtain ⟨⟨draft, _⟩, _, made⟩ := Option.bind_eq_some_iff.mp isGrid
    exact ⟨draft, (Prod.mk.inj (Option.some.inj made)).1.symm⟩
  · exact nomatch read

theorem readWhole_ok_iff {α : Type} {phrase : Phrase (Reading α)} {text : List Char} {a : α} :
    readWhole phrase text = .ok a ↔ phrase.readAll text = .ok (.ok a) := by
  unfold readWhole
  split
  · next refused => simp [refused]
  · next refused => simp [refused]
  · next meaning => simp [meaning]

/-- A text is a grid in the dialect of the version that it starts with. -/
theorem readGridChars_ok_iff {text : List Char} : readGridChars text = .ok grid ↔
    ∃ header version, headerVersion? text = some header ∧ Version.read header = .ok version ∧
      (Zinc.grid version.nearest).readAll text = .ok (.ok grid) := by
  unfold readGridChars
  split
  · next none => simp [none]
  · next header isHeader =>
    rw [isHeader]
    constructor
    · intro read
      obtain ⟨version, isRead, read⟩ := Outcome.of_bind read
      exact ⟨header, version, rfl, isRead, readWhole_ok_iff.mp read⟩
    · rintro ⟨_, version, same, isRead, read⟩
      obtain rfl := Option.some.inj same
      rw [Outcome.bind_ok isRead]
      exact readWhole_ok_iff.mpr read

theorem within_of_readGridChars {text : List Char} (read : readGridChars text = .ok grid) :
    grid.Within := by
  obtain ⟨_, _, _, _, whole⟩ := readGridChars_ok_iff.mp read
  obtain ⟨draft, isDraft⟩ := exists_draft whole
  exact within_of_draft isDraft.symm

theorem within_of_readGrid {text : String} (read : readGrid text = .ok grid) : grid.Within :=
  within_of_readGridChars read

theorem within_of_readGrids {text : String} {grids : List Grid} (read : readGrids text = .ok grids)
    (member : grid ∈ grids) : grid.Within := by
  obtain ⟨_, _, isGrid⟩ := Outcome.of_mapM read member
  exact within_of_readGridChars isGrid

end Zinc

/-! ## JSON -/

namespace Json

variable {grid after : Grid}

theorem of_edited {edit : Edit Unit} (changed : edited grid edit = .ok after) :
    (edit.apply grid).2 = after := by
  unfold edited at changed
  split at changed
  · next applied => rw [applied, Except.ok.inj changed]
  · exact nomatch changed

theorem evolves_addColumns {columns : List (Except Error (String × Metadata))}
    (changed : addColumns grid columns = .ok after) : grid.Evolves after := by
  induction columns generalizing grid with
  | nil => exact Except.ok.inj changed ▸ .refl grid
  | cons column rest ih =>
      rw [addColumns] at changed
      obtain ⟨⟨name, metadata⟩, _, changed⟩ := Outcome.of_bind changed
      obtain ⟨middle, added, changed⟩ := Outcome.of_bind changed
      exact (of_edited added ▸ GridOf.evolves_addColumnAt name metadata .last).trans (ih changed)

theorem evolves_addRows {rows : List (Except Error Entity)}
    (changed : addRows grid rows = .ok after) : grid.Evolves after := by
  induction rows generalizing grid with
  | nil => exact Except.ok.inj changed ▸ .refl grid
  | cons row rest ih =>
      rw [addRows] at changed
      obtain ⟨entity, _, changed⟩ := Outcome.of_bind changed
      obtain ⟨middle, appended, changed⟩ := Outcome.of_bind changed
      exact (of_edited appended ▸ GridOf.evolves_append entity).trans (ih changed)

theorem within_of_makeGrid {members : List (String × Tree)}
    {metadata : Version → Except Error (List (String × Value))}
    {columns : Version → Except Error (List (Except Error (String × Metadata)))}
    {rows : Version → Except Error (List (Except Error Entity))}
    (made : makeGrid members metadata columns rows = .ok grid) : grid.Within := by
  unfold makeGrid at made
  obtain ⟨version, _, made⟩ := Outcome.of_bind made
  obtain ⟨tags, _, made⟩ := Outcome.of_bind made
  obtain ⟨headed, withMetadata, made⟩ := Outcome.of_bind made
  obtain ⟨columns, _, made⟩ := Outcome.of_bind made
  obtain ⟨titled, withColumns, made⟩ := Outcome.of_bind made
  obtain ⟨rows, _, withRows⟩ := Outcome.of_bind made
  exact GridOf.within_of_evolves ((of_edited withMetadata ▸ GridOf.evolves_setMetadata _).trans
    ((evolves_addColumns withColumns).trans (evolves_addRows withRows)))

theorem within_of_gridOfTree {tree : Tree} (isGrid : gridOfTree tree = .ok grid) : grid.Within := by
  unfold gridOfTree at isGrid
  split at isGrid
  · exact within_of_makeGrid isGrid
  · exact nomatch isGrid

theorem within_of_readGrid {text : String} (read : readGrid text = .ok grid) : grid.Within := by
  obtain ⟨_, _, isGrid⟩ := Outcome.of_bind read
  exact within_of_gridOfTree isGrid

theorem within_of_readGrids {text : String} {grids : List Grid} (read : readGrids text = .ok grids)
    (member : grid ∈ grids) : grid.Within := by
  obtain ⟨tree, _, areGrids⟩ := Outcome.of_bind read
  split at areGrids
  · obtain ⟨item, _, isGrid⟩ := Outcome.of_mapM areGrids member
    exact within_of_gridOfTree isGrid
  · obtain ⟨single, isGrid, areGrids⟩ := Outcome.of_bind areGrids
    obtain rfl := Except.ok.inj areGrids
    exact List.mem_singleton.mp member ▸ within_of_gridOfTree isGrid

end Json

/-! ## CSV -/

namespace Csv

variable {grid : Grid}

theorem evolves_addColumns (names : List String) : grid.Evolves ((addColumns names).apply grid).2 := by
  induction names generalizing grid with
  | nil => exact .refl grid
  | cons name rest ih =>
      exact (GridOf.evolves_addColumnAt name .empty .last).bind fun _ => ih

theorem within_of_readGrid {text : String} (read : readGrid text = .ok grid) : grid.Within := by
  unfold readGrid at read
  simp only at read
  split at read
  · next made applied =>
    have evolves := (@evolves_addColumns (.withVersion .three)
        ((readRecords text.toList).head?.getD [])).bind fun _ =>
      GridOf.evolves_extend (((readRecords text.toList).drop 1).map
        (rowOf ((readRecords text.toList).head?.getD [])))
    rw [applied, Except.ok.inj read] at evolves
    exact GridOf.within_of_evolves evolves
  · exact nomatch read

end Csv

end Haystack
