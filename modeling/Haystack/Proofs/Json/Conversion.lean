import Haystack.Proofs.Json.Grids
import Haystack.Proofs.Zinc.Rewriting

/-!
Zinc documents as JSON.

Whatever was read as Zinc can be written as JSON. What is written is read again if references have names,
local years have four digits, no dict looks like a grid, and no metadata has a name or a null that JSON
has no place for. The version comes back, with the names of all metadata and columns and as many rows.
-/
namespace Haystack.Json

open Value (SameKind keepsKind_sameKind ColumnsRelated)

variable {grid : Grid}

/-- Whether a grid is of version 3.0 or later. -/
def IsNew : Value → Prop
  | .grid g => g.version.IsAtLeastThree
  | _ => True

/-- Whether the tree of a value that was read as Zinc is read again; of what is in it this says nothing. -/
def Convertible : Value → Prop
  | .ref r => r.name ≠ ""
  | .dateTime d => d.clock.date.HasFourDigits
  | .dict tags => ¬ ("meta" ∈ tags.keys ∧ "cols" ∈ tags.keys ∧ "rows" ∈ tags.keys)
  | .grid g => HasFreeNames g
  | _ => True

instance : DecidablePred IsNew
  | .grid g => inferInstanceAs (Decidable g.version.IsAtLeastThree)
  | .null | .marker | .na | .remove | .bool _ | .number _ | .str _ | .uri _ | .bin _ | .xstr _ | .ref _
  | .date _ | .time _ | .dateTime _ | .coord _ | .list _ | .dict _ => isTrue trivial

instance : DecidablePred HasFreeNames := fun grid =>
  decidable_of_iff ("ver" ∉ grid.metadata.keys ∧ ∀ held ∈ grid.columns.values,
      "name" ∉ held.keys ∧ ∀ value ∈ held.values, ¬ value.isNull = true)
    ⟨fun ⟨metadata, columns⟩ => ⟨metadata, fun held member => ⟨(columns held member).1, fun value inside =>
        (columns held member).2 value inside ∘ Value.isNull_iff.mpr⟩⟩,
      fun ⟨metadata, columns⟩ => ⟨metadata, fun held member => ⟨(columns held member).1, fun value inside =>
        (columns held member).2 value inside ∘ Value.isNull_iff.mp⟩⟩⟩

instance : DecidablePred Convertible
  | .ref r => inferInstanceAs (Decidable (r.name ≠ ""))
  | .dateTime d => inferInstanceAs (Decidable d.clock.date.HasFourDigits)
  | .dict tags =>
      inferInstanceAs (Decidable (¬ ("meta" ∈ tags.keys ∧ "cols" ∈ tags.keys ∧ "rows" ∈ tags.keys)))
  | .grid g => inferInstanceAs (Decidable (HasFreeNames g))
  | .null | .marker | .na | .remove | .bool _ | .number _ | .str _ | .uri _ | .bin _ | .xstr _
  | .date _ | .time _ | .coord _ | .list _ => isTrue trivial

/-! ## Values -/

theorem isQuantity_of_denotable {n : Number} (denotable : Zinc.Denotable (.number n)) : IsQuantity n where
  unit := fun none => (denotable "" none).nonempty rfl
  digits := fun finite => Decimal.read_write Zinc.spelling finite

theorem isEncoded_of_denotable {x : XStr} (denotable : Zinc.Denotable (.xstr x)) : IsEncoded x where
  noColon := fun member => absurd (List.all_eq_true.mp denotable.word ':' member) (by decide)
  decoded := denotable.decoded

theorem legible_of_denotable {value : Value} (denotable : Zinc.Denotable value)
    (convertible : Convertible value) : Legible SameKind value := by
  have typed (leaf : value.IsLeaf) (rewritable : Zinc.Rewritable value) (version : Version)
      (atLeast : version.IsAtLeastThree) : Zinc.Rereads SameKind .three version value :=
    Zinc.rereads_of_leaf leaf denotable rewritable (Zinc.fits_of_isAtLeastThree atLeast value)
      (fun _ => Zinc.compare_three_three) fun old => absurd atLeast old
  cases value with
  | number n => exact isQuantity_of_denotable denotable
  | xstr x => exact isEncoded_of_denotable denotable
  | ref r =>
      have some : r.name.isEmpty = false := String.isEmpty_eq_false_iff.mpr convertible
      rw [Legible, Ref.isValidName, some]
      exact denotable
  | date d => exact typed trivial trivial
  | time t => exact typed trivial trivial
  | dateTime d => exact typed trivial convertible
  | coord c =>
      exact ⟨fun finite => Decimal.read_write Decimal.plain finite,
        fun finite => Decimal.read_write Decimal.plain finite⟩
  | _ => trivial

/-- A value that was read as Zinc comes back from its tree if everything in it does. -/
theorem rereads_of_throughout {value : Value}
    (all : value.Throughout fun part => Zinc.Denotable part ∧ IsNew part ∧ Convertible part) :
    Rereads SameKind value := by
  induction all with
  | intro value here inside ih =>
      obtain ⟨denotable, isNew, convertible⟩ := here
      cases value with
      | list items =>
          refine (rereads_list ih).mono ?_
          rintro _ ⟨backs, rfl, _⟩
          rfl
      | dict tags =>
          refine (rereads_dict denotable.1 convertible ih).mono ?_
          rintro _ ⟨backs, rfl, _⟩
          rfl
      | grid g =>
          have document : Zinc.IsDocument g := denotable
          refine (rereads_grid keepsKind_sameKind document.version isNew document.distinct convertible ih).mono ?_
          rintro _ ⟨back, rfl, _⟩
          rfl
      | _ => exact rereads_of_leaf keepsKind_sameKind rfl trivial (legible_of_denotable denotable convertible)

/-! ## Documents -/

/-- The columns with the names of their metadata. -/
def columnKeys (columns : Columns) : List (String × List String) :=
  columns.items.map fun column => (column.1, column.2.keys)

theorem columnKeys_eq {related : Value → Value → Prop} {backs items : List (String × Metadata)}
    (relates : ColumnsRelated related backs items) : columnKeys ⟨backs⟩ = columnKeys ⟨items⟩ := by
  unfold columnKeys
  induction relates with
  | nil => rfl
  | cons here _ ih =>
      rw [List.map_cons, List.map_cons, ih, here.1]
      congr 2
      exact OrderedMap.keys_eq_of_forall₂ here.2

def plants : String := "ver:\"3.0\" at:C(1.5,2.5) dis\nid,power unit:\"kW\",opened\n" ++
  "@a \"A\",1.5kW,2021-03-04\n@b,NA,\n"

/-- Whether what a document is written as is read again. -/
def isConverted (text : String) : Option Bool := do
  let grid ← (Zinc.readGrid text).toOption
  let written ← (writeGrid grid).toOption
  some (readGrid written).isOk

def nameless : String := "ver:\"3.0\"\na\n@\n"

end Haystack.Json
