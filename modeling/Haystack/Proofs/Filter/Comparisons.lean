import Haystack.Filter.Condition
import Haystack.Proofs.Value.Order

/-!
The six comparisons of a path with a literal.

Equality and order in filters are two analyses of pairs of values. On the kinds that are ordered,
equality is the order's; the literals of all other kinds are ordered with nothing.
-/
namespace Haystack

open Std (LawfulEqOrd)

/-! ## Days, times of day and moments that compare as equal -/

instance : LawfulEqOrd Date where
  eq_of_compare {a b} same := by
    change instOrdDate.ord a b = .eq at same
    simp only [instOrdDate.ord, Ordering.then_eq_eq, Std.compare_eq_iff_eq] at same
    cases a
    cases b
    simp_all only

instance : LawfulEqOrd TimeOfDay where
  eq_of_compare {a b} same := by
    change instOrdTimeOfDay.ord a b = .eq at same
    simp only [instOrdTimeOfDay.ord, Ordering.then_eq_eq, Std.compare_eq_iff_eq] at same
    cases a
    cases b
    simp_all only

instance : LawfulEqOrd Instant where
  eq_of_compare {a b} same := by
    change instOrdInstant.ord a b = .eq at same
    simp only [instOrdInstant.ord, Ordering.then_eq_eq, Std.compare_eq_iff_eq] at same
    cases a
    cases b
    simp_all only

namespace Value

variable {found literal : Value}

/-- The names of the kinds whose members filters order. -/
def orderedKinds : List String :=
  ["Bool", "Number", "Str", "Uri", "Ref", "Date", "Time", "DateTime"]

theorem kind_mem_orderedKinds_iff : literal.kind ∈ orderedKinds ↔ literal.kindRank ∈ orderedRanks := by
  cases literal <;> simp [kind, kindRank, orderedKinds, orderedRanks]

theorem beq_eq_compare {α : Type} [DecidableEq α] [Ord α] [LawfulEqOrd α] (a b : α) :
    (a == b) = (some (compare a b) == some .eq) := by
  rw [Bool.eq_iff_iff, beq_iff_eq, beq_iff_eq, Option.some.injEq, Std.compare_eq_iff_eq]

/-- On the kinds that are ordered, values are equal when they compare as equal. -/
theorem filterEquals_eq (found : Value) (ordered : literal.kindRank ∈ orderedRanks) :
    found.filterEquals literal = (found.filterCompare? literal == some .eq) := by
  cases literal with
  | number b => cases found with
    | number a =>
        simp only [filterEquals, filterCompare?, Binary64.equals]
        cases a.isCompatible b <;> rfl
    | _ => rfl
  | bool b => cases found <;> first | rfl | exact beq_eq_compare ..
  | str b => cases found <;> first | rfl | exact beq_eq_compare ..
  | uri b => cases found <;> first | rfl | exact beq_eq_compare ..
  | ref b => cases found <;> first | rfl | exact beq_eq_compare ..
  | date b => cases found <;> first | rfl | exact beq_eq_compare ..
  | time b => cases found <;> first | rfl | exact beq_eq_compare ..
  | dateTime b => cases found <;> first | rfl | exact beq_eq_compare ..
  | _ => exact absurd ordered (by simp [kindRank, orderedRanks])

/-- A literal of any other kind is ordered with nothing. -/
theorem filterCompare?_of_unordered (found : Value) (unordered : literal.kindRank ∉ orderedRanks) :
    found.filterCompare? literal = none := by
  rw [filterCompare?_eq_none_iff]
  by_cases sameKind : found.kindRank = literal.kindRank
  · exact .inr (.inl (by rwa [sameKind]))
  · exact .inl sameKind

end Value

/-! ## Coherence -/

/-- What six answers have to do with each other, given whether there is a value to compare and whether
the literal is of a kind that is ordered. -/
structure Coherent (isFound isOrdered : Prop) (holds : Comparison → Bool) : Prop where
  nowhere : ¬ isFound → ∀ sign, holds sign = false
  ne : isFound → holds .ne = !holds .eq
  exclusive : ∀ one ∈ [Comparison.lt, .eq, .gt], ∀ other ∈ [Comparison.lt, .eq, .gt],
    holds one = true → holds other = true → one = other
  le : isOrdered → holds .le = (holds .lt || holds .eq)
  ge : isOrdered → holds .ge = (holds .gt || holds .eq)
  unordered : ¬ isOrdered → ∀ sign ∈ [Comparison.lt, .le, .gt, .ge], holds sign = false

namespace Comparison

variable {found literal : Value}

/-- Where a value is found, the answers are read off its equality with the literal and their order. -/
theorem coherent_holds (found literal : Value) :
    Coherent True (literal.kind ∈ Value.orderedKinds) fun sign => sign.holds found literal where
  nowhere absent := absurd trivial absent
  ne _ := rfl
  exclusive := by
    by_cases ordered : literal.kindRank ∈ Value.orderedRanks
    · simp only [holds, Value.filterEquals_eq found ordered]
      cases found.filterCompare? literal with
      | none => simp
      | some order => cases order <;> simp
    · simp [holds, Value.filterCompare?_of_unordered found ordered]
  le ordered := by
    rw [Value.kind_mem_orderedKinds_iff] at ordered
    simp only [holds, Value.filterEquals_eq found ordered]
  ge ordered := by
    rw [Value.kind_mem_orderedKinds_iff] at ordered
    simp only [holds, Value.filterEquals_eq found ordered]
  unordered other := by
    rw [Value.kind_mem_orderedKinds_iff] at other
    simp [holds, Value.filterCompare?_of_unordered found other]

end Comparison

/-- Six answers that are all negative. -/
theorem coherent_of_nowhere {isFound isOrdered : Prop} {holds : Comparison → Bool} (absent : ¬ isFound)
    (none : ∀ sign, holds sign = false) : Coherent isFound isOrdered holds where
  nowhere _ := none
  ne isFound := absurd isFound absent
  exclusive one _ _ _ holdsOne := by
    rw [none one] at holdsOne
    contradiction
  le _ := by simp only [none, Bool.or_self]
  ge _ := by simp only [none, Bool.or_self]
  unordered _ sign _ := none sign

namespace Condition

/-- The comparisons of a path with a literal other than null are conditions, and coherent on every row
of every grid. -/
theorem coherent_compare (grid : Grid) (row : Entity) (path : Path) {literal : Value}
    (given : literal.isNull = false) :
    (∀ sign, (Filter.compare sign (.path path) (.value literal)).condition =
        .ok (.compare sign path literal)) ∧
      Coherent ((grid.resolve row path).isSome = true) (literal.kind ∈ Value.orderedKinds)
        fun sign => (compare sign path literal).holds grid row := by
  refine ⟨fun sign => rfl, ?_⟩
  simp only [holds, given, Bool.false_eq_true, if_false]
  cases grid.resolve row path with
  | none => exact coherent_of_nowhere (by simp) fun _ => rfl
  | some found => simpa using Comparison.coherent_holds found literal

/-- Two kilowatts at the far end of a reference, compared with the number one. -/
theorem coherent_compare_meter :
    let meter : Entity := ⟨[("id", .ref ⟨"m", none⟩), ("power", Value.quantityOf 2 "kW")]⟩
    let row : Entity := ⟨[("meterRef", .ref ⟨"m", none⟩)]⟩
    let grid : Grid := ⟨.three, false, ⟨[]⟩, ⟨[]⟩, [meter, row]⟩
    let path : Path := ⟨["meterRef", "power"]⟩
    let one := Value.quantityOf 1 ""
    one.isNull = false ∧ (compare .gt path one).holds grid row = true ∧
      (compare .eq path one).holds grid row = false ∧ (compare .ge path one).holds grid row = true := by
  intro meter row grid path one
  have given : one.isNull = false := rfl
  have coherent := (coherent_compare grid row path given).2
  have greater : (compare .gt path one).holds grid row = true := by decide +kernel
  have unequal : ¬ (compare .eq path one).holds grid row = true := fun equal =>
    Comparison.noConfusion (coherent.exclusive .gt (by simp) .eq (by simp) greater equal)
  refine ⟨given, greater, Bool.eq_false_iff.mpr unequal, ?_⟩
  have atLeast := coherent.ge (by decide +kernel)
  exact atLeast.trans (by rw [greater, Bool.true_or])

end Condition

end Haystack
