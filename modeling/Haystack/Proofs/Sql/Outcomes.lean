import Haystack.Proofs.Grid.Writing
import Haystack.Proofs.Sql.Alike
import Haystack.Proofs.Sql.Layers
import Haystack.Proofs.Zinc.Rewriting
import Mathlib.Data.List.TakeWhile

/-!
Which filters have a statement.

A filter that is read has one unless a comparison asks whether values come before or after what has no
place in an order of a database. The first such comparison is what the filter is refused for; nothing
else goes wrong after it was read, in whatever dialect.
-/
namespace Haystack

open Outcome (Succeeds succeeds_ok)

/-- Whether a comparison asks which of two values comes first. -/
def Comparison.isOrder : Comparison → Bool
  | .eq | .ne => false
  | _ => true

/-- Whether databases can order values against a literal. -/
def Value.isOrderable : Value → Bool
  | .str _ | .date _ | .time _ | .dateTime _ => true
  | .number n => n.magnitude.isFinite
  | _ => false

theorem Text.trim_eq_nil_iff {text : List Char} : trim text = [] ↔ isAllBlank text = true := by
  rw [trim, trimEnd, List.reverse_eq_nil_iff, List.dropWhile_eq_nil_iff, isAllBlank, List.all_eq_true]
  constructor
  · intro blank
    by_contra some
    have rest : trimStart text ≠ [] := fun none => some (List.dropWhile_eq_nil_iff.mp none)
    have front := blank _ (List.mem_reverse.mpr (List.head_mem rest))
    exact Bool.false_ne_true ((List.head_dropWhile_not isBlank rest).symm.trans front)
  · intro blank c member
    exact blank c ((List.dropWhile_sublist _).subset (List.mem_reverse.mp member))

namespace Sql

/-- A comparison by order with a literal that values cannot be ordered against. -/
def isBarred (compared : Comparison × Value) : Bool := compared.1.isOrder && !compared.2.isOrderable

/-- What such a comparison is refused with: the literal if it is a number, the operator and the kind of
the literal if not. -/
def refusalOf (compared : Comparison × Value) : Misuse :=
  match compared.2 with
  | .number n => .unboundedInSql (Value.number n).display
  | literal => .unorderedInSql compared.1.symbol literal.kind

/-- What is made of some comparisons is made unless one of them is barred, and refused for the first
that is. -/
structure Settles {α : Type} (compared : List (Comparison × Value)) (outcome : Except Error α) : Prop where
  made : compared.find? isBarred = none → Succeeds outcome
  refused : ∀ barred, compared.find? isBarred = some barred → outcome = .error (.misuse (refusalOf barred))

variable {α β : Type} {compared more : List (Comparison × Value)} {outcome : Except Error α}

theorem settles_ok (a : α) : Settles [] (.ok a) where
  made := fun _ => succeeds_ok a
  refused := fun _ none => by cases none

theorem Settles.bind {next : α → Except Error β} (first : Settles compared outcome)
    (later : ∀ a, Settles more (next a)) : Settles (compared ++ more) (outcome >>= next) := by
  cases found : compared.find? isBarred with
  | none =>
      obtain ⟨a, rfl⟩ := first.made found
      have settles := later a
      exact ⟨fun none => settles.made (by simpa [List.find?_append, found] using none),
        fun barred isFirst => settles.refused barred (by simpa [List.find?_append, found] using isFirst)⟩
  | some barred =>
      have whole : (compared ++ more).find? isBarred = some barred := by rw [List.find?_append, found, Option.some_or]
      rw [first.refused barred found]
      exact ⟨fun none => absurd (whole.symm.trans none) (Option.some_ne_none _),
        fun other isFirst => Option.some.inj (whole.symm.trans isFirst) ▸ rfl⟩

theorem Settles.map {make : α → β} (settles : Settles compared outcome) : Settles compared (outcome.map make) := by
  have same : outcome.map make = outcome >>= fun a => .ok (make a) := by cases outcome <;> rfl
  rw [same, ← List.append_nil compared]
  exact settles.bind fun a => settles_ok (make a)

/-! ## Comparisons -/

theorem settles_of_succeeds {only : Comparison × Value} (free : isBarred only = false)
    (succeeds : Succeeds outcome) : Settles [only] outcome where
  made := fun _ => succeeds
  refused := fun barred found => by simp [free] at found

theorem settles_of_barred {only : Comparison × Value} (barred : isBarred only = true)
    (refused : outcome = .error (.misuse (refusalOf only))) : Settles [only] outcome where
  made := fun none => by simp [barred] at none
  refused := fun first found => by
    obtain rfl : only = first := by simpa [barred] using found
    exact refused

variable {literal : Value}

theorem succeeds_storedText (within : literal.Throughout Value.IsWithin) : Succeeds (storedText literal) := by
  have fits : literal.fits .latest = true := Zinc.fits_of_isAtLeastThree (by decide) literal
  refine (Json.succeeds_treeOf within fits).bind fun tree => ?_
  split <;> exact succeeds_ok _

/-- Whatever can be read can be looked for. -/
theorem succeeds_matchOf (within : literal.Throughout Value.IsWithin) : Succeeds (matchOf literal) := by
  have fits : literal.fits .latest = true := Zinc.fits_of_isAtLeastThree (by decide) literal
  have isStored := succeeds_storedText within
  unfold matchOf
  split
  · exact succeeds_ok _
  · exact succeeds_ok _
  · exact succeeds_ok _
  · dsimp only
    split <;> exact isStored.map
  · exact (Json.succeeds_treeOf within fits).map.map
  · exact (Json.succeeds_treeOf within fits).map.map
  · exact (Json.succeeds_treeOf within fits).map.map
  · exact isStored.map

theorem succeeds_limitOf (comparison : Comparison) (orderable : literal.isOrderable = true) :
    Succeeds (limitOf comparison literal) := by
  cases literal with
  | number n =>
      have finite : n.magnitude.isFinite = true := orderable
      rw [limitOf, if_pos finite]
      exact succeeds_ok _
  | str | date | time | dateTime => exact succeeds_ok _
  | _ => cases orderable

theorem limitOf_eq_error (comparison : Comparison) (unorderable : literal.isOrderable = false) :
    limitOf comparison literal = .error (.misuse (refusalOf (comparison, literal))) := by
  cases literal with
  | number n =>
      have infinite : ¬ n.magnitude.isFinite = true := Bool.eq_false_iff.mp unorderable
      rw [limitOf, if_neg infinite]
      rfl
  | str | date | time | dateTime => cases unorderable
  | _ => rfl

theorem settles_limitOf {comparison : Comparison} (isOrder : comparison.isOrder = true) (literal : Value) :
    Settles [(comparison, literal)] (limitOf comparison literal) := by
  cases orderable : literal.isOrderable with
  | true => exact settles_of_succeeds (by simp [isBarred, orderable]) (succeeds_limitOf comparison orderable)
  | false => exact settles_of_barred (by simp [isBarred, isOrder, orderable]) (limitOf_eq_error comparison orderable)

theorem settles_compareField (comparison : Comparison) (field : Field) (within : literal.Throughout Value.IsWithin) :
    Settles [(comparison, literal)] (compareField comparison field literal) := by
  have isMatch {holds : Bool} : Succeeds ((matchOf literal).map (Test.equal holds field)) :=
    (succeeds_matchOf within).map
  cases comparison with
  | eq | ne => exact settles_of_succeeds rfl isMatch
  | lt | le | gt | ge => exact (settles_limitOf rfl literal).map

/-! ## Plans -/

def RowTest.comparisons : RowTest → List (Comparison × Value)
  | .compare comparison _ literal => [(comparison, literal)]
  | .and left right | .or left right => left.comparisons ++ right.comparisons
  | _ => []

def Plan.comparisons : Plan → List (Comparison × Value)
  | .rows test => test.comparisons
  | .intersect left right | .union left right => left.comparisons ++ right.comparisons

section Plans

variable {junction : Junction}

/-- Tests of single tags compare nothing. -/
theorem RowTest.comparisons_of_tagTests? {test : RowTest} {tests : Presence × List String}
    (tagTests : test.tagTests? junction = some tests) : test.comparisons = [] := by
  cases test with
  | has | missing | tags => rfl
  | _ => cases tagTests

theorem Plan.comparisons_combine (left right : Plan) :
    (combine junction left right).comparisons = left.comparisons ++ right.comparisons := by
  cases junction <;> rfl

theorem Plan.comparisons_join (left right : Plan) :
    (join junction left right).comparisons = left.comparisons ++ right.comparisons := by
  refine join_cases (motive := fun left right both => both.comparisons = left.comparisons ++ right.comparisons)
    ?_ ?_ comparisons_combine left right
  · intro left right presence names more isLeft isRight
    exact (congrArg₂ (· ++ ·) (RowTest.comparisons_of_tagTests? isLeft)
      (RowTest.comparisons_of_tagTests? isRight)).symm
  · intro left right _ _
    cases junction <;> rfl

/-- A plan makes the comparisons of its condition, in their order. -/
theorem Plan.comparisons_ofCondition (condition : Condition) :
    (ofCondition condition).comparisons = condition.comparisons := by
  induction condition with
  | and left right leftIh rightIh => rw [ofCondition, comparisons_join, leftIh, rightIh, Condition.comparisons]
  | or left right leftIh rightIh => rw [ofCondition, comparisons_join, leftIh, rightIh, Condition.comparisons]
  | _ => rfl

end Plans

/-! ## Queries -/

theorem settles_prepare {test : RowTest}
    (within : ∀ compared ∈ test.comparisons, compared.2.Throughout Value.IsWithin) (row used : Nat) :
    Settles test.comparisons (prepare row used test) := by
  induction test generalizing used with
  | has path => exact settles_ok _
  | missing path => exact settles_ok _
  | tags junction presence names => exact settles_ok _
  | compare comparison path literal =>
      exact (settles_compareField comparison _ (within _ List.mem_cons_self)).map
  | and left right leftIh rightIh =>
      obtain ⟨onLeft, onRight⟩ := List.forall_mem_append.mp within
      exact (leftIh onLeft used).bind fun prepared => (rightIh onRight prepared.used).map
  | or left right leftIh rightIh =>
      obtain ⟨onLeft, onRight⟩ := List.forall_mem_append.mp within
      exact (leftIh onLeft used).bind fun prepared => (rightIh onRight prepared.used).map

theorem settles_queryFrom {plan : Plan}
    (within : ∀ compared ∈ plan.comparisons, compared.2.Throughout Value.IsWithin) (first : Nat) :
    Settles plan.comparisons (queryFrom first plan) := by
  induction plan generalizing first with
  | rows test => exact (settles_prepare within first first).map
  | intersect left right leftIh rightIh =>
      obtain ⟨onLeft, onRight⟩ := List.forall_mem_append.mp within
      exact (leftIh onLeft first).bind fun made => (rightIh onRight (made.2 + 1)).map
  | union left right leftIh rightIh =>
      obtain ⟨onLeft, onRight⟩ := List.forall_mem_append.mp within
      exact (leftIh onLeft first).bind fun made => (rightIh onRight (made.2 + 1)).map

/-! ## Statements -/

/-- The text of a filter without the white space around it. -/
def trimmed (text : String) : String := String.ofList (Text.trim text.toList)

variable {text : String} {filter : Filter}

theorem ofFilter_of_isAllBlank (blank : Text.isAllBlank text.toList = true) :
    Query.ofFilter text = .ok .everything := by
  simp only [Query.ofFilter, Text.trim_eq_nil_iff.mpr blank]
  rfl

theorem ofFilter_of_solid (solid : Text.isAllBlank text.toList = false) :
    Query.ofFilter text = Filter.read (trimmed text) >>= fun filter => Query.ofRequest (some filter) := by
  have some : (Text.trim text.toList).isEmpty = false := by
    rw [List.isEmpty_eq_false_iff, Ne, Text.trim_eq_nil_iff, solid]
    exact Bool.false_ne_true
  simp only [Query.ofFilter, some, Bool.false_eq_true, if_false]
  rfl

theorem solid_of_read (read : Filter.read (trimmed text) = .ok filter) : Text.isAllBlank text.toList = false := by
  refine Bool.eq_false_iff.mpr fun blank => Filter.nonempty_of_read read ?_
  rw [trimmed, String.toList_ofList, Text.trim_eq_nil_iff.mpr blank]

/-- A filter that is read is divided into selects and conditions. -/
theorem exists_condition_of_read (read : Filter.read (trimmed text) = .ok filter) :
    ∃ condition, filter.condition = .ok condition ∧
      (Plan.ofCondition condition).node = Node.ofCondition condition ∧ (Node.ofCondition condition).IsLayered := by
  obtain ⟨condition, rfl, _⟩ := Filter.isDenoted_of_read read
  exact ⟨condition, condition.condition_filter, Plan.node_ofCondition condition,
    Node.isLayered_ofCondition condition⟩

theorem settles_statement (source : Source) (read : Filter.read (trimmed text) = .ok filter) (limit : Option Nat) :
    Settles filter.comparisons (source.statement text limit) := by
  have isQuery := ofFilter_of_solid (solid_of_read read)
  obtain ⟨condition, rfl, denoted⟩ := Filter.isDenoted_of_read read
  rw [Outcome.bind_ok read, Query.ofRequest, Outcome.bind_ok condition.condition_filter] at isQuery
  rw [Source.statement, isQuery, condition.comparisons_filter, ← Plan.comparisons_ofCondition]
  refine Settles.map (Settles.map (settles_queryFrom (fun compared member => ?_) 1))
  rw [Plan.comparisons_ofCondition] at member
  exact (denoted.denotable compared member).imp fun _ => Zinc.isWithin_of_denotable

theorem succeeds_of_isAllBlank (source : Source) (blank : Text.isAllBlank text.toList = true) (limit : Option Nat) :
    Succeeds (source.statement text limit) := by
  rw [Source.statement, ofFilter_of_isAllBlank blank]
  exact succeeds_ok _

/-- A blank text selects everything, a text that cannot be read is refused as one, and what becomes of a
filter depends on its comparisons. -/
theorem statement_cases (source : Source) (text : String) (limit : Option Nat) :
    (Text.isAllBlank text.toList = true ∧ Succeeds (source.statement text limit)) ∨
      (∃ error, Filter.read (trimmed text) = .error error ∧ source.statement text limit = .error error) ∨
      ∃ filter, Filter.read (trimmed text) = .ok filter ∧
        Settles filter.comparisons (source.statement text limit) := by
  cases blank : Text.isAllBlank text.toList with
  | true => exact .inl ⟨rfl, succeeds_of_isAllBlank source blank limit⟩
  | false =>
      cases read : Filter.read (trimmed text) with
      | error error =>
          refine .inr (.inl ⟨error, rfl, ?_⟩)
          rw [Source.statement, ofFilter_of_solid blank, read]
          rfl
      | ok filter => exact .inr (.inr ⟨filter, rfl, settles_statement source read limit⟩)

theorem find?_isBarred_eq_none_iff : compared.find? isBarred = none ↔
    ∀ one ∈ compared, one.1.isOrder = true → one.2.isOrderable = true := by
  simp [List.find?_eq_none, isBarred]

/-- A filter has a statement if it is blank, or if it can be read and orders values only against texts,
dates, times, moments and finite numbers. If it can be read and does otherwise, it is refused for the first
comparison that does. No text is refused as a misuse for anything else: what is read are tests of paths
and comparisons of paths with literals, and no select gets inside a condition. -/
theorem Source.statement_outcomes (source : Source) (text : String) (limit : Option Nat) :
    ((∃ statement, source.statement text limit = .ok statement) ↔
      Text.isAllBlank text.toList = true ∨ ∃ filter, Filter.read (trimmed text) = .ok filter ∧
        ∀ compared ∈ filter.comparisons, compared.1.isOrder = true → compared.2.isOrderable = true) ∧
    (∀ filter, Filter.read (trimmed text) = .ok filter →
      (∃ compared ∈ filter.comparisons, compared.1.isOrder = true ∧ compared.2.isOrderable = false) →
      ∃ barred, filter.comparisons.find? isBarred = some barred ∧
        source.statement text limit = .error (.misuse (refusalOf barred))) ∧
    (∀ cause, source.statement text limit = .error (.misuse cause) →
      ∃ filter barred, Filter.read (trimmed text) = .ok filter ∧
        filter.comparisons.find? isBarred = some barred ∧ cause = refusalOf barred) ∧
    (∀ filter, Filter.read (trimmed text) = .ok filter → ∃ condition, filter.condition = .ok condition ∧
      (Plan.ofCondition condition).node = Node.ofCondition condition ∧
        (Node.ofCondition condition).IsLayered) := by
  have outcomes := statement_cases source text limit
  refine ⟨⟨?_, ?_⟩, ?_, ?_, fun filter read => exists_condition_of_read read⟩
  · rintro ⟨statement, made⟩
    rcases outcomes with ⟨blank, _⟩ | ⟨error, _, refused⟩ | ⟨filter, read, settles⟩
    · exact .inl blank
    · cases made.symm.trans refused
    · refine .inr ⟨filter, read, find?_isBarred_eq_none_iff.mp ?_⟩
      cases found : filter.comparisons.find? isBarred with
      | none => rfl
      | some barred => cases made.symm.trans (settles.refused barred found)
  · rintro (blank | ⟨filter, read, allowed⟩)
    · exact succeeds_of_isAllBlank source blank limit
    · exact (settles_statement source read limit).made (find?_isBarred_eq_none_iff.mpr allowed)
  · rintro filter read ⟨compared, member, isOrder, unorderable⟩
    cases found : filter.comparisons.find? isBarred with
    | none =>
        have orderable := find?_isBarred_eq_none_iff.mp found compared member isOrder
        cases orderable.symm.trans unorderable
    | some barred => exact ⟨barred, rfl, (settles_statement source read limit).refused barred found⟩
  · intro cause misused
    rcases outcomes with ⟨_, statement, made⟩ | ⟨error, unreadable, refused⟩ | ⟨filter, read, settles⟩
    · cases made.symm.trans misused
    · exact absurd (Except.error.inj (refused.symm.trans misused)) (Filter.isOfText_of_read unreadable cause)
    · cases found : filter.comparisons.find? isBarred with
      | none =>
          obtain ⟨statement, made⟩ := settles.made found
          cases made.symm.trans misused
      | some barred =>
          have same := (settles.refused barred found).symm.trans misused
          exact ⟨filter, barred, read, found, (Error.misuse.inj (Except.error.inj same)).symm⟩

example : (Source.mk .sqlite "haystack" "acme" 0).statement "area < NaN" none =
    .error (.misuse (.unboundedInSql "NaN")) := by decide +kernel

/-- White space that no filter starts with is no obstacle to a statement: it is taken off first. -/
theorem Source.statement_of_padded :
    ¬ ((∃ statement, (Source.mk .postgres "haystack" "acme" 0).statement "\u00a0a" none = .ok statement) ↔
      Text.isAllBlank "\u00a0a".toList = true ∨ ∃ filter, Filter.read "\u00a0a" = .ok filter ∧
        ∀ compared ∈ filter.comparisons, compared.1.isOrder = true → compared.2.isOrderable = true) := by
  intro equivalent
  have made : ∃ statement, (Source.mk .postgres "haystack" "acme" 0).statement "\u00a0a" none = .ok statement :=
    Outcome.succeeds_of_isOk (by decide +kernel)
  rcases equivalent.mp made with blank | ⟨filter, read, _⟩
  · have solid : Text.isAllBlank "\u00a0a".toList = false := by decide
    cases solid.symm.trans blank
  · have refused : (Filter.read "\u00a0a").isOk = false := by decide +kernel
    rw [read] at refused
    cases refused

end Sql

end Haystack
