import Haystack.Proofs.Outcome
import Haystack.Sql.Query

/-!
The numbers of the rows that a query looks at.

One count runs through the steps of paths, the tests of a select and the selects of a query. A part
that starts from a count takes the numbers after it, without leaving any out.
-/
namespace Haystack.Sql

deriving instance DecidableEq for Test

/-- The row that is selected, then those that are joined. -/
def Select.rows (select : Select) : List Nat := select.row :: select.joins.map (·.row)

def Query.selects : Query → List Select
  | .select one => [one]
  | .intersect left right | .union left right => left.selects ++ right.selects

/-- The rows of a query in the order in which its parts are written. -/
def Query.rows (query : Query) : List Nat := query.selects.flatMap Select.rows

namespace Test

/-- The rows that a test is about. -/
def rows : Test → List Nat
  | .present field | .absent field | .equal _ field _ | .ordered _ field _ => [field.row]
  | .tags row _ _ _ => [row]
  | .and left right | .or left right => left.rows ++ right.rows

end Test

/-- Every row is joined by a field of a row before it. -/
def Linked : List Nat → List Join → Prop
  | _, [] => True
  | known, join :: rest => join.reference.row ∈ known ∧ Linked (join.row :: known) rest

structure Select.IsLinked (select : Select) : Prop where
  joins : Linked [select.row] select.joins
  test : ∀ test ∈ select.test, test.rows ⊆ select.rows

section Linked

variable {known more : List Nat} {joins others : List Join} {row next used : Nat} {tags : List String}

theorem Linked.mono (linked : Linked known joins) (subset : known ⊆ more) : Linked more joins := by
  induction joins generalizing known more with
  | nil => exact trivial
  | cons join joins ih => exact ⟨subset linked.1, ih linked.2 (List.cons_subset_cons _ subset)⟩

theorem Linked.append (linked : Linked known joins) (further : Linked known others) :
    Linked known (joins ++ others) := by
  induction joins generalizing known with
  | nil => exact further
  | cons join joins ih => exact ⟨linked.1, ih linked.2 (further.mono (List.subset_cons_self _ _))⟩

theorem linked_joinsAlong (member : row ∈ known) : Linked known (joinsAlong row next tags) := by
  induction tags generalizing known row next with
  | nil => exact trivial
  | cons tag tags ih => exact ⟨member, ih List.mem_cons_self⟩

theorem rows_joinsAlong : (joinsAlong row next tags).map (·.row) = List.range' next tags.length := by
  induction tags generalizing row next with
  | nil => rfl
  | cons tag tags ih => rw [joinsAlong, List.map_cons, ih, List.length_cons, List.range'_succ]

end Linked

/-! ## Tests -/

/-- The joins of a test of a row take the numbers after `used`. -/
structure Prepared.IsNumbered (row used : Nat) (prepared : Prepared) : Prop where
  count : prepared.used = used + prepared.joins.length
  rows : prepared.joins.map (·.row) = List.range' (used + 1) prepared.joins.length
  linked : Linked [row] prepared.joins
  test : prepared.test.rows ⊆ row :: prepared.joins.map (·.row)

section Prepared

variable {row used : Nat} {test : RowTest} {prepared left right : Prepared}

theorem Walk.isNumbered_prepare (path : Path) {test : Test} (about : test.rows = [(walk row used path).field.row]) :
    ((walk row used path).prepare test).IsNumbered row used := by
  have rows : (walk row used path).joins.map (·.row) = List.range' (used + 1) path.segments.dropLast.length :=
    rows_joinsAlong
  have length : (walk row used path).joins.length = path.segments.dropLast.length := by
    rw [← List.length_map, rows, List.length_range']
  refine ⟨congrArg (used + ·) length.symm, ?_, linked_joinsAlong List.mem_cons_self, ?_⟩
  · rw [Walk.prepare, length, rows]
  rw [Walk.prepare, about, rows, walk]
  refine List.cons_subset.mpr ⟨?_, List.nil_subset _⟩
  cases steps : path.segments.dropLast with
  | nil => exact List.mem_cons_self
  | cons step steps =>
      refine List.mem_cons_of_mem _ (List.mem_range'_1.mpr ?_)
      simp only [List.isEmpty_cons, List.length_cons, Bool.false_eq_true, if_false]
      omega

/-- Tests that are joined take the numbers of the one and then those of the other. -/
theorem Prepared.IsNumbered.append (isLeft : left.IsNumbered row used) (isRight : right.IsNumbered row left.used)
    {test : Test} (about : test.rows = left.test.rows ++ right.test.rows) :
    (Prepared.mk (left.joins ++ right.joins) test right.used).IsNumbered row used := by
  have numbers : (left.joins ++ right.joins).map (·.row) =
      List.range' (used + 1) (left.joins ++ right.joins).length := by
    rw [List.map_append, isLeft.rows, isRight.rows, isLeft.count, List.length_append, ← List.range'_append_1,
      Nat.add_right_comm]
  refine ⟨?_, numbers, isLeft.linked.append isRight.linked, ?_⟩
  · rw [isRight.count, isLeft.count, List.length_append, Nat.add_assoc]
  · rw [about, List.map_append]
    refine List.append_subset.mpr ⟨List.Subset.trans isLeft.test ?_, List.Subset.trans isRight.test ?_⟩
    · exact List.cons_subset_cons _ (List.subset_append_left _ _)
    · exact List.cons_subset_cons _ (List.subset_append_right _ _)

theorem rows_compareField {comparison : Comparison} {field : Field} {literal : Value} {test : Test}
    (compared : compareField comparison field literal = .ok test) : test.rows = [field.row] := by
  unfold compareField at compared
  split at compared
  all_goals
    obtain ⟨_, _, rfl⟩ := Outcome.of_map compared
    rfl

theorem isNumbered_of_prepare (isPrepared : prepare row used test = .ok prepared) : prepared.IsNumbered row used := by
  induction test generalizing used prepared with
  | has path =>
      obtain rfl := Except.ok.inj isPrepared
      exact Walk.isNumbered_prepare path rfl
  | missing path =>
      obtain rfl := Except.ok.inj isPrepared
      exact Walk.isNumbered_prepare path rfl
  | tags junction presence names =>
      obtain rfl := Except.ok.inj isPrepared
      exact ⟨rfl, rfl, trivial, List.cons_subset_cons _ (List.nil_subset _)⟩
  | compare comparison path literal =>
      obtain ⟨test, compared, isPrepared⟩ := Outcome.of_bind isPrepared
      obtain rfl := Except.ok.inj isPrepared
      exact Walk.isNumbered_prepare path (rows_compareField compared)
  | and left right leftIh rightIh | or left right leftIh rightIh =>
      obtain ⟨first, isFirst, isPrepared⟩ := Outcome.of_bind isPrepared
      obtain ⟨second, isSecond, isPrepared⟩ := Outcome.of_bind isPrepared
      obtain rfl := Except.ok.inj isPrepared
      exact (leftIh isFirst).append (rightIh isSecond) rfl

end Prepared

/-! ## Queries -/

section Queries

variable {first used : Nat} {plan : Plan} {query : Query}

/-- The numbers of a query start from the first one, which is taken. -/
theorem rows_of_queryFrom (made : queryFrom first plan = .ok (query, used)) :
    ∃ count, query.rows = List.range' first (count + 1) ∧ used = first + count := by
  induction plan generalizing first used query with
  | rows test =>
      obtain ⟨prepared, isPrepared, made⟩ := Outcome.of_bind made
      obtain ⟨rfl, rfl⟩ := Prod.mk.inj (Except.ok.inj made)
      have numbered := isNumbered_of_prepare isPrepared
      refine ⟨prepared.joins.length, ?_, numbered.count⟩
      rw [Query.rows, Query.selects, List.flatMap_singleton, Select.rows, numbered.rows, ← List.range'_succ]
  | intersect left right leftIh rightIh | union left right leftIh rightIh =>
      obtain ⟨⟨one, between⟩, isLeft, made⟩ := Outcome.of_bind made
      obtain ⟨⟨other, last⟩, isRight, made⟩ := Outcome.of_bind made
      obtain ⟨rfl, rfl⟩ := Prod.mk.inj (Except.ok.inj made)
      obtain ⟨count, rows, rfl⟩ := leftIh isLeft
      obtain ⟨further, more, rfl⟩ := rightIh isRight
      refine ⟨count + 1 + further, ?_, by omega⟩
      have both : one.rows ++ other.rows = List.range' first (count + 1 + (further + 1)) := by
        rw [rows, more]
        exact List.range'_append_1
      rw [Query.rows, Query.selects, List.flatMap_append, ← Query.rows, ← Query.rows, both]
      rfl

theorem isLinked_of_queryFrom (made : queryFrom first plan = .ok (query, used)) :
    ∀ select ∈ query.selects, select.IsLinked := by
  induction plan generalizing first used query with
  | rows test =>
      obtain ⟨prepared, isPrepared, made⟩ := Outcome.of_bind made
      obtain ⟨rfl, rfl⟩ := Prod.mk.inj (Except.ok.inj made)
      have numbered := isNumbered_of_prepare isPrepared
      refine List.forall_mem_singleton.mpr ⟨numbered.linked, ?_⟩
      rintro _ ⟨⟩
      exact numbered.test
  | intersect left right leftIh rightIh | union left right leftIh rightIh =>
      obtain ⟨⟨one, between⟩, isLeft, made⟩ := Outcome.of_bind made
      obtain ⟨⟨other, last⟩, isRight, made⟩ := Outcome.of_bind made
      obtain ⟨rfl, rfl⟩ := Prod.mk.inj (Except.ok.inj made)
      exact List.forall_mem_append.mpr ⟨leftIh isLeft, rightIh isRight⟩

/-- The rows of the query of a filter are numbered from one, and each one that is named is one of its
select. -/
theorem numbered_of_ofFilter {text : String} (made : Query.ofFilter text = .ok query) :
    (∃ count, query.rows = List.range' 1 (count + 1)) ∧ ∀ select ∈ query.selects, select.IsLinked := by
  unfold Query.ofFilter at made
  dsimp only at made
  split at made
  · obtain rfl := Except.ok.inj made
    exact ⟨⟨0, rfl⟩, List.forall_mem_singleton.mpr ⟨trivial, nofun⟩⟩
  · obtain ⟨filter, _, made⟩ := Outcome.of_bind made
    obtain ⟨condition, _, made⟩ := Outcome.of_bind made
    obtain ⟨⟨_, used⟩, isQuery, rfl⟩ := Outcome.of_map made
    obtain ⟨count, rows, _⟩ := rows_of_queryFrom isQuery
    exact ⟨⟨count, rows⟩, isLinked_of_queryFrom isQuery⟩

end Queries

end Haystack.Sql
