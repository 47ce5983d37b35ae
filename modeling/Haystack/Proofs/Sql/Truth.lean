import Haystack.Proofs.Filter.Reading
import Haystack.Proofs.Outcome
import Haystack.Sql.Plan

/-!
The truth value of a plan.

Dividing a condition into selects changes nothing about when it holds: tests of single tags that are
joined alike hold as one test of all their tags, and selects are intersected or united where their
conditions are joined by `and` or `or`.
-/
namespace Haystack.Sql

/-- A truth value for each test of a path. That a path leads nowhere is that it is not present. -/
structure Assignment where
  present : Path → Bool
  compares : Comparison → Path → Value → Bool

/-- A tag on its own is a path. -/
def Assignment.hasTag (a : Assignment) (name : String) : Bool := a.present ⟨[name]⟩

/-- All tags are present, some are, none is, or some are absent. -/
def tagsHold (hasTag : String → Bool) (names : List String) : Junction → Presence → Bool
  | .all, .present => names.all hasTag
  | .any, .present => names.any hasTag
  | .all, .absent => !names.any hasTag
  | .any, .absent => !names.all hasTag

def Junction.apply : Junction → Bool → Bool → Bool
  | .all, left, right => left && right
  | .any, left, right => left || right

variable {a : Assignment} {junction : Junction} {presence : Presence} {left right merged test : RowTest}
  {names more : List String}

theorem tagsHold_append (hasTag : String → Bool) : tagsHold hasTag (names ++ more) junction presence =
    junction.apply (tagsHold hasTag names junction presence) (tagsHold hasTag more junction presence) := by
  cases junction <;> cases presence <;>
    simp only [tagsHold, Junction.apply, List.all_append, List.any_append, Bool.not_or, Bool.not_and]

/-- The truth value of a filter that is a condition. -/
def truth? (a : Assignment) : Filter → Option Bool
  | .path path | .has (.path path) => some (a.present path)
  | .missing (.path path) => some (!a.present path)
  | .compare comparison (.path path) (.value literal) => some (a.compares comparison path literal)
  | .and left right => do
      let left ← truth? a left
      let right ← truth? a right
      pure (left && right)
  | .or left right => do
      let left ← truth? a left
      let right ← truth? a right
      pure (left || right)
  | _ => none

def RowTest.truth (a : Assignment) : RowTest → Bool
  | .has path => a.present path
  | .missing path => !a.present path
  | .tags junction presence names => tagsHold a.hasTag names junction presence
  | .compare comparison path literal => a.compares comparison path literal
  | .and left right => left.truth a && right.truth a
  | .or left right => left.truth a || right.truth a

def Plan.truth (a : Assignment) : Plan → Bool
  | .rows test => test.truth a
  | .intersect left right => left.truth a && right.truth a
  | .union left right => left.truth a || right.truth a

/-! ## Joined tests -/

theorem RowTest.truth_join : (RowTest.join junction left right).truth a =
    junction.apply (left.truth a) (right.truth a) := by
  cases junction <;> rfl

theorem Plan.truth_combine {left right : Plan} : (Plan.combine junction left right).truth a =
    junction.apply (left.truth a) (right.truth a) := by
  cases junction <;> rfl

/-- A path of one tag is that of its head. -/
theorem eq_of_isSimple {path : Path} (simple : path.isSimple = true) : path = ⟨[path.head]⟩ := by
  obtain ⟨segments⟩ := path
  obtain ⟨name, rfl⟩ := List.length_eq_one_iff.mp (eq_of_beq simple)
  rfl

/-- Tests of single tags hold as a test of all of them. -/
theorem RowTest.truth_of_tagTests? (tests : test.tagTests? junction = some (presence, names)) :
    test.truth a = tagsHold a.hasTag names junction presence := by
  cases test with
  | has path =>
      rw [tagTests?, Option.ite_none_right_eq_some] at tests
      obtain ⟨simple, same⟩ := tests
      obtain ⟨rfl, rfl⟩ := Prod.mk.inj (Option.some.inj same)
      rw [eq_of_isSimple simple]
      cases junction <;> simp [truth, tagsHold, Assignment.hasTag, Path.head]
  | missing path =>
      rw [tagTests?, Option.ite_none_right_eq_some] at tests
      obtain ⟨simple, same⟩ := tests
      obtain ⟨rfl, rfl⟩ := Prod.mk.inj (Option.some.inj same)
      rw [eq_of_isSimple simple]
      cases junction <;> simp [truth, tagsHold, Assignment.hasTag, Path.head]
  | tags own presence names =>
      rw [tagTests?, Option.ite_none_right_eq_some] at tests
      obtain ⟨rfl, same⟩ := tests
      obtain ⟨rfl, rfl⟩ := Prod.mk.inj (Option.some.inj same)
      rfl
  | _ => exact nomatch tests

/-- Two tests are merged if they are tests of single tags of one kind. -/
theorem RowTest.merge?_eq_some_iff : RowTest.merge? junction left right = some merged ↔
    ∃ presence names more, left.tagTests? junction = some (presence, names) ∧
      right.tagTests? junction = some (presence, more) ∧
      .tags junction presence (names ++ more) = merged := by
  unfold merge?
  constructor
  · intro made
    split at made
    · next presence names other more isLeft isRight =>
      rw [Option.ite_none_right_eq_some] at made
      obtain ⟨rfl, made⟩ := made
      exact ⟨presence, names, more, isLeft, isRight, Option.some.inj made⟩
    · exact nomatch made
  · rintro ⟨presence, names, more, isLeft, isRight, rfl⟩
    simp [isLeft, isRight]

/-- All that joining does: tests of single tags become one, tests of one row are joined, and what needs
selects of its own is combined. -/
theorem Plan.join_cases {motive : Plan → Plan → Plan → Prop}
    (merged : ∀ (left right : RowTest) (presence : Presence) (names more : List String),
      left.tagTests? junction = some (presence, names) → right.tagTests? junction = some (presence, more) →
      motive (.rows left) (.rows right) (.rows (.tags junction presence (names ++ more))))
    (joined : ∀ left right : RowTest, left.followsPath = false → right.followsPath = false →
      motive (.rows left) (.rows right) (.rows (left.join junction right)))
    (combined : ∀ left right : Plan, motive left right (combine junction left right)) (left right : Plan) :
    motive left right (join junction left right) := by
  unfold join
  split
  · split
    · next made =>
      obtain ⟨presence, names, more, isLeft, isRight, rfl⟩ := RowTest.merge?_eq_some_iff.mp made
      exact merged _ _ presence names more isLeft isRight
    · split
      · exact combined _ _
      · next noPath =>
        obtain ⟨isLeft, isRight⟩ := Bool.or_eq_false_iff.mp (Bool.eq_false_iff.mpr noPath)
        exact joined _ _ isLeft isRight
  · exact combined left right

theorem Plan.truth_join (left right : Plan) : (Plan.join junction left right).truth a =
    junction.apply (left.truth a) (right.truth a) := by
  refine join_cases (motive := fun left right both => both.truth a = junction.apply (left.truth a) (right.truth a))
    ?_ (fun _ _ _ _ => RowTest.truth_join) (fun _ _ => truth_combine) left right
  intro left right presence names more isLeft isRight
  simp only [truth, RowTest.truth_of_tagTests? isLeft, RowTest.truth_of_tagTests? isRight, RowTest.truth,
    tagsHold_append]

/-- The plan of a condition holds where the filter does. -/
theorem truth?_of_condition {filter : Filter} {condition : Condition}
    (isCondition : filter.condition = .ok condition) :
    truth? a filter = some ((Plan.ofCondition condition).truth a) := by
  induction filter generalizing condition with
  | path path => exact Except.ok.inj isCondition ▸ rfl
  | value literal => exact nomatch isCondition
  | has operand =>
      cases operand with
      | path path => exact Except.ok.inj isCondition ▸ rfl
      | _ => exact nomatch isCondition
  | missing operand =>
      cases operand with
      | path path => exact Except.ok.inj isCondition ▸ rfl
      | _ => exact nomatch isCondition
  | compare comparison left right =>
      unfold Filter.condition at isCondition
      split at isCondition
      · exact Except.ok.inj isCondition ▸ rfl
      · exact nomatch isCondition
  | and left right leftIh rightIh =>
      obtain ⟨first, isFirst, isCondition⟩ := Outcome.of_bind isCondition
      obtain ⟨second, isSecond, isCondition⟩ := Outcome.of_bind isCondition
      obtain rfl := Except.ok.inj isCondition
      rw [truth?, leftIh isFirst, rightIh isSecond, Plan.ofCondition, Plan.truth_join]
      rfl
  | or left right leftIh rightIh =>
      obtain ⟨first, isFirst, isCondition⟩ := Outcome.of_bind isCondition
      obtain ⟨second, isSecond, isCondition⟩ := Outcome.of_bind isCondition
      obtain rfl := Except.ok.inj isCondition
      rw [truth?, leftIh isFirst, rightIh isSecond, Plan.ofCondition, Plan.truth_join]
      rfl

/-! ## Tests of tags -/

/-- The lists of tags that a test looks for. -/
def RowTest.tagLists : RowTest → List (List String)
  | .tags _ _ names => [names]
  | .and left right | .or left right => left.tagLists ++ right.tagLists
  | _ => []

def Plan.tagLists : Plan → List (List String)
  | .rows test => test.tagLists
  | .intersect left right | .union left right => left.tagLists ++ right.tagLists

theorem RowTest.tagLists_join : (RowTest.join junction left right).tagLists =
    left.tagLists ++ right.tagLists := by
  cases junction <;> rfl

theorem Plan.tagLists_combine {left right : Plan} : (Plan.combine junction left right).tagLists =
    left.tagLists ++ right.tagLists := by
  cases junction <;> rfl

/-- Tests of single tags look for some tag. -/
theorem RowTest.ne_nil_of_tagTests? (tests : test.tagTests? junction = some (presence, names))
    (inside : ∀ names ∈ test.tagLists, names ≠ []) : names ≠ [] := by
  cases test with
  | has path =>
      rw [tagTests?, Option.ite_none_right_eq_some] at tests
      obtain ⟨_, rfl⟩ := Prod.mk.inj (Option.some.inj tests.2)
      exact List.cons_ne_nil _ _
  | missing path =>
      rw [tagTests?, Option.ite_none_right_eq_some] at tests
      obtain ⟨_, rfl⟩ := Prod.mk.inj (Option.some.inj tests.2)
      exact List.cons_ne_nil _ _
  | tags own presence names =>
      rw [tagTests?, Option.ite_none_right_eq_some] at tests
      obtain ⟨_, rfl⟩ := Prod.mk.inj (Option.some.inj tests.2)
      exact inside names List.mem_cons_self
  | _ => exact nomatch tests

theorem Plan.ne_nil_of_join {left right : Plan} (leftInside : ∀ names ∈ left.tagLists, names ≠ [])
    (rightInside : ∀ names ∈ right.tagLists, names ≠ []) :
    ∀ names ∈ (Plan.join junction left right).tagLists, names ≠ [] := by
  refine join_cases (motive := fun left right both => (∀ names ∈ left.tagLists ++ right.tagLists, names ≠ []) →
    ∀ names ∈ both.tagLists, names ≠ []) ?_ ?_ ?_ left right (List.forall_mem_append.mpr ⟨leftInside, rightInside⟩)
  · intro left right presence names more isLeft _ inside
    have some := RowTest.ne_nil_of_tagTests? isLeft (List.forall_mem_append.mp inside).1
    simpa [tagLists, RowTest.tagLists] using fun none => absurd none some
  · intro left right _ _ inside
    rwa [tagLists, RowTest.tagLists_join]
  · intro left right inside
    rwa [tagLists_combine]

/-- No test of a plan looks for no tags. -/
theorem Plan.ne_nil_of_mem_tagLists (condition : Condition) :
    ∀ names ∈ (Plan.ofCondition condition).tagLists, names ≠ [] := by
  induction condition with
  | has path => exact fun _ member => nomatch member
  | missing path => exact fun _ member => nomatch member
  | compare comparison path value => exact fun _ member => nomatch member
  | and left right leftIh rightIh => exact ne_nil_of_join leftIh rightIh
  | or left right leftIh rightIh => exact ne_nil_of_join leftIh rightIh

/-- The tags that a test looks for, those of its paths included. -/
def RowTest.tagNames : RowTest → List String
  | .has path | .missing path | .compare _ path _ => path.segments
  | .tags _ _ names => names
  | .and left right | .or left right => left.tagNames ++ right.tagNames

def Plan.tagNames : Plan → List String
  | .rows test => test.tagNames
  | .intersect left right | .union left right => left.tagNames ++ right.tagNames

theorem RowTest.tagNames_of_tagTests? (tests : test.tagTests? junction = some (presence, names)) :
    test.tagNames = names := by
  cases test with
  | has path =>
      rw [tagTests?, Option.ite_none_right_eq_some] at tests
      obtain ⟨_, rfl⟩ := Prod.mk.inj (Option.some.inj tests.2)
      rw [RowTest.tagNames, eq_of_isSimple tests.1]
      rfl
  | missing path =>
      rw [tagTests?, Option.ite_none_right_eq_some] at tests
      obtain ⟨_, rfl⟩ := Prod.mk.inj (Option.some.inj tests.2)
      rw [RowTest.tagNames, eq_of_isSimple tests.1]
      rfl
  | tags own presence names =>
      rw [tagTests?, Option.ite_none_right_eq_some] at tests
      exact (Prod.mk.inj (Option.some.inj tests.2)).2
  | _ => exact nomatch tests

theorem Plan.tagNames_combine {left right : Plan} : (Plan.combine junction left right).tagNames =
    left.tagNames ++ right.tagNames := by
  cases junction <;> rfl

theorem Plan.tagNames_join (left right : Plan) : (Plan.join junction left right).tagNames =
    left.tagNames ++ right.tagNames := by
  refine join_cases (motive := fun left right both => both.tagNames = left.tagNames ++ right.tagNames) ?_ ?_
    (fun _ _ => tagNames_combine) left right
  · intro left right presence names more isLeft isRight
    exact congrArg₂ (· ++ ·) (RowTest.tagNames_of_tagTests? isLeft).symm
      (RowTest.tagNames_of_tagTests? isRight).symm
  · intro left right _ _
    cases junction <;> rfl

/-- A plan looks for the tags of the paths of its condition, in their order. -/
theorem Plan.tagNames_ofCondition (condition : Condition) :
    (Plan.ofCondition condition).tagNames = condition.paths.flatMap (·.segments) := by
  induction condition with
  | has path => exact (List.flatMap_singleton ..).symm
  | missing path => exact (List.flatMap_singleton ..).symm
  | compare comparison path value => exact (List.flatMap_singleton ..).symm
  | and left right leftIh rightIh =>
      rw [ofCondition, tagNames_join, leftIh, rightIh, Condition.paths, List.flatMap_append]
  | or left right leftIh rightIh =>
      rw [ofCondition, tagNames_join, leftIh, rightIh, Condition.paths, List.flatMap_append]

theorem subset_of_mem_append {lists others : List (List String)}
    (first : ∀ list ∈ lists, list ⊆ names) (second : ∀ list ∈ others, list ⊆ more) :
    ∀ list ∈ lists ++ others, list ⊆ names ++ more :=
  List.forall_mem_append.mpr
    ⟨fun list member => List.subset_append_of_subset_left more (first list member),
      fun list member => List.subset_append_of_subset_right names (second list member)⟩

theorem RowTest.subset_tagNames : ∀ names ∈ test.tagLists, names ⊆ test.tagNames := by
  induction test with
  | tags own presence names => exact fun _ member => List.mem_singleton.mp member ▸ List.Subset.refl names
  | and left right leftIh rightIh => exact subset_of_mem_append leftIh rightIh
  | or left right leftIh rightIh => exact subset_of_mem_append leftIh rightIh
  | _ => exact fun _ member => nomatch member

theorem Plan.subset_tagNames {plan : Plan} : ∀ names ∈ plan.tagLists, names ⊆ plan.tagNames := by
  induction plan with
  | rows test => exact RowTest.subset_tagNames
  | intersect left right leftIh rightIh => exact subset_of_mem_append leftIh rightIh
  | union left right leftIh rightIh => exact subset_of_mem_append leftIh rightIh

/-- The tags of a filter that is read are identifiers, in which there are no quotes. -/
theorem Plan.quoteless_of_read {text : String} {filter : Filter} {condition : Condition}
    (read : Filter.read text = .ok filter) (isCondition : filter.condition = .ok condition) :
    ∀ name ∈ (Plan.ofCondition condition).tagNames, '\'' ∉ name.toList := by
  obtain ⟨denoted, rfl, isDenoted⟩ := Filter.isDenoted_of_read read
  obtain rfl := Except.ok.inj (denoted.condition_filter.symm.trans isCondition)
  intro name member
  rw [tagNames_ofCondition, List.mem_flatMap] at member
  obtain ⟨path, inPaths, inPath⟩ := member
  exact Filter.not_mem_of_isName ((isDenoted.named path inPaths).names name inPath)

/-- The tests of tags in the plan of a filter that is read look for one tag or more, whose names have
no quotes in them. -/
theorem Plan.exists_of_read {text : String} {filter : Filter} (read : Filter.read text = .ok filter) :
    ∃ condition, filter.condition = .ok condition ∧
      ∀ names ∈ (Plan.ofCondition condition).tagLists, names ≠ [] ∧ ∀ name ∈ names, '\'' ∉ name.toList := by
  obtain ⟨condition, rfl, _⟩ := Filter.isDenoted_of_read read
  have isCondition := condition.condition_filter
  exact ⟨condition, isCondition, fun names member => ⟨ne_nil_of_mem_tagLists _ names member,
    fun name inNames => quoteless_of_read read isCondition name (subset_tagNames names member inNames)⟩⟩

/-- A tree of tests of single tags, all joined alike and all for tags that are there, or for tags that
are not. -/
inductive TagTree (junction : Junction) (presence : Presence) : Filter → List String → Prop where
  | path (name : String) (isPresent : presence = .present) :
      TagTree junction presence (.path ⟨[name]⟩) [name]
  | has (name : String) (isPresent : presence = .present) :
      TagTree junction presence (.has (.path ⟨[name]⟩)) [name]
  | missing (name : String) (isAbsent : presence = .absent) :
      TagTree junction presence (.missing (.path ⟨[name]⟩)) [name]
  | and {left right : Filter} {names more : List String} (isAll : junction = .all)
      (first : TagTree junction presence left names) (second : TagTree junction presence right more) :
      TagTree junction presence (.and left right) (names ++ more)
  | or {left right : Filter} {names more : List String} (isAny : junction = .any)
      (first : TagTree junction presence left names) (second : TagTree junction presence right more) :
      TagTree junction presence (.or left right) (names ++ more)

theorem Plan.join_of_tagTests? (isLeft : left.tagTests? junction = some (presence, names))
    (isRight : right.tagTests? junction = some (presence, more)) :
    Plan.join junction (.rows left) (.rows right) = .rows (.tags junction presence (names ++ more)) := by
  have merged := RowTest.merge?_eq_some_iff.mpr ⟨presence, names, more, isLeft, isRight, rfl⟩
  simp only [join, merged]

/-- The plan of a tree of tests of tags is one test of them. A single tag keeps its own test. -/
theorem TagTree.exists_plan {filter : Filter} (tree : TagTree junction presence filter names) :
    ∃ condition test, filter.condition = .ok condition ∧
      Plan.ofCondition condition = .rows test ∧
      test.tagTests? junction = some (presence, names) ∧
      (2 ≤ names.length → test = .tags junction presence names) := by
  induction tree with
  | path name isPresent =>
      exact ⟨_, _, rfl, rfl, by rw [isPresent]; rfl, fun many => absurd many (by simp)⟩
  | has name isPresent =>
      exact ⟨_, _, rfl, rfl, by rw [isPresent]; rfl, fun many => absurd many (by simp)⟩
  | missing name isAbsent =>
      exact ⟨_, _, rfl, rfl, by rw [isAbsent]; rfl, fun many => absurd many (by simp)⟩
  | and isAll first second firstIh secondIh =>
      obtain rfl := isAll
      obtain ⟨left, leftTest, isLeft, leftPlan, leftTags, _⟩ := firstIh
      obtain ⟨right, rightTest, isRight, rightPlan, rightTags, _⟩ := secondIh
      refine ⟨.and left right, .tags .all presence _, ?_, ?_, rfl, fun _ => rfl⟩
      · rw [Filter.condition, isLeft, isRight]
        rfl
      · rw [Plan.ofCondition, leftPlan, rightPlan, Plan.join_of_tagTests? leftTags rightTags]
  | or isAny first second firstIh secondIh =>
      obtain rfl := isAny
      obtain ⟨left, leftTest, isLeft, leftPlan, leftTags, _⟩ := firstIh
      obtain ⟨right, rightTest, isRight, rightPlan, rightTags, _⟩ := secondIh
      refine ⟨.or left right, .tags .any presence _, ?_, ?_, rfl, fun _ => rfl⟩
      · rw [Filter.condition, isLeft, isRight]
        rfl
      · rw [Plan.ofCondition, leftPlan, rightPlan, Plan.join_of_tagTests? leftTags rightTags]

end Haystack.Sql
