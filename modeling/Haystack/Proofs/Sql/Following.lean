import Haystack.Proofs.Sql.Entities

/-!
Conditions on what is there, when all paths have to be followed.

A path is followed from row to row up to its last tag, which is then there or not. Where that is asked
of the paths of a condition, tests that tags are missing included, it is asked of those of its plan, and
each select of the plan asks about the keys of one row that tags lead to.
-/
namespace Haystack

/-! ## Paths -/

/-- The tags that lead from row to row. -/
def Path.steps (path : Path) : List String := path.segments.dropLast

/-- The tag that is tested. -/
def Path.last (path : Path) : String := path.segments.getLastD ""

namespace GridOf

/-- The entity that tags lead to, one after the other. -/
def followAll (grid : Grid) (entity : Entity) : List String → Option Entity
  | [] => some entity
  | name :: rest => (grid.follow entity name).bind fun next => followAll grid next rest

variable {grid : Grid} {row next : Entity} {tag : String} {tags : List String}

theorem mem_of_follow (flat : grid.IsFlat) (member : row ∈ grid.rows) (leads : grid.follow row tag = some next) :
    next ∈ grid.rows := by
  unfold follow at leads
  split at leads
  · exact (mem_of_rowNamed? leads).1
  · next found => exact nomatch (flat.rows row member).single _ (OrderedMap.mem_values_of_get? found)
  · exact nomatch leads

theorem resolveNames_eq (flat : grid.IsFlat) (member : row ∈ grid.rows) (some : tags ≠ []) :
    grid.resolveNames row tags = (grid.followAll row tags.dropLast).bind (·.get? (tags.getLastD "")) := by
  induction tags generalizing row with
  | nil => exact absurd rfl some
  | cons tag tags ih =>
      cases tags with
      | nil =>
          have single (value : Value) (found : row.get? tag = .some value) : value.isNull = false := by
            have isSingle := (flat.rows row member).single _ (OrderedMap.mem_values_of_get? found)
            cases value <;> first | rfl | exact nomatch isSingle
          show (row.get? tag).filter _ = row.get? tag
          cases found : row.get? tag with
          | none => rfl
          | some value => simp [single value found]
      | cons next tags =>
          show (grid.follow row tag).bind _ = ((grid.follow row tag).bind _).bind _
          cases leads : grid.follow row tag with
          | none => rfl
          | some other => exact ih (mem_of_follow flat member leads) (List.cons_ne_nil _ _)

end GridOf

/-! ## Conditions -/

namespace Condition

/-- The condition compares nothing. -/
def IsPresence : Condition → Prop
  | .has _ | .missing _ => True
  | .compare _ _ _ => False
  | .and left right | .or left right => left.IsPresence ∧ right.IsPresence

/-- Tags are missed in the row itself, not where a path leads. -/
def MissesTags : Condition → Prop
  | .has _ | .compare _ _ _ => True
  | .missing path => path.isSimple = true
  | .and left right | .or left right => left.MissesTags ∧ right.MissesTags

/-- Whether a condition on what is there holds, if all paths have to be followed to their last tags. -/
def follows (grid : Grid) (row : Entity) : Condition → Bool
  | .has path => (grid.followAll row path.steps).any (·.contains path.last)
  | .missing path => (grid.followAll row path.steps).any (!·.contains path.last)
  | .compare _ _ _ => false
  | .and left right => left.follows grid row && right.follows grid row
  | .or left right => left.follows grid row || right.follows grid row

variable {grid : Grid} {row : Entity} {condition : Condition}

theorem isSome_resolve (flat : grid.IsFlat) (member : row ∈ grid.rows) {path : Path} (some : path.segments ≠ []) :
    (grid.resolve row path).isSome = (grid.followAll row path.steps).any (·.contains path.last) := by
  rw [GridOf.resolve, GridOf.resolveNames_eq flat member some, Path.steps]
  cases grid.followAll row path.segments.dropLast <;> rfl

theorem holds_of_follows (flat : grid.IsFlat) (member : row ∈ grid.rows)
    (some : ∀ path ∈ condition.paths, path.segments ≠ []) (follows : condition.follows grid row = true) :
    condition.holds grid row = true := by
  induction condition with
  | has path => rwa [holds, isSome_resolve flat member (some path List.mem_cons_self)]
  | missing path =>
      have absent := isSome_resolve flat member (some path List.mem_cons_self)
      rw [holds, ← Option.not_isSome, absent]
      unfold Condition.follows at follows
      cases leads : grid.followAll row path.steps with
      | none => rfl
      | some entity => rwa [leads] at follows
  | compare comparison path literal => exact nomatch follows
  | and left right leftIh rightIh =>
      obtain ⟨onLeft, onRight⟩ := List.forall_mem_append.mp some
      obtain ⟨isLeft, isRight⟩ := Bool.and_eq_true_iff.mp follows
      rw [holds, leftIh onLeft isLeft, rightIh onRight isRight]
      rfl
  | or left right leftIh rightIh =>
      obtain ⟨onLeft, onRight⟩ := List.forall_mem_append.mp some
      rw [holds, Bool.or_eq_true]
      exact (Bool.or_eq_true_iff.mp follows).imp (leftIh onLeft) (rightIh onRight)

theorem follows_of_holds (flat : grid.IsFlat) (member : row ∈ grid.rows)
    (some : ∀ path ∈ condition.paths, path.segments ≠ []) (presence : condition.IsPresence)
    (misses : condition.MissesTags) (holds : condition.holds grid row = true) : condition.follows grid row = true := by
  induction condition with
  | has path => rwa [Condition.holds, isSome_resolve flat member (some path List.mem_cons_self)] at holds
  | missing path =>
      have absent := isSome_resolve flat member (some path List.mem_cons_self)
      rw [Condition.holds, ← Option.not_isSome, absent] at holds
      rw [Sql.eq_of_isSimple misses] at holds ⊢
      exact holds
  | compare comparison path literal => exact presence.elim
  | and left right leftIh rightIh =>
      obtain ⟨onLeft, onRight⟩ := List.forall_mem_append.mp some
      obtain ⟨isLeft, isRight⟩ := Bool.and_eq_true_iff.mp holds
      rw [follows, leftIh onLeft presence.1 misses.1 isLeft, rightIh onRight presence.2 misses.2 isRight]
      rfl
  | or left right leftIh rightIh =>
      obtain ⟨onLeft, onRight⟩ := List.forall_mem_append.mp some
      rw [follows, Bool.or_eq_true]
      exact (Bool.or_eq_true_iff.mp holds).imp (leftIh onLeft presence.1 misses.1) (rightIh onRight presence.2 misses.2)

end Condition

namespace Sql

/-! ## Plans -/

namespace RowTest

/-- The test looks for tags of the row itself. -/
def IsLocal : RowTest → Prop
  | .has path | .missing path => path.isSimple = true
  | .tags _ _ names => names ≠ []
  | .compare _ _ _ => False
  | .and left right | .or left right => left.IsLocal ∧ right.IsLocal

def follows (grid : Grid) (row : Entity) : RowTest → Bool
  | .has path => (grid.followAll row path.steps).any (·.contains path.last)
  | .missing path => (grid.followAll row path.steps).any (!·.contains path.last)
  | .tags junction presence names => tagsHold row.contains names junction presence
  | .compare _ _ _ => false
  | .and left right => left.follows grid row && right.follows grid row
  | .or left right => left.follows grid row || right.follows grid row

end RowTest

namespace Plan

/-- Each select tests tags of its row, or follows one path. -/
def IsPresence : Plan → Prop
  | .rows test => test.IsLocal ∨ ∃ path, test = .has path ∨ test = .missing path
  | .intersect left right | .union left right => left.IsPresence ∧ right.IsPresence

def follows (grid : Grid) (row : Entity) : Plan → Bool
  | .rows test => test.follows grid row
  | .intersect left right => left.follows grid row && right.follows grid row
  | .union left right => left.follows grid row || right.follows grid row

end Plan

section Plans

variable {grid : Grid} {row : Entity} {junction : Junction} {presence : Presence} {names : List String}

theorem RowTest.follows_of_tagTests? {test : RowTest} (tests : test.tagTests? junction = some (presence, names)) :
    test.follows grid row = tagsHold row.contains names junction presence := by
  cases test with
  | has path | missing path =>
      rw [tagTests?, Option.ite_none_right_eq_some] at tests
      obtain ⟨simple, same⟩ := tests
      obtain ⟨rfl, rfl⟩ := Prod.mk.inj (Option.some.inj same)
      rw [eq_of_isSimple simple]
      cases junction <;> simp [follows, tagsHold, Path.steps, Path.last, Path.head, GridOf.followAll]
  | tags own presence names =>
      rw [tagTests?, Option.ite_none_right_eq_some] at tests
      obtain ⟨rfl, same⟩ := tests
      obtain ⟨rfl, rfl⟩ := Prod.mk.inj (Option.some.inj same)
      rfl
  | _ => simp [tagTests?] at tests

theorem RowTest.isLocal_of_not_followsPath {test : RowTest}
    (single : test.IsLocal ∨ ∃ path, test = .has path ∨ test = .missing path) (noPath : test.followsPath = false) :
    test.IsLocal := by
  rcases single with isLocal | ⟨path, rfl | rfl⟩
  · exact isLocal
  · simpa [RowTest.IsLocal, followsPath] using noPath
  · simpa [RowTest.IsLocal, followsPath] using noPath

theorem RowTest.ne_nil_of_isLocal {test : RowTest}
    (single : test.IsLocal ∨ ∃ path, test = .has path ∨ test = .missing path)
    (tests : test.tagTests? junction = some (presence, names)) : names ≠ [] := by
  refine ne_nil_of_tagTests? tests fun names member => ?_
  cases test with
  | tags own presence names =>
      obtain rfl := List.mem_singleton.mp member
      rcases single with isLocal | ⟨_, isPath | isPath⟩
      · exact isLocal
      · exact nomatch isPath
      · exact nomatch isPath
  | and left right => exact nomatch tests
  | or left right => exact nomatch tests
  | _ => exact nomatch member

theorem Plan.follows_join (left right : Plan) : (Plan.join junction left right).follows grid row =
    junction.apply (left.follows grid row) (right.follows grid row) := by
  refine join_cases (motive := fun left right both =>
    both.follows grid row = junction.apply (left.follows grid row) (right.follows grid row)) ?_ ?_ ?_ left right
  · intro left right presence names more isLeft isRight
    rw [follows, follows, follows, RowTest.follows_of_tagTests? isLeft, RowTest.follows_of_tagTests? isRight,
      RowTest.follows, tagsHold_append]
  · intro left right _ _
    cases junction <;> rfl
  · intro left right
    cases junction <;> rfl

theorem Plan.isPresence_join {left right : Plan} (isLeft : left.IsPresence) (isRight : right.IsPresence) :
    (Plan.join junction left right).IsPresence := by
  refine join_cases (motive := fun left right both => left.IsPresence → right.IsPresence → both.IsPresence)
    ?_ ?_ ?_ left right isLeft isRight
  · intro left right presence names more tests _ isLeft _
    exact .inl fun none => RowTest.ne_nil_of_isLocal isLeft tests (List.append_eq_nil_iff.mp none).1
  · intro left right first second isLeft isRight
    have both := And.intro (RowTest.isLocal_of_not_followsPath isLeft first)
      (RowTest.isLocal_of_not_followsPath isRight second)
    cases junction <;> exact .inl both
  · intro left right isLeft isRight
    cases junction <;> exact ⟨isLeft, isRight⟩

/-- The plan of a condition on what is there follows the same paths. -/
theorem Plan.follows_ofCondition {condition : Condition} (isPresence : condition.IsPresence) :
    (Plan.ofCondition condition).IsPresence ∧
      ∀ grid row, (Plan.ofCondition condition).follows grid row = condition.follows grid row := by
  induction condition with
  | has path => exact ⟨.inr ⟨path, .inl rfl⟩, fun _ _ => rfl⟩
  | missing path => exact ⟨.inr ⟨path, .inr rfl⟩, fun _ _ => rfl⟩
  | compare comparison path literal => exact isPresence.elim
  | and left right leftIh rightIh | or left right leftIh rightIh =>
      obtain ⟨isLeft, leftFollows⟩ := leftIh isPresence.1
      obtain ⟨isRight, rightFollows⟩ := rightIh isPresence.2
      refine ⟨isPresence_join isLeft isRight, fun grid row => ?_⟩
      rw [ofCondition, follows_join, leftFollows, rightFollows]
      rfl

end Plans

/-! ## Tests -/

/-- The row at the end of tags from a row, when the numbers up to `used` are taken. -/
def endRow (row used : Nat) (steps : List String) : Nat := if steps.isEmpty then row else used + steps.length

section Tests

variable {test : RowTest}

theorem prepare_of_isLocal (isLocal : test.IsLocal) (row used : Nat) : ∃ made,
    prepare row used test = .ok ⟨[], made, used⟩ ∧ made.Asks row ∧
      ∀ (grid : Grid) (entity : Entity), test.follows grid entity = made.holds entity.contains := by
  induction test with
  | has path =>
      rw [eq_of_isSimple isLocal]
      exact ⟨.present ⟨row, path.head⟩, rfl, rfl, fun _ _ => rfl⟩
  | missing path =>
      rw [eq_of_isSimple isLocal]
      exact ⟨.absent ⟨row, path.head⟩, rfl, rfl, fun _ _ => rfl⟩
  | tags junction presence names => exact ⟨.tags row junction presence names, rfl, ⟨rfl, isLocal⟩, fun _ _ => rfl⟩
  | compare comparison path literal => exact isLocal.elim
  | and left right leftIh rightIh | or left right leftIh rightIh =>
      obtain ⟨first, isFirst, asksFirst, followsFirst⟩ := leftIh isLocal.1
      obtain ⟨second, isSecond, asksSecond, followsSecond⟩ := rightIh isLocal.2
      refine ⟨_, (Outcome.bind_ok isFirst).trans (Outcome.bind_ok isSecond), ⟨asksFirst, asksSecond⟩,
        fun grid entity => ?_⟩
      rw [RowTest.follows, followsFirst, followsSecond, Test.holds]

/-- A test in a select is one of the keys of the row that some tags lead to. -/
theorem exists_prepare (single : test.IsLocal ∨ ∃ path, test = .has path ∨ test = .missing path) (first : Nat) :
    ∃ steps made used, prepare first first test = .ok ⟨joinsAlong first (first + 1) steps, made, used⟩ ∧
      made.Asks (endRow first first steps) ∧ ∀ (grid : Grid) (entity : Entity), test.follows grid entity =
        (grid.followAll entity steps).any fun last => made.holds last.contains := by
  rcases single with isLocal | ⟨path, rfl | rfl⟩
  · obtain ⟨made, isMade, asks, follows⟩ := prepare_of_isLocal isLocal first first
    exact ⟨[], made, first, isMade, asks, follows⟩
  · exact ⟨path.steps, .present ⟨endRow first first path.steps, path.last⟩, _, rfl, rfl, fun _ _ => rfl⟩
  · exact ⟨path.steps, .absent ⟨endRow first first path.steps, path.last⟩, _, rfl, rfl, fun _ _ => rfl⟩

end Tests

end Sql

end Haystack
