import Haystack.Proofs.Sql.Truth

/-!
Selects in layers: intersections and unions outside, conditions inside.

Conditions and selects could be nodes of one tree, and joining two trees would have to take care that
no select gets inside a condition, where no statement can say it, and no test that follows a path gets
beside another, where its rows would be taken for those of both. Joined node by node, the trees are
those of plans, whose types keep the layers apart.
-/
namespace Haystack.Sql

/-- Conditions of a select, and selects that are intersected or united. -/
inductive Node where
  | has (path : Path)
  | missing (path : Path)
  | tags (junction : Junction) (presence : Presence) (names : List String)
  | compare (comparison : Comparison) (path : Path) (literal : Value)
  | and (left right : Node)
  | or (left right : Node)
  | intersect (left right : Node)
  | union (left right : Node)

namespace Node

def isCompound : Node → Bool
  | .intersect _ _ | .union _ _ => true
  | _ => false

def followsPath : Node → Bool
  | .has path | .missing path | .compare _ path _ => !path.isSimple
  | _ => false

def tagTests? (junction : Junction) : Node → Option (Presence × List String)
  | .has path => if path.isSimple then some (.present, [path.head]) else none
  | .missing path => if path.isSimple then some (.absent, [path.head]) else none
  | .tags own presence names => if own = junction then some (presence, names) else none
  | _ => none

def merge? (junction : Junction) (left right : Node) : Option Node :=
  match left.tagTests? junction, right.tagTests? junction with
  | some (presence, names), some (other, more) =>
      if presence = other then some (.tags junction presence (names ++ more)) else none
  | _, _ => none

/-- Whether a node needs a select of its own. -/
def stands (node : Node) : Bool := node.followsPath || node.isCompound

def combine : Junction → Node → Node → Node
  | .all, left, right => .intersect left right
  | .any, left, right => .union left right

def connect : Junction → Node → Node → Node
  | .all, left, right => .and left right
  | .any, left, right => .or left right

def join (junction : Junction) (left right : Node) : Node :=
  match left.merge? junction right with
  | some merged => merged
  | none => if left.stands || right.stands then combine junction left right else connect junction left right

def ofCondition : Condition → Node
  | .has path => .has path
  | .missing path => .missing path
  | .compare comparison path literal => .compare comparison path literal
  | .and left right => join .all (ofCondition left) (ofCondition right)
  | .or left right => join .any (ofCondition left) (ofCondition right)

/-- A condition that one select can test: no select is inside, and only a condition by itself follows a
path. -/
def IsTest : Node → Prop
  | .and left right | .or left right =>
      left.IsTest ∧ right.IsTest ∧ left.followsPath = false ∧ right.followsPath = false
  | .intersect _ _ | .union _ _ => False
  | _ => True

/-- Intersections and unions of conditions that one select each can test. -/
def IsLayered : Node → Prop
  | .intersect left right | .union left right => left.IsLayered ∧ right.IsLayered
  | node => node.IsTest

variable {junction : Junction} {left right merged node : Node}

/-! ## Layers -/

theorem IsLayered.isTest (layered : node.IsLayered) (single : node.isCompound = false) : node.IsTest := by
  cases node with
  | intersect left right => cases single
  | union left right => cases single
  | _ => exact layered

theorem isLayered_combine (first : left.IsLayered) (second : right.IsLayered) :
    (combine junction left right).IsLayered := by
  cases junction <;> exact ⟨first, second⟩

theorem isLayered_connect (first : left.IsTest) (second : right.IsTest) (firstStays : left.followsPath = false)
    (secondStays : right.followsPath = false) : (connect junction left right).IsLayered := by
  cases junction <;> exact ⟨first, second, firstStays, secondStays⟩

theorem isLayered_of_merge? (made : merge? junction left right = some merged) : merged.IsLayered := by
  unfold merge? at made
  split at made
  · rw [Option.ite_none_right_eq_some] at made
    exact Option.some.inj made.2 ▸ trivial
  · cases made

theorem isLayered_join (first : left.IsLayered) (second : right.IsLayered) :
    (join junction left right).IsLayered := by
  unfold join
  split
  · next made => exact isLayered_of_merge? made
  · split
    · exact isLayered_combine first second
    · next stay =>
      simp only [stands, Bool.or_eq_true, not_or, Bool.not_eq_true] at stay
      exact isLayered_connect (first.isTest stay.1.2) (second.isTest stay.2.2) stay.1.1 stay.2.1

/-- No select gets inside a condition. -/
theorem isLayered_ofCondition (condition : Condition) : (ofCondition condition).IsLayered := by
  induction condition with
  | and left right leftIh rightIh => exact isLayered_join leftIh rightIh
  | or left right leftIh rightIh => exact isLayered_join leftIh rightIh
  | _ => trivial

end Node

/-! ## Plans as nodes -/

def RowTest.node : RowTest → Node
  | .has path => .has path
  | .missing path => .missing path
  | .tags junction presence names => .tags junction presence names
  | .compare comparison path literal => .compare comparison path literal
  | .and left right => .and left.node right.node
  | .or left right => .or left.node right.node

def Plan.node : Plan → Node
  | .rows test => test.node
  | .intersect left right => .intersect left.node right.node
  | .union left right => .union left.node right.node

section Plans

variable {junction : Junction}

theorem RowTest.tagTests?_node (test : RowTest) : test.node.tagTests? junction = test.tagTests? junction := by
  cases test <;> rfl

theorem RowTest.stands_node (test : RowTest) : test.node.stands = test.followsPath := by
  cases test <;> simp [Node.stands, node, Node.followsPath, Node.isCompound, followsPath]

theorem RowTest.merge?_node (left right : RowTest) :
    Node.merge? junction left.node right.node = (merge? junction left right).map node := by
  unfold Node.merge? merge?
  rw [tagTests?_node, tagTests?_node]
  rcases left.tagTests? junction with _ | ⟨presence, names⟩
  · rfl
  · rcases right.tagTests? junction with _ | ⟨other, more⟩
    · rfl
    · by_cases same : presence = other <;> simp [same, node]

theorem Node.tagTests?_of_isCompound {node : Node} (compound : node.isCompound = true) :
    node.tagTests? junction = none := by
  cases node with
  | intersect | union => rfl
  | _ => cases compound

/-- Selects are joined to selects or conditions by intersections and unions only. -/
theorem Node.join_of_isCompound {left right : Node} (compound : left.isCompound = true ∨ right.isCompound = true) :
    Node.join junction left right = Node.combine junction left right := by
  have alone : Node.merge? junction left right = none := by
    unfold Node.merge?
    rcases compound with isLeft | isRight
    · rw [tagTests?_of_isCompound isLeft]
    · rw [tagTests?_of_isCompound isRight]
      rcases left.tagTests? junction with _ | _ <;> rfl
  have stand : (left.stands || right.stands) = true := by
    rcases compound with isLeft | isRight
    · simp [Node.stands, isLeft]
    · simp [Node.stands, isRight]
  rw [Node.join, alone]
  exact if_pos stand

theorem Plan.node_combine (left right : Plan) :
    (combine junction left right).node = Node.combine junction left.node right.node := by
  cases junction <;> rfl

theorem Plan.node_join (left right : Plan) :
    (join junction left right).node = Node.join junction left.node right.node := by
  cases left with
  | rows a =>
      cases right with
      | rows b =>
          simp only [join, node, Node.join, RowTest.merge?_node, RowTest.stands_node]
          cases RowTest.merge? junction a b with
          | some merged => rfl
          | none =>
              simp only [Option.map_none]
              split
              · exact node_combine (.rows a) (.rows b)
              · cases junction <;> rfl
      | intersect | union => rw [Node.join_of_isCompound (.inr rfl), ← node_combine]; rfl
  | intersect | union => rw [Node.join_of_isCompound (.inl rfl), ← node_combine]; rfl

/-- A plan is its condition joined node by node. -/
theorem Plan.node_ofCondition (condition : Condition) :
    (ofCondition condition).node = Node.ofCondition condition := by
  induction condition with
  | and left right leftIh rightIh => rw [ofCondition, node_join, leftIh, rightIh, Node.ofCondition]
  | or left right leftIh rightIh => rw [ofCondition, node_join, leftIh, rightIh, Node.ofCondition]
  | _ => rfl

end Plans

end Haystack.Sql
