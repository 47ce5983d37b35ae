import Haystack.Json.Text
import Haystack.Proofs.Sql.Conditions
import Haystack.Proofs.Sql.Truth

/-!
What the statements of PostgreSQL select.

A select goes over the rows of its table, each with every choice of rows to join to it that are as
joined, and selects the entity of a row where its condition holds. A condition is true, false or, where
it depends on what is not there, unknown; it holds if it is true. The tests of several keys are those
of binary JSON objects. What is read in no other way is unknown.
-/
namespace Haystack.Sql

open Json (Tree)

/-! ## Truth values -/

/-- A truth value may be unknown. -/
abbrev Verdict := Option Bool

namespace Verdict

def not (a : Verdict) : Verdict := Option.map Bool.not a

def and : Verdict → Verdict → Verdict
  | some true, b => b
  | some false, _ => some false
  | none, some false => some false
  | none, _ => none

def or (a b : Verdict) : Verdict := (a.not.and b.not).not

@[simp] theorem true_and (a : Verdict) : and (some true) a = a := rfl

@[simp] theorem and_true (a : Verdict) : a.and (some true) = a := by
  rcases a with _ | _ | _ <;> rfl

@[simp] theorem or_false (a : Verdict) : a.or (some false) = a := by
  rcases a with _ | _ | _ <;> rfl

@[simp] theorem and_some (a b : Bool) : and (some a) (some b) = some (a && b) := by
  cases a <;> rfl

@[simp] theorem or_some (a b : Bool) : or (some a) (some b) = some (a || b) := by
  cases a <;> cases b <;> rfl

end Verdict

/-! ## Values -/

/-- A JSON value as text. -/
def content? : Tree → Option String
  | .null => none
  | .string text => some text
  | tree => some tree.print

/-- A row of the table of entities. -/
structure Stored where
  customer : String
  /-- Whether the row begins by the moment that a text denotes. -/
  begins : String → Bool
  /-- Whether the row does not end before the moment that a text denotes. -/
  lasts : String → Bool
  entity : Tree

namespace Stored

def member? (stored : Stored) (tag : String) : Option Tree := stored.entity.object?.bind (·.get? tag)

def hasKey (stored : Stored) (tag : String) : Bool := (stored.member? tag).isSome

/-- A member as text: a string without its quotes. -/
def text? (stored : Stored) (tag : String) : Option String := (stored.member? tag).bind content?

end Stored

/-- The rows that names stand for. -/
structure Named where
  find? : String → Option Stored

def firstWord (text : String) : String := String.ofList (text.toList.takeWhile (· != ' '))

/-- The keys of an array, after its opening bracket. -/
def keys? : List Item → Option (List String)
  | [.literal key, .sign ']'] => some [key]
  | .literal key :: .sign ',' :: rest => (keys? rest).map (key :: ·)
  | _ => none

/-- What is asked about the keys of an object. -/
def Stored.asked (stored : Stored) : List Item → Verdict
  | [.literal key] => some (stored.hasKey key)
  | .sign '&' :: .word "array" :: .sign '[' :: keys => (keys? keys).map (·.all stored.hasKey)
  | .sign '|' :: .word "array" :: .sign '[' :: keys => (keys? keys).map (·.any stored.hasKey)
  | _ => none

def Item.isSign (sign : Char) : Item → Bool
  | .sign own => own == sign
  | _ => false

namespace Named

/-- No name stands for a row. -/
def empty : Named := ⟨fun _ => none⟩

def add (rows : Named) (name : String) (stored : Stored) : Named :=
  ⟨fun other => if other = name then some stored else rows.find? other⟩

variable (rows : Named)

def column? : List Item → Option String
  | [.literal content] => some content
  | [.word name, .sign '.', .word "customer_id"] => (rows.find? name).map (·.customer)
  | [.word name, .sign '.', .word "entity", .sign '-', .sign '>', .sign '>', .literal tag] =>
      (rows.find? name).bind (·.text? tag)
  | _ => none

def value? : List Item → Option String
  | [.word "split_part", .group arguments] =>
      match cut (Item.isSign ',') arguments with
      | [value, [.literal " "], [.word "1"]] => (column? rows value).map firstWord
      | _ => none
  | items => column? rows items

/-! ## Conditions -/

/-- A condition without parentheses and connectives. -/
def atom : List Item → Verdict
  | [.literal moment, .word "BETWEEN", .word first, .sign '.', .word "start_datetime", .word "AND", .word last,
      .sign '.', .word "end_datetime"] =>
      Verdict.and ((rows.find? first).map (·.begins moment)) ((rows.find? last).map (·.lasts moment))
  | .word name :: .sign '.' :: .word "entity" :: .sign '?' :: asked => (rows.find? name).bind (·.asked asked)
  | items =>
      match cut (Item.isSign '=') items with
      | [left, right] => do
          let left ← value? rows left
          let right ← value? rows right
          some (left == right)
      | _ => none

/-- A part of a condition, where it is known what is in its parentheses. -/
def part : List (Item × Verdict) → Verdict
  | [] => none
  | [(.group _, verdict)] => verdict
  | (item, _) :: rest =>
      if item.isWord "NOT" then (part rest).not else atom rows (item :: rest.map (·.1))

def combine (elements : List (Item × Verdict)) : Verdict :=
  (cut (fun element => element.1.isWord "OR") elements).foldr
    (fun disjunct others => Verdict.or ((conjunctsFrom (·.1) false disjunct).foldr
      (fun conjunct others => Verdict.and (part rows conjunct) others) (some true)) others) (some false)

def judge (items : List Item) : Verdict := combine rows (foldEach none (combine rows) items)

def Satisfies (items : List Item) : Prop := judge rows items = some true

instance (items : List Item) : Decidable (rows.Satisfies items) := inferInstanceAs (Decidable (_ = _))

end Named

/-! ## Selects -/

/-- The rows of each table. -/
abbrev Tables := String → List Stored

/-- Every choice of rows to join, with those that are there already. -/
def joined (tables : Tables) : List Joined → Named → List Named
  | [], rows => [rows]
  | join :: rest, rows =>
      (tables join.table).flatMap fun stored =>
        let rows := rows.add join.name stored
        if rows.Satisfies join.on then joined tables rest rows else []

def Block.entities (tables : Tables) (block : Block) : List Tree :=
  (tables block.table).flatMap fun stored =>
    (joined tables block.joins (Named.empty.add block.name stored)).filterMap fun rows =>
      if rows.Satisfies block.condition then (rows.find? block.selected).map (·.entity) else none

def Reading.Selects (tables : Tables) : Reading → Tree → Prop
  | .block one, entity => entity ∈ one.entities tables
  | .intersect left right, entity => left.Selects tables entity ∧ right.Selects tables entity
  | .union left right, entity => left.Selects tables entity ∨ right.Selects tables entity

/-! ## Reading conditions -/

section Judge

variable {rows : Named} {items others : List Item}

theorem cut_map {α β : Type} (isCut : β → Bool) (f : α → β) (elements : List α) :
    cut isCut (elements.map f) = (cut (isCut ∘ f) elements).map (·.map f) := by
  induction elements with
  | nil => rfl
  | cons a elements ih =>
      rw [List.map_cons, cut, cut, ih, Function.comp_apply]
      split
      · rfl
      · cases cut (isCut ∘ f) elements <;> rfl

theorem conjunctsFrom_map {α β : Type} (item : β → Item) (f : α → β) (between : Bool) (elements : List α) :
    conjunctsFrom item between (elements.map f) = (conjunctsFrom (item ∘ f) between elements).map (·.map f) := by
  induction elements generalizing between with
  | nil => rfl
  | cons a elements ih =>
      rw [List.map_cons, conjunctsFrom, conjunctsFrom, Function.comp_apply, ih]
      split
      · rfl
      · dsimp only
        rw [ih]
        cases conjunctsFrom (item ∘ f) _ elements <;> rfl

/-- What is made of a part, groups taken together first. -/
def Named.conjunct (rows : Named) (items : List Item) : Verdict := rows.part (foldEach none rows.combine items)

/-- A condition is the disjunction of the conjunctions of its parts. -/
theorem Named.judge_eq (rows : Named) (items : List Item) : rows.judge items =
    (disjuncts items).foldr (fun disjunct others => Verdict.or
      ((conjuncts disjunct).foldr (fun conjunct others => (rows.conjunct conjunct).and others) (some true)) others)
      (some false) := by
  have element : (fun element : Item × Verdict => element.1) ∘ (fun item => (item, item.fold none rows.combine)) = id :=
    rfl
  have isOr : (fun element : Item × Verdict => element.1.isWord "OR") ∘
      (fun item => (item, item.fold none rows.combine)) = Item.isWord "OR" := rfl
  rw [judge, foldEach_eq_map, combine, cut_map, isOr, List.foldr_map, ← disjuncts]
  refine congrArg (fun step => List.foldr step _ _) (funext₂ fun disjunct others => ?_)
  rw [conjunctsFrom_map, element, List.foldr_map, ← conjuncts]
  refine congrArg (fun step => Verdict.or (List.foldr step _ _) others) (funext₂ fun part others => ?_)
  rw [conjunct, foldEach_eq_map]

theorem Named.conjunct_group : rows.conjunct [.group items] = rows.judge items := rfl

theorem Named.conjunct_token {token : Token} (noNot : Item.isWord "NOT" (.token token) = false) :
    rows.conjunct (.token token :: items) = rows.atom (.token token :: items) := by
  have atoms : rows.atom (.token token :: (foldEach none rows.combine items).map (·.1)) =
      rows.atom (.token token :: items) := by
    rw [fst_foldEach]
  rw [conjunct, foldEach, part, noNot, if_neg Bool.false_ne_true, atoms]
  simp

theorem Named.conjunct_not : rows.conjunct (.word "NOT" :: items) = (rows.conjunct items).not := rfl

theorem Named.judge_of_whole (noOr : ∀ item ∈ items, item.isWord "OR" = false)
    (noAnd : ∀ item ∈ items, item.isWord "AND" = false) (noBetween : ∀ item ∈ items, item.isWord "BETWEEN" = false) :
    rows.judge items = rows.conjunct items := by
  rw [judge_eq, disjuncts, cut_of_whole noOr, List.foldr_cons, conjuncts_of_whole noAnd noBetween]
  simp

theorem Named.judge_and : rows.judge [.group items, .word "AND", .group others] =
    Verdict.and (rows.judge items) (rows.judge others) := by
  rw [judge_eq]
  show Verdict.or (Verdict.and (rows.conjunct [.group items]) (Verdict.and (rows.conjunct [.group others]) (some true)))
    (some false) = _
  simp only [conjunct_group, Verdict.and_true, Verdict.or_false]

theorem Named.judge_or : rows.judge [.group items, .word "OR", .group others] =
    Verdict.or (rows.judge items) (rows.judge others) := by
  rw [judge_eq]
  show Verdict.or (Verdict.and (rows.conjunct [.group items]) (some true))
    (Verdict.or (Verdict.and (rows.conjunct [.group others]) (some true)) (some false)) = _
  simp only [conjunct_group, Verdict.and_true, Verdict.or_false]

/-! ## Admission -/

variable {source : Source} {row : Nat} {stored : Stored}

/-- The row belongs to the customer and was stored at the instant asked for. -/
structure Stored.IsAdmitted (source : Source) (stored : Stored) : Prop where
  customer : stored.customer = source.customer
  begins : stored.begins source.instantText = true
  lasts : stored.lasts source.instantText = true

theorem Named.conjunct_validity (dialect : source.dialect = .postgres) (found : rows.find? (rowName row) = some stored)
    (admitted : stored.IsAdmitted source) : rows.conjunct (source.validityItems (rowName row)) = some true := by
  rw [Source.validityItems, dialect]
  dsimp only
  rw [conjunct_token rfl, atom, found]
  simp [admitted.begins, admitted.lasts]

theorem Named.conjunct_rowName :
    rows.conjunct (.word (rowName row) :: items) = rows.atom (.word (rowName row) :: items) :=
  conjunct_token (rowName_ne row (by decide))

theorem Named.conjunct_ownership (found : rows.find? (rowName row) = some stored)
    (admitted : stored.IsAdmitted source) : rows.conjunct (source.ownershipItems (rowName row)) = some true := by
  have parts : rows.atom (source.ownershipItems (rowName row)) = (do
      let left ← (rows.find? (rowName row)).map (·.customer)
      some (left == source.customer)) := rfl
  rw [Source.ownershipItems, conjunct_rowName, ← Source.ownershipItems, parts, found]
  simp [admitted.customer]

/-- Where the row is admitted, it is the rest of the condition that counts. -/
theorem Named.judge_admission (dialect : source.dialect = .postgres) (found : rows.find? (rowName row) = some stored)
    (admitted : stored.IsAdmitted source) (noOr : ∀ item ∈ items, item.isWord "OR" = false) :
    rows.judge (source.admissionItems (rowName row) ++ .word "AND" :: items) = rows.judge items := by
  have whole : ∀ item ∈ source.admissionItems (rowName row) ++ .word "AND" :: items, item.isWord "OR" = false :=
    List.forall_mem_append.mpr ⟨noOr_admission row, List.forall_mem_cons.mpr ⟨by decide, noOr⟩⟩
  rw [judge_eq, judge_eq, disjuncts, disjuncts, cut_of_whole whole, cut_of_whole noOr]
  simp [conjuncts_admission, conjunct_validity dialect found admitted, conjunct_ownership found admitted]

/-- Of a disjunction they count only for the first part, but then they hold for both. -/
theorem Named.judge_admission_or (dialect : source.dialect = .postgres)
    (found : rows.find? (rowName row) = some stored) (admitted : stored.IsAdmitted source) :
    rows.judge (source.admissionItems (rowName row) ++ .word "AND" :: [.group items, .word "OR", .group others]) =
      rows.judge [.group items, .word "OR", .group others] := by
  rw [judge_eq, disjuncts_admission_or, judge_or]
  have inner : conjuncts [.group items] = [[.group items]] := rfl
  have second : conjuncts [.group others] = [[.group others]] := rfl
  simp [conjuncts_admission, conjunct_validity dialect found admitted, conjunct_ownership found admitted, inner, second,
    conjunct_group]

end Judge

/-! ## Tests of keys -/

namespace Test

/-- Whether a test of the keys of a row holds. -/
def holds (hasKey : String → Bool) : Test → Bool
  | .present field => hasKey field.tag
  | .absent field => !hasKey field.tag
  | .tags _ junction presence names => tagsHold hasKey names junction presence
  | .equal _ _ _ | .ordered _ _ _ => false
  | .and left right => left.holds hasKey && right.holds hasKey
  | .or left right => left.holds hasKey || right.holds hasKey

/-- The test is one of the keys of a row. -/
def Asks (row : Nat) : Test → Prop
  | .present field | .absent field => field.row = row
  | .tags own _ _ names => own = row ∧ names ≠ []
  | .equal _ _ _ | .ordered _ _ _ => False
  | .and left right | .or left right => left.Asks row ∧ right.Asks row

end Test

section Keys

variable {rows : Named} {items : List Item} {row : Nat} {stored : Stored} {test : Test} {names : List String}

theorem keys?_intercalate (some : names ≠ []) :
    keys? (List.intercalate [.sign ','] (names.map fun name => [.literal name]) ++ [.sign ']']) = .some names := by
  induction names with
  | nil => exact absurd rfl some
  | cons name names ih =>
      cases names with
      | nil => rfl
      | cons next names =>
          have step : keys? (.literal name :: .sign ',' :: (List.intercalate [.sign ',']
              ((next :: names).map fun name => [.literal name]) ++ [.sign ']'])) = .some (name :: next :: names) := by
            rw [keys?, ih (List.cons_ne_nil _ _)]
            rfl
          exact step

theorem Named.conjunct_asked (found : rows.find? (rowName row) = some stored) (asked : List Item) :
    rows.conjunct (.word (rowName row) :: .sign '.' :: .word "entity" :: .sign '?' :: asked) = stored.asked asked := by
  rw [conjunct_rowName]
  show (rows.find? (rowName row)).bind _ = _
  rw [found, Option.bind_some]

theorem Named.conjunct_keysItems (found : rows.find? (rowName row) = some stored) (junction : Junction)
    (presence : Presence) (some : names ≠ []) :
    rows.conjunct (Dialect.keysItems row junction presence names) =
      .some (tagsHold stored.hasKey names junction presence) := by
  generalize list : List.intercalate [Item.sign ','] (names.map fun name => [.literal name]) ++ [.sign ']'] = keys
  have named : keys? keys = .some names := list ▸ keys?_intercalate some
  have all : stored.asked (.sign '&' :: .word "array" :: .sign '[' :: keys) = .some (names.all stored.hasKey) := by
    rw [Stored.asked, named]
    rfl
  have any : stored.asked (.sign '|' :: .word "array" :: .sign '[' :: keys) = .some (names.any stored.hasKey) := by
    rw [Stored.asked, named]
    rfl
  subst list
  cases junction with
  | all =>
      cases presence with
      | present => exact (conjunct_asked found _).trans all
      | absent => exact conjunct_not.trans (congrArg Verdict.not ((conjunct_asked found _).trans any))
  | any =>
      cases presence with
      | present => exact (conjunct_asked found _).trans any
      | absent => exact conjunct_not.trans (congrArg Verdict.not ((conjunct_asked found _).trans all))

theorem Named.conjunct_of_keyItems? (found : rows.find? (rowName row) = some stored) (asks : test.Asks row)
    (single : test.isJoined = false) :
    ∃ items ∈ test.keyItems?, rows.conjunct items = .some (test.holds stored.hasKey) := by
  cases test with
  | present field =>
      obtain ⟨_, tag⟩ := field
      obtain rfl := asks
      exact ⟨_, rfl, conjunct_asked found _⟩
  | absent field =>
      obtain ⟨_, tag⟩ := field
      obtain rfl := asks
      exact ⟨_, rfl, conjunct_not.trans (congrArg Verdict.not (conjunct_asked found _))⟩
  | tags own junction presence names =>
      obtain ⟨rfl, some⟩ := asks
      exact ⟨_, rfl, conjunct_keysItems found junction presence some⟩
  | equal holds field value => exact asks.elim
  | ordered comparison field limit => exact asks.elim
  | and left right => exact nomatch single
  | or left right => exact nomatch single

/-- What is shown for a test is judged as the test is meant. -/
theorem Named.judge_displays (found : rows.find? (rowName row) = some stored) (asks : test.Asks row)
    (displays : Dialect.postgres.Displays test items) : rows.judge items = .some (test.holds stored.hasKey) := by
  induction displays with
  | single whole plain known =>
      obtain ⟨own, shown, judged⟩ := conjunct_of_keyItems? found asks whole
      obtain rfl := known rfl own shown
      rwa [judge_of_whole (plain.isWord (by decide)) (plain.isWord (by decide)) (plain.isWord (by decide))]
  | and isLeft isRight leftIh rightIh => rw [judge_and, leftIh asks.1, rightIh asks.2, Verdict.and_some, Test.holds]
  | or isLeft isRight leftIh rightIh => rw [judge_or, leftIh asks.1, rightIh asks.2, Verdict.or_some, Test.holds]

/-- A condition for a test of keys holds where the row is admitted and the test holds. -/
theorem Named.satisfies_tests {source : Source} {first : Nat} {own : Stored} (dialect : source.dialect = .postgres)
    (here : rows.find? (rowName first) = .some own) (admitted : own.IsAdmitted source)
    (found : rows.find? (rowName row) = .some stored) (asks : test.Asks row)
    (tests : source.Tests first (.some test) items) : rows.Satisfies items ↔ test.holds stored.hasKey = true := by
  cases tests with
  | some displays =>
      rw [dialect] at displays
      have judged := judge_displays found asks displays
      rw [Satisfies]
      cases displays with
      | single whole plain known =>
          rw [judge_admission dialect here admitted (plain.isWord (by decide)), judged, Option.some.injEq]
      | and isLeft isRight =>
          rw [judge_admission dialect here admitted (by simp +decide [Item.isWord]), judged, Option.some.injEq]
      | or isLeft isRight =>
          rw [judge_admission_or dialect here admitted, judged, Option.some.injEq]

end Keys

/-! ## References -/

section References

variable {rows : Named} {source : Source} {join : Join} {stored next : Stored}

/-- A row is joined where the first words of the reference and of its id are the same. -/
theorem Named.satisfies_on (dialect : source.dialect = .postgres) (here : rows.find? (rowName join.row) = some next)
    (admitted : next.IsAdmitted source) (found : rows.find? (rowName join.reference.row) = some stored) :
    rows.Satisfies (source.joinedOf join).on ↔ ∃ text id, stored.text? join.reference.tag = some text ∧
      next.text? "id" = some id ∧ firstWord text = firstWord id := by
  have plain := @Source.plain_linkItems source [join.reference.row, join.row] join (by simp) (by simp)
  have link : rows.conjunct (source.linkItems join) = (do
      let text ← ((rows.find? (rowName join.reference.row)).bind (·.text? join.reference.tag)).map firstWord
      let id ← ((rows.find? (rowName join.row)).bind (·.text? "id")).map firstWord
      some (text == id)) := by
    rw [Source.linkItems, dialect]
    rfl
  have judged : rows.judge (source.joinedOf join).on = rows.conjunct (source.linkItems join) := by
    rw [Source.joinedOf, judge_admission dialect here admitted (plain.isWord (by decide)),
      judge_of_whole (plain.isWord (by decide)) (plain.isWord (by decide)) (plain.isWord (by decide))]
  rw [Satisfies, judged, link, here, found, Option.bind_some, Option.bind_some]
  cases stored.text? join.reference.tag <;> cases next.text? "id" <;> simp

end References

end Haystack.Sql
