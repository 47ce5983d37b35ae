import Haystack.Proofs.Sql.Alike
import Haystack.Proofs.Sql.Comparisons

/-!
Statements as selects that are intersected and united.

A select names the row whose entity it selects, the table that the row is from, the rows that are
joined to it with what they are joined on, and the condition. The scripts of selects are read clause by
clause.
-/
namespace Haystack.Sql

/-! ## Notation -/

/-- The parts of a list between the elements at which it is cut. -/
def cut {α : Type} (isCut : α → Bool) : List α → List (List α)
  | [] => [[]]
  | a :: rest => if isCut a then [] :: cut isCut rest else (cut isCut rest).modifyHead (a :: ·)

structure Joined where
  table : String
  name : String
  on : List Item

structure Block where
  /-- The row whose entity is selected. -/
  selected : String
  table : String
  name : String
  joins : List Joined
  condition : List Item

inductive Reading where
  | block (block : Block)
  | intersect (left right : Reading)
  | union (left right : Reading)

def joined? : List Item → Option Joined
  | .word "JOIN" :: .word table :: .word "AS" :: .word name :: .word "ON" :: on => some ⟨table, name, on⟩
  | _ => none

def block? (items : List Item) : Option Block :=
  match cut (Item.isWord "WHERE") items with
  | [before, condition] =>
      match cut (Item.isWord "INNER") before with
      | [.word "SELECT", .word selected, .sign '.', .word "entity", .word "FROM", .word table, .word "as",
          .word name] :: joins => do
          let joins ← joins.mapM joined?
          some ⟨selected, table, name, joins, condition⟩
      | _ => none
  | _ => none

mutual

/-- Take groups together from the inside, each element with what it has come to. -/
def Item.fold {α : Type} (leaf : α) (combine : List (Item × α) → α) : Item → α
  | .token _ => leaf
  | .group items => combine (foldEach leaf combine items)

def foldEach {α : Type} (leaf : α) (combine : List (Item × α) → α) : List Item → List (Item × α)
  | [] => []
  | item :: rest => (item, item.fold leaf combine) :: foldEach leaf combine rest

end

def isSetWord (item : Item) : Bool := item.isWord "INTERSECT" || item.isWord "UNION"

/-- A side of an intersection or union: a query in parentheses, all that it selects, or a select. -/
def side? : List (Item × Option Reading) → Option Reading
  | [(_, some reading)] => some reading
  | [(first, _), (second, _), (third, _), (_, some reading)] =>
      if first.isWord "SELECT" && second.isWord "entity" && third.isWord "FROM" then some reading else none
  | side => (block? (side.map (·.1))).map .block

/-- A query of one side, or of two with a word between them. -/
def combined? (elements : List (Item × Option Reading)) : Option Reading :=
  match cut (fun element => isSetWord element.1) elements, elements.filter (fun element => isSetWord element.1) with
  | [only], _ => side? only
  | [left, right], [(connective, _)] => do
      let left ← side? left
      let right ← side? right
      if connective.isWord "INTERSECT" then some (.intersect left right) else some (.union left right)
  | _, _ => none

def query? (items : List Item) : Option Reading := combined? (foldEach none combined? items)

/-- The query of a statement, and how many rows it is limited to. -/
def read? (statement : String) : Option (Reading × Option String) := do
  let items ← items? (withoutRemark statement.toList)
  match cut (Item.isWord "LIMIT") items with
  | [query] => do
      let query ← query? query
      some (query, none)
  | [query, [.word count]] => do
      let query ← query? query
      some (query, some count)
  | _ => none

/-! ## Cutting -/

section Cut

variable {α : Type} {isCut : α → Bool} {before rest : List α} {a : α}

theorem cut_of_whole (whole : ∀ a ∈ before, isCut a = false) : cut isCut before = [before] := by
  induction before with
  | nil => rfl
  | cons a before ih =>
      obtain ⟨here, others⟩ := List.forall_mem_cons.mp whole
      rw [cut, here, ih others]
      rfl

theorem cut_append (whole : ∀ a ∈ before, isCut a = false) (isHere : isCut a = true) (rest : List α) :
    cut isCut (before ++ a :: rest) = before :: cut isCut rest := by
  induction before with
  | nil => simp [cut, isHere]
  | cons b before ih =>
      obtain ⟨here, others⟩ := List.forall_mem_cons.mp whole
      rw [List.cons_append, cut, here, ih others]
      rfl

theorem foldEach_eq_map {leaf : α} {combine : List (Item × α) → α} {items : List Item} :
    foldEach leaf combine items = items.map fun item => (item, item.fold leaf combine) := by
  induction items with
  | nil => rfl
  | cons item items ih => rw [foldEach, List.map_cons, ih]

end Cut

/-- A name of letters, digits and underscores that is no keyword. -/
def IsPlainName (name : String) : Prop :=
  name ≠ "" ∧ name.toList.all isWordChar = true ∧ keywords.contains name = false

instance (name : String) : Decidable (IsPlainName name) := inferInstanceAs (Decidable (_ ∧ _))

/-! ## Scripts of queries -/

namespace Source

variable (source : Source)

/-- The row was stored as it is at the instant asked for. -/
def validityItems (name : String) : List Item :=
  match source.dialect with
  | .postgres =>
      [.literal source.instantText, .word "BETWEEN", .word name, .sign '.', .word "start_datetime", .word "AND",
        .word name, .sign '.', .word "end_datetime"]
  | .sqlite =>
      [.word "datetime", .group [.literal source.instantText], .word "BETWEEN", .word "datetime",
        .group [.word name, .sign '.', .word "start_datetime"], .word "AND", .word "datetime",
        .group [.word name, .sign '.', .word "end_datetime"]]

/-- The row belongs to the customer. -/
def ownershipItems (name : String) : List Item :=
  [.word name, .sign '.', .word "customer_id", .sign '=', .literal source.customer]

/-- The row is one of those asked for. -/
def admissionItems (name : String) : List Item :=
  source.validityItems name ++ .word "AND" :: source.ownershipItems name

/-- The id of the row is the reference in a field. -/
def linkItems (join : Join) : List Item :=
  source.dialect.firstWordItems (source.dialect.valueItems join.reference) ++
    .sign '=' :: source.dialect.firstWordItems (source.dialect.valueItems ⟨join.row, "id"⟩)

def joinedOf (join : Join) : Joined :=
  ⟨source.table, rowName join.row, source.admissionItems (rowName join.row) ++ .word "AND" :: source.linkItems join⟩

end Source

/-- The items that a joined row is read from. -/
def Joined.items (joined : Joined) : List Item :=
  [.word "INNER", .word "JOIN", .word joined.table, .word "AS", .word joined.name, .word "ON"] ++ joined.on

def Block.items (block : Block) : List Item :=
  [.word "SELECT", .word block.selected, .sign '.', .word "entity", .word "FROM", .word block.table, .word "as",
    .word block.name] ++ block.joins.flatMap Joined.items ++ .word "WHERE" :: block.condition

/-- The conditions that a select may have for its test, if it has one. -/
inductive Source.Tests (source : Source) (row : Nat) : Option Test → List Item → Prop where
  | none : Tests source row none (source.admissionItems (rowName row))
  | some {test : Test} {items : List Item} (displays : source.dialect.Displays test items) :
      Tests source row (some test) (source.admissionItems (rowName row) ++ .word "AND" :: items)

/-- How queries are read. -/
inductive Source.Reads (source : Source) : Query → Reading → Prop where
  | select (select : Select) {condition : List Item} (tests : source.Tests select.row select.test condition) :
      Reads source (.select select) (.block ⟨rowName select.row, source.table, rowName select.row,
        select.joins.map source.joinedOf, condition⟩)
  | intersect {left right : Query} {first second : Reading} (isLeft : Reads source left first)
      (isRight : Reads source right second) : Reads source (.intersect left right) (.intersect first second)
  | union {left right : Query} {first second : Reading} (isLeft : Reads source left first)
      (isRight : Reads source right second) : Reads source (.union left right) (.union first second)

namespace Source

variable {source : Source}

theorem shuts_validity (row : Nat) : (source.validity row).Shuts (source.validityItems (rowName row)) := by
  unfold validity validityItems
  generalize source.instantText = instant
  cases source.dialect with
  | postgres =>
      exact (((((Script.shows_quoted instant).code [.word "BETWEEN"] (by decide) (by decide)).followed
        (Script.shows_row row)).code [.sign '.', .word "start_datetime", .word "AND"] (by decide)
        (by decide)).followed (Script.shows_row row)).code [.sign '.', .word "end_datetime"] (by decide) (by decide)
  | sqlite =>
      refine ⟨_, ((((((Script.seals_code [.word "datetime", .sign '('] (by decide)).followed
        (Script.lexes_quoted instant)).code [.sign ')', .word "BETWEEN", .word "datetime", .sign '(']
        (by decide)).followed (Script.lexes_row row)).code [.sign '.', .word "start_datetime", .sign ')', .word "AND",
        .word "datetime", .sign '('] (by decide)).followed (Script.lexes_row row)).code
        [.sign '.', .word "end_datetime", .sign ')'] (by decide), fun _ _ _ => ?_⟩
      simp

theorem shuts_ownership (row : Nat) :
    (source.ownership row).Shuts (.word "AND" :: source.ownershipItems (rowName row)) :=
  ((((Script.shuts_code [.word "AND"] (by decide) (by decide)).followed (Script.shows_row row)).code
    [.sign '.', .word "customer_id", .sign '='] (by decide) (by decide)).followed
    (Script.shows_quoted source.customer)).code [] (by decide) (by decide)

theorem shuts_admission (source : Source) (row : Nat) :
    (source.validity row ++ source.ownership row).Shuts (source.admissionItems (rowName row)) :=
  (shuts_validity row).append (shuts_ownership row)

theorem shuts_link {join : Join} (quoteless : '\'' ∉ join.reference.tag.toList) :
    Script.Shuts (Script.code "AND " ++ source.dialect.firstWord (source.dialect.value join.reference) ++
      Script.code " = " ++ source.dialect.firstWord (source.dialect.value ⟨join.row, "id"⟩) ++ Script.code "\n")
      (.word "AND" :: source.linkItems join) := by
  have named : '\'' ∉ "id".toList := by decide
  have reference := source.dialect.shows_firstWord (source.dialect.shows_value quoteless)
  have id := source.dialect.shows_firstWord (@Dialect.shows_value source.dialect ⟨join.row, "id"⟩ named)
  have all := ((((Script.shuts_code [.word "AND"] (by decide) (show Scan.gap.run "AND ".toList = _ by decide)).followed
    reference).code [.sign '='] (by decide) (show Script.Divides " = " _ by decide)).followed id).code [] (by decide)
    (show Script.Divides "\n" _ by decide)
  simpa [linkItems] using all

theorem shuts_table (plain : IsPlainName source.table) (before after : String) (opening closing : List Token)
    (bare : ∀ token ∈ opening ++ closing, token ≠ .sign '(' ∧ token ≠ .sign ')')
    (runs : Scan.gap.run before.toList = (opening, .gap)) (divides : Script.Divides after closing) :
    (Script.code (before ++ source.table ++ after)).Shuts
      (opening.map .token ++ .word source.table :: closing.map .token) :=
  Script.shuts_letters plain.1 (List.all_eq_true.mp plain.2.1) before after opening closing bare runs divides

theorem shuts_join (plain : IsPlainName source.table) {join : Join} (quoteless : '\'' ∉ join.reference.tag.toList) :
    (source.join join).Shuts (source.joinedOf join).items := by
  have opening := shuts_table plain "INNER JOIN " " AS " [.word "INNER", .word "JOIN"] [.word "AS"] (by decide)
    (by decide) (by decide)
  have named := (opening.followed (Script.shows_newRow join.row)).code [.word "ON"] (by decide)
    (show Script.Divides " ON\n" [.word "ON"] by decide)
  have all := (named.append (source.shuts_admission join.row)).append (@shuts_link source join quoteless)
  have same : (source.joinedOf join).items = [.word "INNER", .word "JOIN"] ++ .word source.table :: [.word "AS"] ++
      [.word (rowName join.row)] ++ [.word "ON"] ++ source.admissionItems (rowName join.row) ++
        .word "AND" :: source.linkItems join := by
    simp [Joined.items, joinedOf]
  have script : source.join join = Script.code ("INNER JOIN " ++ source.table ++ " AS ") ++ [.newRow join.row] ++
      Script.code " ON\n" ++ (source.validity join.row ++ source.ownership join.row) ++ (Script.code "AND " ++
        source.dialect.firstWord (source.dialect.value join.reference) ++ Script.code " = " ++
        source.dialect.firstWord (source.dialect.value ⟨join.row, "id"⟩) ++ Script.code "\n") := by
    simp only [Source.join, List.append_assoc]
  rw [same, script]
  exact all

theorem shuts_joins (plain : IsPlainName source.table) {joins : List Join}
    (quoteless : Quoteless (joins.map (·.reference.tag))) :
    Script.Shuts (joins.flatMap source.join) ((joins.map source.joinedOf).flatMap Joined.items) := by
  induction joins with
  | nil => exact Script.shuts_nil
  | cons join joins ih =>
      obtain ⟨here, rest⟩ := List.forall_mem_cons.mp quoteless
      exact (shuts_join plain here).append (ih rest)

def testScript (source : Source) : Option Test → Script
  | some test => Script.code "AND " ++ source.dialect.test test ++ Script.code "\n"
  | none => []

theorem exists_tests (row : Nat) {test : Option Test} (quoteless : Quoteless ((test.map Test.names).getD [])) :
    ∃ condition, source.Tests row test condition ∧
      Script.Shuts (source.validity row ++ source.ownership row ++ source.testScript test) condition := by
  cases test with
  | none => exact ⟨_, .none, by simpa [testScript] using source.shuts_admission row⟩
  | some test =>
      obtain ⟨items, shown, displays⟩ := source.dialect.exists_displays quoteless
      have tested : Script.Shuts (source.testScript (some test)) (.word "AND" :: items ++ []) :=
        ((Script.shuts_code [.word "AND"] (by decide) (by decide)).followed shown).code [] (by decide) (by decide)
      rw [List.append_nil] at tested
      exact ⟨_, .some displays, (source.shuts_admission row).append tested⟩

theorem shuts_head (plain : IsPlainName source.table) (row : Nat) : Script.Shuts (Script.code "SELECT " ++ [.row row] ++
    Script.code (".entity\nFROM " ++ source.table ++ " as ") ++ [.newRow row] ++ Script.code "\n")
    [.word "SELECT", .word (rowName row), .sign '.', .word "entity", .word "FROM", .word source.table, .word "as",
      .word (rowName row)] := by
  have table := shuts_table plain ".entity\nFROM " " as " [.sign '.', .word "entity", .word "FROM"] [.word "as"]
    (by decide) (by decide) (by decide)
  have start : (Script.code (".entity\nFROM " ++ source.table ++ " as ")).text.toList.head?.any (!goesOn ·) = true := by
    rw [Script.text_code, String.append_assoc, String.toList_append]
    rfl
  exact (((((Script.shuts_code [.word "SELECT"] (by decide) (by decide)).followed (Script.shows_row row)).sealed
    start table).followed (Script.shows_newRow row)).code [] (by decide) (by decide))

theorem exists_select (plain : IsPlainName source.table) {select : Select} (quoteless : Quoteless select.names) :
    ∃ condition, source.Tests select.row select.test condition ∧ (source.select select).Shuts (Block.items
      ⟨rowName select.row, source.table, rowName select.row, select.joins.map source.joinedOf, condition⟩) := by
  obtain ⟨onJoins, onTest⟩ := quoteless_append.mp quoteless
  obtain ⟨condition, tests, shut⟩ := @exists_tests source select.row select.test onTest
  have where_ : Script.Shuts (Script.code "WHERE\n") [.word "WHERE"] :=
    Script.shuts_code [.word "WHERE"] (by decide) (by decide)
  have whole := (((shuts_head plain select.row).append (shuts_joins plain onJoins)).append where_).append shut
  have script : source.select select = Script.code "SELECT " ++ [.row select.row] ++
      Script.code (".entity\nFROM " ++ source.table ++ " as ") ++ [.newRow select.row] ++ Script.code "\n" ++
      select.joins.flatMap source.join ++ Script.code "WHERE\n" ++
      (source.validity select.row ++ source.ownership select.row ++ source.testScript select.test) := by
    rw [← List.append_assoc, ← List.append_assoc]
    rfl
  refine ⟨condition, tests, ?_⟩
  rw [script]
  simpa [Block.items] using whole

end Source

end Haystack.Sql
