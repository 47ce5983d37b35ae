import Haystack.Proofs.Sql.Conditions

/-!
The rows that a statement names.

The rows of a statement are named in the order of its text, each is looked for after it is named, and
each row that is joined is one of those asked for. The row that is selected is one of them too, unless
the test of its select is a disjunction: that is written after the conditions on the row without
parentheses, so that they do not apply to its second part.
-/
namespace Haystack.Sql

/-! ## Names -/

/-- The names that a select introduces. -/
def Block.names (block : Block) : List String := block.name :: block.joins.map (·.name)

def Reading.blocks : Reading → List Block
  | .block one => [one]
  | .intersect left right | .union left right => left.blocks ++ right.blocks

/-- The names of rows in the order of the text. -/
def Reading.names (reading : Reading) : List String := reading.blocks.flatMap Block.names

/-- Only known rows are named. -/
def Knows (known : List String) (items : List Item) : Prop :=
  ∀ word ∈ wordsOf items, isRowName word = true → word ∈ known

/-- What a row is joined on names this row and those before it. -/
def JoinsKnow : List String → List Joined → Prop
  | _, [] => True
  | known, join :: rest => Knows (join.name :: known) join.on ∧ JoinsKnow (join.name :: known) rest

structure Block.IsScoped (block : Block) : Prop where
  selects : block.selected = block.name
  joins : JoinsKnow [block.name] block.joins
  condition : Knows block.names block.condition

/-! ## Admission -/

/-- Where the condition holds, the row was stored at the instant asked for and belongs to the customer. -/
def Source.Admits (source : Source) (name : String) (condition : List Item) : Prop :=
  ∀ part ∈ disjuncts condition,
    source.validityItems name ∈ conjuncts part ∧ source.ownershipItems name ∈ conjuncts part

section Admits

variable {items : List Item} {source : Source}

/-- A row is admitted by a condition that asks for it first, and has no `OR` after that. -/
theorem admits_of_noOr (row : Nat) (noOr : ∀ item ∈ items, item.isWord "OR" = false) :
    source.Admits (rowName row) (source.admissionItems (rowName row) ++ .word "AND" :: items) := by
  intro part member
  have whole : ∀ item ∈ source.admissionItems (rowName row) ++ .word "AND" :: items, item.isWord "OR" = false :=
    List.forall_mem_append.mpr ⟨noOr_admission row, List.forall_mem_cons.mpr ⟨by decide, noOr⟩⟩
  rw [disjuncts, cut_of_whole whole, List.mem_singleton] at member
  rw [member, conjuncts_admission]
  exact ⟨List.mem_cons_self, List.mem_cons_of_mem _ List.mem_cons_self⟩

/-- An `OR` after the conditions on the row leaves its second part without them. -/
theorem not_admits_or (row : Nat) (items others : List Item) : ¬source.Admits (rowName row)
    (source.admissionItems (rowName row) ++ .word "AND" :: [.group items, .word "OR", .group others]) := by
  intro admits
  have isPart : [.group others] ∈ disjuncts
      (source.admissionItems (rowName row) ++ .word "AND" :: [.group items, .word "OR", .group others]) := by
    rw [disjuncts_admission_or]
    exact List.mem_cons_of_mem _ List.mem_cons_self
  have inside := (admits [.group others] isPart).2
  exact absurd (List.mem_singleton.mp inside) nofun

theorem admits_tests {test : Option Test} {condition : List Item} (tests : source.Tests row test condition) :
    source.Admits (rowName row) condition ↔ ∀ left right, test ≠ some (.or left right) := by
  cases tests with
  | none =>
      refine iff_of_true (fun part member => ?_) nofun
      rw [disjuncts, cut_of_whole (noOr_admission row), List.mem_singleton] at member
      rw [member, conjuncts_admissionItems]
      exact ⟨List.mem_cons_self, List.mem_cons_of_mem _ List.mem_cons_self⟩
  | some displays =>
      cases displays with
      | single whole plain known =>
          refine iff_of_true (admits_of_noOr row (plain.isWord (by decide))) ?_
          rintro left right ⟨⟩
          exact nomatch whole
      | and isLeft isRight => exact iff_of_true (admits_of_noOr row (by simp +decide [Item.isWord])) nofun
      | or isLeft isRight => exact iff_of_false (not_admits_or row _ _) fun other => other _ _ rfl

theorem admits_on (join : Join) : source.Admits (rowName join.row) (source.joinedOf join).on :=
  admits_of_noOr join.row ((@Source.plain_linkItems source [join.reference.row, join.row] join (by simp)
    (by simp)).isWord (by decide))

end Admits

/-! ## Scopes -/

section Scopes

variable {source : Source} {row : Nat} {rows : List Nat} {items : List Item}

theorem Scoped.knows (named : Scoped rows (wordsOf items)) : Knows (rows.map rowName) items := by
  intro word member isName
  obtain ⟨row, isRow, rfl⟩ := named word member isName
  exact List.mem_map_of_mem isRow

theorem scoped_admissionItems (member : row ∈ rows) :
    Scoped rows (wordsOf (source.admissionItems (rowName row))) := by
  unfold Source.admissionItems Source.validityItems Source.ownershipItems
  cases source.dialect with
  | postgres => simp +decide [wordsOf, Item.words, scoped_rowName member]
  | sqlite => simp +decide [wordsOf, Item.words, scoped_rowName member]

theorem joinsKnow_of_linked {known : List Nat} {joins : List Join} (linked : Linked known joins) :
    JoinsKnow (known.map rowName) (joins.map source.joinedOf) := by
  induction joins generalizing known with
  | nil => exact trivial
  | cons join joins ih =>
      refine ⟨@Scoped.knows (join.row :: known) _ ?_, ih linked.2⟩
      have admission := @scoped_admissionItems source join.row (join.row :: known) List.mem_cons_self
      have link := @Source.plain_linkItems source (join.row :: known) join (List.mem_cons_of_mem _ linked.1)
        List.mem_cons_self
      simp +decide [Source.joinedOf, wordsOf, Item.words, admission, link.named]

theorem scoped_tests {test : Option Test} (tests : source.Tests row test items) (member : row ∈ rows)
    (about : ∀ own ∈ test, own.rows ⊆ rows) : Scoped rows (wordsOf items) := by
  have admission := @scoped_admissionItems source row rows member
  cases tests with
  | none => exact admission
  | some displays => simp +decide [wordsOf, Item.words, admission, displays.named.mono (about _ rfl)]

end Scopes

namespace Source

variable {source : Source} {query : Query} {reading : Reading} {select : Select} {block : Block}

/-- A select is read as a block. -/
def Gives (source : Source) (select : Select) (block : Block) : Prop :=
  ∃ condition, source.Tests select.row select.test condition ∧
    block = ⟨rowName select.row, source.table, rowName select.row, select.joins.map source.joinedOf, condition⟩

theorem Reads.forall₂_blocks (reads : source.Reads query reading) :
    List.Forall₂ source.Gives query.selects reading.blocks := by
  induction reads with
  | select select tests => exact .cons ⟨_, tests, rfl⟩ .nil
  | intersect _ _ leftIh rightIh | union _ _ leftIh rightIh => exact List.rel_append leftIh rightIh

theorem Gives.names (gives : source.Gives select block) : block.names = select.rows.map rowName := by
  obtain ⟨_, _, rfl⟩ := gives
  simp [Block.names, Select.rows, joinedOf]

theorem Reads.names (reads : source.Reads query reading) : reading.names = query.rows.map rowName := by
  have flat {selects : List Select} {blocks : List Block} (each : List.Forall₂ source.Gives selects blocks) :
      blocks.flatMap Block.names = (selects.flatMap Select.rows).map rowName := by
    induction each with
    | nil => rfl
    | cons gives _ ih => rw [List.flatMap_cons, List.flatMap_cons, List.map_append, gives.names, ih]
  exact flat reads.forall₂_blocks

theorem Gives.isScoped (gives : source.Gives select block) (linked : select.IsLinked) : block.IsScoped := by
  have names := gives.names
  obtain ⟨condition, tests, rfl⟩ := gives
  refine ⟨rfl, joinsKnow_of_linked linked.joins, ?_⟩
  rw [names]
  exact (scoped_tests tests List.mem_cons_self linked.test).knows

/-- The rows that a statement names are numbered from one in the order of its text; a row is named
where it is known, and a row that is joined is asked for. The row of a select is asked for unless the
test of the select is a disjunction. -/
theorem names_of_statement (plain : IsPlainName source.table) {text statement : String} {limit : Option Nat}
    (written : source.statement text limit = .ok statement) : ∃ query reading count,
      Query.ofFilter text = .ok query ∧ (read? statement).map (·.1) = some reading ∧
      reading.names = (List.range' 1 (count + 1)).map rowName ∧
      List.Forall₂ (fun select block => block.IsScoped ∧ (∀ join ∈ block.joins, source.Admits join.name join.on) ∧
        (source.Admits block.name block.condition ↔ ∀ left right, select.test ≠ some (.or left right)))
        query.selects reading.blocks := by
  obtain ⟨query, reading, isQuery, reads, read⟩ := exists_read? plain written
  obtain ⟨⟨count, rows⟩, linked⟩ := numbered_of_ofFilter isQuery
  refine ⟨query, reading, count, isQuery, by rw [read]; rfl, by rw [reads.names, rows], ?_⟩
  have each := (List.forall₂_and_left _ _).mpr ⟨linked, reads.forall₂_blocks⟩
  refine each.imp fun select block ⟨linked, gives⟩ => ?_
  refine ⟨gives.isScoped linked, ?_⟩
  obtain ⟨condition, tests, rfl⟩ := gives
  exact ⟨List.forall_mem_map.mpr fun join _ => admits_on join, admits_tests tests⟩

theorem names_of_statement_hops : let acme : Source := ⟨.sqlite, "haystack", "acme", 0⟩
    IsPlainName acme.table ∧ ∃ statement, acme.statement "a->b->c or not d" none = .ok statement ∧
      ∃ query reading count, Query.ofFilter "a->b->c or not d" = .ok query ∧
        (read? statement).map (·.1) = some reading ∧ reading.names = (List.range' 1 (count + 1)).map rowName ∧
        List.Forall₂ (fun select block => block.IsScoped ∧ (∀ join ∈ block.joins, acme.Admits join.name join.on) ∧
          (acme.Admits block.name block.condition ↔ ∀ left right, select.test ≠ some (.or left right)))
          query.selects reading.blocks := by
  intro acme
  have plain : IsPlainName acme.table := by decide
  obtain ⟨statement, written⟩ : ∃ statement, acme.statement "a->b->c or not d" none = .ok statement :=
    Outcome.succeeds_of_isOk (by decide +kernel)
  exact ⟨plain, statement, written, names_of_statement plain written⟩

/-- Under a disjunction of two tests of tags, the row that is selected is of any customer and any time. -/
theorem not_admits_statement : let acme : Source := ⟨.postgres, "haystack", "acme", 0⟩
    ∃ statement reading, acme.statement "a or not b" none = .ok statement ∧
      (read? statement).map (·.1) = some reading ∧
      ∃ block ∈ reading.blocks, ¬acme.Admits block.name block.condition := by
  intro acme
  have plain : IsPlainName acme.table := by decide
  obtain ⟨statement, written⟩ : ∃ statement, acme.statement "a or not b" none = .ok statement :=
    Outcome.succeeds_of_isOk (by decide +kernel)
  obtain ⟨query, reading, isQuery, reads, read⟩ := exists_read? plain written
  have tests : (Query.ofFilter "a or not b").toOption.map (fun query => query.selects.map (·.test)) =
      some [some (.or (.present ⟨1, "a"⟩) (.absent ⟨1, "b"⟩))] := by
    decide +kernel
  rw [isQuery] at tests
  obtain ⟨select, selects, test⟩ := List.map_eq_singleton_iff.mp (Option.some.inj tests)
  have blocks := reads.forall₂_blocks
  rw [selects] at blocks
  obtain ⟨block, _, ⟨_, tests, rfl⟩, _, blocks⟩ := List.forall₂_cons_left_iff.mp blocks
  refine ⟨statement, reading, written, by rw [read]; rfl, _, blocks ▸ List.mem_cons_self, fun admits => ?_⟩
  exact (admits_tests tests).mp admits _ _ test

end Source

end Haystack.Sql
