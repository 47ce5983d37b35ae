import Haystack.Proofs.Sql.Skeleton
import Haystack.Proofs.Sql.Tokens

/-!
Values and tests of tags as they are read.

What is read for a part of a test holds together: no word in it divides a statement or a condition.
The rows that it names are those that the test is about.
-/
namespace Haystack.Sql

open Phrase

/-! ## Words -/

/-- The words that divide a statement into clauses, and a condition into its parts. -/
def keywords : List String :=
  ["SELECT", "FROM", "INNER", "JOIN", "ON", "WHERE", "AND", "OR", "BETWEEN", "INTERSECT", "UNION", "LIMIT"]

namespace Item

def isWord (letters : String) : Item → Bool
  | .word own => own == letters
  | _ => false

def isKeyword : Item → Bool
  | .word own => keywords.contains own
  | _ => false

end Item

mutual

/-- The words of an item, those in its groups included. -/
def Item.words : Item → List String
  | .word own => [own]
  | .token _ => []
  | .group items => wordsOf items

def wordsOf : List Item → List String
  | [] => []
  | item :: rest => item.words ++ wordsOf rest

end

/-- The letter and number that rows are named by. -/
def isRowName (letters : String) : Bool :=
  match letters.toList with
  | 't' :: first :: others => (first :: others).all Char.isDigit
  | _ => false

/-- All rows that are named are among those given. -/
def Scoped (rows : List Nat) (words : List String) : Prop :=
  ∀ word ∈ words, isRowName word = true → ∃ row ∈ rows, rowName row = word

/-- Items that are part of one test about some rows. -/
structure Plain (rows : List Nat) (items : List Item) : Prop where
  whole : ∀ item ∈ items, item.isKeyword = false
  named : Scoped rows (wordsOf items)

section Plain

variable {row : Nat} {rows more : List Nat} {items others inner : List Item} {item : Item} {words further : List String}

@[simp] theorem wordsOf_append : wordsOf (items ++ others) = wordsOf items ++ wordsOf others := by
  induction items with
  | nil => rfl
  | cons item items ih => rw [List.cons_append, wordsOf, ih, wordsOf, List.append_assoc]

@[simp] theorem scoped_nil : Scoped rows [] := fun _ member => nomatch member

@[simp] theorem scoped_cons {word : String} : Scoped rows (word :: words) ↔
    (isRowName word = true → ∃ row ∈ rows, rowName row = word) ∧ Scoped rows words :=
  List.forall_mem_cons

@[simp] theorem scoped_append : Scoped rows (words ++ further) ↔ Scoped rows words ∧ Scoped rows further :=
  List.forall_mem_append

theorem Scoped.mono (named : Scoped rows words) (subset : rows ⊆ more) : Scoped more words := by
  intro word member isName
  obtain ⟨row, isRow, same⟩ := named word member isName
  exact ⟨row, subset isRow, same⟩

@[simp] theorem plain_nil : Plain rows [] := ⟨fun _ member => (nomatch member), scoped_nil⟩

theorem plain_cons : Plain rows (item :: items) ↔
    (item.isKeyword = false ∧ Scoped rows item.words) ∧ Plain rows items := by
  constructor
  · rintro ⟨whole, named⟩
    obtain ⟨here, rest⟩ := List.forall_mem_cons.mp whole
    obtain ⟨first, others⟩ := scoped_append.mp named
    exact ⟨⟨here, first⟩, ⟨rest, others⟩⟩
  · rintro ⟨⟨here, first⟩, ⟨rest, others⟩⟩
    exact ⟨List.forall_mem_cons.mpr ⟨here, rest⟩, scoped_append.mpr ⟨first, others⟩⟩

@[simp] theorem plain_word {letters : String} : Plain rows (.word letters :: items) ↔
    (keywords.contains letters = false ∧ Scoped rows [letters]) ∧ Plain rows items :=
  plain_cons

@[simp] theorem plain_literal {content : String} : Plain rows (.literal content :: items) ↔ Plain rows items :=
  plain_cons.trans (and_iff_right ⟨rfl, scoped_nil⟩)

@[simp] theorem plain_sign {c : Char} : Plain rows (.sign c :: items) ↔ Plain rows items :=
  plain_cons.trans (and_iff_right ⟨rfl, scoped_nil⟩)

@[simp] theorem plain_group : Plain rows (.group inner :: items) ↔ Scoped rows (wordsOf inner) ∧ Plain rows items :=
  plain_cons.trans (and_congr_left' (and_iff_right rfl))

@[simp] theorem plain_append : Plain rows (items ++ others) ↔ Plain rows items ∧ Plain rows others := by
  induction items with
  | nil => simp
  | cons item items ih => simp only [List.cons_append, plain_cons, ih, and_assoc]

theorem rowName_ne (row : Nat) {word : String} (other : word.toList.head? ≠ some 't') :
    (rowName row == word) = false := by
  refine beq_false_of_ne fun same => other ?_
  rw [← same, rowName, String.toList_append]
  rfl

theorem not_mem_keywords (row : Nat) : keywords.contains (rowName row) = false := by
  have other : ∀ word ∈ keywords, word.toList.head? ≠ some 't' := by decide
  refine Bool.eq_false_iff.mpr fun contained => ?_
  have member := List.contains_iff_mem.mp contained
  exact absurd rfl (ne_of_beq_false (rowName_ne row (other _ member)))

theorem plain_rowName (member : row ∈ rows) : Plain rows (.word (rowName row) :: items) ↔ Plain rows items := by
  have named : Scoped rows [rowName row] := scoped_cons.mpr ⟨fun _ => ⟨row, member, rfl⟩, scoped_nil⟩
  exact plain_word.trans (and_iff_right ⟨not_mem_keywords row, named⟩)

theorem scoped_rowName (member : row ∈ rows) : Scoped rows (rowName row :: words) ↔ Scoped rows words :=
  scoped_cons.trans (and_iff_right fun _ => ⟨row, member, rfl⟩)

end Plain

/-! ## Values -/

namespace Dialect

/-- A column of a numbered row. -/
def columnItems (row : Nat) (name : String) : List Item := [.word (rowName row), .sign '.', .word name]

def valueItems (dialect : Dialect) (field : Field) : List Item :=
  match dialect with
  | .postgres => columnItems field.row "entity" ++ [.sign '-', .sign '>', .sign '>', .literal field.tag]
  | .sqlite =>
      [.word "json_extract", .group (columnItems field.row "entity" ++ [.sign ',', .literal ("$." ++ field.tag)])]

def firstWordItems (dialect : Dialect) (items : List Item) : List Item :=
  match dialect with
  | .postgres => [.word "split_part", .group (items ++ [.sign ',', .literal " ", .sign ',', .word "1"])]
  | .sqlite =>
      [.word "substr", .group (items ++ [.sign '|', .sign '|', .literal " ", .sign ',', .word "1", .sign ',',
        .word "instr", .group (items ++ [.sign '|', .sign '|', .literal " ", .sign ',', .literal " "]),
        .sign '-', .word "1"])]

variable (dialect : Dialect) {field : Field} {script : Script} {items : List Item} {rows : List Nat}

theorem shows_value (quoteless : '\'' ∉ field.tag.toList) : (dialect.value field).Shows (dialect.valueItems field) := by
  cases dialect with
  | postgres =>
      exact (((Script.shows_row field.row).code [.sign '.', .word "entity", .sign '-', .sign '>', .sign '>']
        (by decide) (by decide)).followed (Script.shows_tag quoteless))
  | sqlite =>
      have place : '\'' ∉ ("$." ++ field.tag).toList := by simpa using quoteless
      refine ⟨_, (((((Script.seals_code [.word "json_extract", .sign '('] (by decide)).followed
        (Script.lexes_row field.row)).code [.sign '.', .word "entity", .sign ','] (by decide)).followed
        (Script.lexes_tag place)).code [.sign ')'] (by decide)).lexes, fun _ _ _ => ?_⟩
      simp [valueItems, columnItems]

theorem plain_valueItems (member : field.row ∈ rows) : Plain rows (dialect.valueItems field) := by
  cases dialect with
  | postgres => simp +decide [valueItems, columnItems, plain_rowName member]
  | sqlite => simp +decide [valueItems, columnItems, wordsOf, Item.words, scoped_rowName member]

theorem shows_firstWord (shown : script.Shows items) :
    (dialect.firstWord script).Shows (dialect.firstWordItems items) := by
  obtain ⟨tokens, lexes, groups⟩ := shown
  cases dialect with
  | postgres =>
      refine ⟨_, (((((Script.seals_code [.word "split_part", .sign '('] (by decide)).followed
        lexes).code [.sign ','] (by decide)).followed (Script.lexes_quoted " ")).code
        [.sign ',', .word "1", .sign ')'] (by decide)).lexes, fun _ _ _ => ?_⟩
      simp [groups _ _ _, firstWordItems]
  | sqlite =>
      refine ⟨_, (((((((((((Script.seals_code [.word "substr", .sign '('] (by decide)).followed
        lexes).code [.sign '|', .sign '|'] (by decide)).followed (Script.lexes_quoted " ")).code
        [.sign ',', .word "1", .sign ',', .word "instr", .sign '('] (by decide)).followed
        lexes).code [.sign '|', .sign '|'] (by decide)).followed (Script.lexes_quoted " ")).code
        [.sign ','] (by decide)).followed (Script.lexes_quoted " ")).code
        [.sign ')', .sign '-', .word "1", .sign ')'] (by decide)).lexes, fun _ _ _ => ?_⟩
      simp [groups _ _ _, firstWordItems]

theorem plain_firstWordItems (plain : Plain rows items) : Plain rows (dialect.firstWordItems items) := by
  cases dialect with
  | postgres => simp +decide [firstWordItems, wordsOf, Item.words, plain.named]
  | sqlite => simp +decide [firstWordItems, wordsOf, Item.words, plain.named]

theorem shows_payload (quoteless : '\'' ∉ field.tag.toList) :
    ∃ items, (dialect.payload field).Shows items ∧ Plain [field.row] items := by
  have found := dialect.shows_value quoteless
  have plain := (dialect.plain_valueItems (List.mem_singleton_self field.row)).named
  cases dialect with
  | postgres =>
      refine ⟨_, (found.enclosed "SUBSTRING(" ",3)" [.word "SUBSTRING"] [.sign ',', .word "3"] (by decide) (by decide)
        (by decide)).shows, ?_⟩
      simp +decide [wordsOf, Item.words, plain]
  | sqlite =>
      refine ⟨_, (found.enclosed "substr(" ",3)" [.word "substr"] [.sign ',', .word "3"] (by decide) (by decide)
        (by decide)).shows, ?_⟩
      simp +decide [wordsOf, Item.words, plain]

theorem shows_ofKind (letter : String) (quoteless : '\'' ∉ field.tag.toList) (shown : script.Shows items)
    (plain : Plain [field.row] items) : ∃ items,
      (dialect.ofKind letter field script).Shows items ∧ Plain [field.row] items := by
  refine ⟨_, ((((((Script.shuts_code [.word "CASE", .word "WHEN"] (by decide) (by decide)).followed
    (dialect.shows_value quoteless)).code [.word "LIKE"] (by decide) (by decide)).followed
    (Script.shows_quoted (letter ++ ":%"))).code [.word "THEN"] (by decide) (by decide)).followed
    shown).ending " END" [] "END" (by decide) (by decide), ?_⟩
  simp +decide [plain, dialect.plain_valueItems (List.mem_singleton_self field.row)]

def presentItems (dialect : Dialect) (field : Field) : List Item :=
  match dialect with
  | .postgres => columnItems field.row "entity" ++ [.sign '?', .literal field.tag]
  | .sqlite => sqlite.valueItems field ++ [.word "IS", .word "NOT", .word "NULL"]

def absentItems (dialect : Dialect) (field : Field) : List Item :=
  match dialect with
  | .postgres => .word "NOT" :: columnItems field.row "entity" ++ [.sign '?', .literal field.tag]
  | .sqlite => sqlite.valueItems field ++ [.word "IS", .word "NULL"]

theorem shows_present (quoteless : '\'' ∉ field.tag.toList) :
    (dialect.present field).Shows (dialect.presentItems field) := by
  cases dialect with
  | postgres =>
      exact ((Script.shows_row field.row).code [.sign '.', .word "entity", .sign '?']
        (by decide) (by decide)).followed (Script.shows_tag quoteless)
  | sqlite =>
      exact (sqlite.shows_value quoteless).ending " IS NOT NULL" [.word "IS", .word "NOT"] "NULL" (by decide) (by decide)

theorem shows_absent (quoteless : '\'' ∉ field.tag.toList) :
    (dialect.absent field).Shows (dialect.absentItems field) := by
  cases dialect with
  | postgres =>
      exact (((Script.shuts_code [.word "NOT"] (by decide) (by decide)).followed
        (Script.shows_row field.row)).code [.sign '.', .word "entity", .sign '?']
        (by decide) (by decide)).followed (Script.shows_tag quoteless)
  | sqlite =>
      exact (sqlite.shows_value quoteless).ending " IS NULL" [.word "IS"] "NULL" (by decide) (by decide)

theorem plain_presentItems (member : field.row ∈ rows) : Plain rows (dialect.presentItems field) := by
  cases dialect with
  | postgres => simp +decide [presentItems, columnItems, plain_rowName member]
  | sqlite => simp +decide [presentItems, plain_valueItems _ member]

theorem plain_absentItems (member : field.row ∈ rows) : Plain rows (dialect.absentItems field) := by
  cases dialect with
  | postgres => simp +decide [absentItems, columnItems, plain_rowName member]
  | sqlite => simp +decide [absentItems, plain_valueItems _ member]

/-! ## Several tags -/

def keysSign : Junction → Presence → Char
  | .all, .present => '&'
  | .any, .present => '|'
  | .all, .absent => '|'
  | .any, .absent => '&'

def negationItems : Presence → List Item
  | .present => []
  | .absent => [.word "NOT"]

/-- How PostgreSQL reads a test of several keys. -/
def keysItems (row : Nat) (junction : Junction) (presence : Presence) (names : List String) : List Item :=
  negationItems presence ++ columnItems row "entity" ++
    [.sign '?', .sign (keysSign junction presence), .word "array", .sign '['] ++
    List.intercalate [.sign ','] (names.map fun name => [.literal name]) ++ [.sign ']']

theorem shows_keys (row : Nat) (junction : Junction) (presence : Presence) {names : List String}
    (quoteless : Quoteless names) :
    (postgres.tags row junction presence names).Shows (keysItems row junction presence names) := by
  have listed : (Script.separated "," (names.map Script.tag)).Shows
      (List.intercalate [.sign ','] (names.map fun name => [.literal name])) :=
    Script.shows_separated (.sign ',') (by decide) (by decide)
      fun name member => Script.shows_tag (quoteless name member)
  cases junction <;> cases presence
  · exact (((((Script.shuts_code [] (by decide) (by decide)).followed (Script.shows_row row)).code
      [.sign '.', .word "entity", .sign '?', .sign '&', .word "array", .sign '['] (by decide)
      (by decide)).followed listed).code [.sign ']'] (by decide) (by decide)).shows
  · exact (((((Script.shuts_code [.word "NOT"] (by decide) (by decide)).followed (Script.shows_row row)).code
      [.sign '.', .word "entity", .sign '?', .sign '|', .word "array", .sign '['] (by decide)
      (by decide)).followed listed).code [.sign ']'] (by decide) (by decide)).shows
  · exact (((((Script.shuts_code [] (by decide) (by decide)).followed (Script.shows_row row)).code
      [.sign '.', .word "entity", .sign '?', .sign '|', .word "array", .sign '['] (by decide)
      (by decide)).followed listed).code [.sign ']'] (by decide) (by decide)).shows
  · exact (((((Script.shuts_code [.word "NOT"] (by decide) (by decide)).followed (Script.shows_row row)).code
      [.sign '.', .word "entity", .sign '?', .sign '&', .word "array", .sign '['] (by decide)
      (by decide)).followed listed).code [.sign ']'] (by decide) (by decide)).shows

theorem plain_intercalate {parts : List (List Item)} (each : ∀ part ∈ parts, Plain rows part) :
    Plain rows (List.intercalate [.sign ','] parts) := by
  induction parts with
  | nil => exact plain_nil
  | cons part parts ih =>
      obtain ⟨here, rest⟩ := List.forall_mem_cons.mp each
      cases parts with
      | nil => simpa using here
      | cons next parts => simp [List.intercalate_cons_cons, here, ih rest]

theorem plain_keysItems {row : Nat} (junction : Junction) (presence : Presence) (names : List String)
    (member : row ∈ rows) : Plain rows (keysItems row junction presence names) := by
  have listed : Plain rows (List.intercalate [.sign ','] (names.map fun name => [.literal name])) :=
    plain_intercalate (List.forall_mem_map.mpr fun _ _ => plain_literal.mpr plain_nil)
  cases presence <;> simp +decide [keysItems, negationItems, columnItems, plain_rowName member, listed]

theorem scoped_intercalate {word : String} (bare : isRowName word = false) {parts : List (List Item)}
    (each : ∀ part ∈ parts, Scoped rows (wordsOf part)) :
    Scoped rows (wordsOf (List.intercalate [.word word] parts)) := by
  induction parts with
  | nil => exact scoped_nil
  | cons part parts ih =>
      obtain ⟨here, rest⟩ := List.forall_mem_cons.mp each
      cases parts with
      | nil => simpa using here
      | cons next parts => simp [List.intercalate_cons_cons, here, ih rest, wordsOf, Item.words, bare]

theorem shows_places (row : Nat) (junction : Junction) (presence : Presence) {names : List String}
    (quoteless : Quoteless names) : ∃ items,
      (sqlite.tags row junction presence names).Shows items ∧ Plain [row] items := by
  -- The tests of single tags, and the word between them, are read between parentheses.
  have joined {separator : String} (word : String) (bare : isRowName word = false)
      (divides : Script.Divides separator [.word word]) {single : String → Script} {shown : String → List Item}
      (each : ∀ name ∈ names, (single name).Shows (shown name) ∧ Plain [row] (shown name)) : ∃ items,
        (Script.code "(" ++ Script.separated separator (names.map single) ++ Script.code ")").Shows items ∧
          Plain [row] items := by
    have listed := Script.shows_separated (.word word) (by simp) divides fun name member => (each name member).1
    refine ⟨_, (listed.parenthesised "(" [] (by decide) (by decide)).shows, ?_⟩
    refine plain_group.mpr ⟨scoped_intercalate bare (List.forall_mem_map.mpr fun name member => ?_), plain_nil⟩
    exact (each name member).2.named
  cases presence with
  | present =>
      have each (name : String) (member : name ∈ names) :=
        And.intro (@shows_present sqlite ⟨row, name⟩ (quoteless name member))
          (@plain_presentItems sqlite ⟨row, name⟩ [row] (List.mem_singleton_self row))
      cases junction with
      | all => exact joined "AND" (by decide) (by decide) each
      | any => exact joined "OR" (by decide) (by decide) each
  | absent =>
      have each (name : String) (member : name ∈ names) :=
        And.intro (@shows_absent sqlite ⟨row, name⟩ (quoteless name member))
          (@plain_absentItems sqlite ⟨row, name⟩ [row] (List.mem_singleton_self row))
      cases junction with
      | all => exact joined "AND" (by decide) (by decide) each
      | any => exact joined "OR" (by decide) (by decide) each

end Dialect

end Haystack.Sql
