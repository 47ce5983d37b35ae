import Haystack.Proofs.Decimal
import Haystack.Proofs.Phrase
import Haystack.Proofs.Sql.Truth
import Haystack.Proofs.Text.Pieces
import Haystack.Sql.Statement

/-!
Tests of tags as databases read them.

PostgreSQL tests the keys of an object with `?&` and `?|`, and SQLite whether there is something at
each of several places of a document. Read so, the test that is written for some tags holds where all
of them are present, some are, none is or some are absent.
-/
namespace Haystack.Sql

open Phrase

/-- What a database finds in the rows of a query. -/
structure Findings where
  /-- An object has a key. -/
  hasKey (row : Nat) (key : String) : Bool
  /-- There is something at a place of a document. -/
  extracts (row : Nat) (place : String) : Bool

/-! ## Notation -/

/-- The name of a numbered row. -/
def rowPhrase : Phrase Nat := do
  let _ ← char 't'
  let digits ← run1 Char.isDigit
  pure (Decimal.naturalOf digits)

/-- A character of a literal. A quote is written twice. -/
def literalChar : Phrase Char :=
  (do word "''"; pure '\'') <|> satisfying (· != '\'')

def literal : Phrase String := do
  let _ ← char '\''
  let content ← many literalChar
  let _ ← char '\''
  pure (String.ofList content)

/-- One or more phrases with a word between them. -/
def joinedBy {α : Type} (word : String) (phrase : Phrase α) : Phrase (List α) := do
  let first ← phrase
  let others ← many do
    Phrase.word word
    phrase
  pure (first :: others)

/-- Keys that an object has, all or any of them, or has not. -/
structure KeyTest where
  negated : Bool
  row : Nat
  junction : Junction
  keys : List String

/-- As `?&` and `?|` are read, and `NOT`, which applies to the whole. -/
def KeyTest.holds (test : KeyTest) (findings : Findings) : Bool :=
  let found := match test.junction with
    | .all => test.keys.all (findings.hasKey test.row)
    | .any => test.keys.any (findings.hasKey test.row)
  if test.negated then !found else found

def keyTest : Phrase KeyTest := do
  let negation ← optional (word "NOT ")
  let row ← rowPhrase
  word ".entity "
  let junction ← (do word "?&"; pure Junction.all) <|> (do word "?|"; pure Junction.any)
  word " array["
  let keys ← joinedBy "," literal
  word "]"
  pure ⟨negation.isSome, row, junction, keys⟩

/-- A place of a document where there is something, or nothing. -/
structure PlaceTest where
  row : Nat
  place : String
  presence : Presence

def PlaceTest.holds (test : PlaceTest) (findings : Findings) : Bool :=
  match test.presence with
  | .present => findings.extracts test.row test.place
  | .absent => !findings.extracts test.row test.place

def placeTest : Phrase PlaceTest := do
  word "json_extract("
  let row ← rowPhrase
  word ".entity,"
  let place ← literal
  word ") IS "
  let negation ← optional (word "NOT ")
  word "NULL"
  pure ⟨row, place, if negation.isSome then .present else .absent⟩

/-- The word between the tests of several tags. -/
def connective : Junction → String
  | .all => " AND "
  | .any => " OR "

/-- Tests between parentheses, all joined alike. -/
def placeTests (junction : Junction) : Phrase (List PlaceTest) := do
  let _ ← char '('
  let tests ← joinedBy (connective junction) placeTest
  let _ ← char ')'
  pure tests

/-- Whether a test holds as the database of a dialect reads it, if it can read it. -/
def Dialect.reads? (dialect : Dialect) (findings : Findings) (text : String) : Option Bool :=
  let phrase : Phrase Bool := match dialect with
    | .postgres => do
        let test ← keyTest
        pure (test.holds findings)
    | .sqlite =>
        (do let tests ← placeTests .all; pure (tests.all (·.holds findings))) <|>
          (do let tests ← placeTests .any; pure (tests.any (·.holds findings)))
  (phrase.readAll text.toList).toOption

/-- Whether a database finds a tag in a row. -/
def Dialect.finds (dialect : Dialect) (findings : Findings) (row : Nat) (tag : String) : Bool :=
  match dialect with
  | .postgres => findings.hasKey row tag
  | .sqlite => findings.extracts row ("$." ++ tag)

/-! ## Reading -/

variable {rest : List Char} {name first : String} {others : List String} {row : Nat}

theorem reads_rowName (row : Nat) (stops : Stops Char.isDigit rest) :
    Reads rowPhrase (rowName row).toList rest row := by
  have digits : (rowName row).toList = 't' :: Nat.toDigits 10 row := by
    simp [rowName, Nat.repr_eq_ofList_toDigits]
  rw [digits]
  refine Reads.bind_cons reads_char ?_
  refine Reads.last (reads_run1 (allDigits_toDigits row) Nat.toDigits_ne_nil stops) ?_
  rw [naturalOf_toDigits]
  exact reads_pure

theorem fails_literalChar (differs : rest.head? ≠ some '\'') : Fails literalChar ('\'' :: rest) := by
  refine Fails.orElse (Fails.bind ?_) (fails_satisfying (stops_cons.mpr (by decide)))
  change Fails (chars ['\'', '\'']) (['\''] ++ rest)
  exact Reads.bind_fails reads_char (fails_chars_cons differs)

theorem reads_literalChar {c : Char} (notQuote : c ≠ '\'') : Reads literalChar [c] rest c := by
  refine Fails.orElse_takes (Fails.bind (fails_word (c := '\'') rfl (by simpa using notQuote))) ?_
  exact reads_satisfying (by simpa using notQuote)

theorem reads_literal (quoteless : '\'' ∉ name.toList) (differs : rest.head? ≠ some '\'') :
    Reads literal (Piece.tag name).text.toList rest name := by
  have body : TakesEach literalChar Eq ('\'' :: rest) (name.toList.flatMap fun c => [c]) name.toList :=
    TakesEach.of_forall₂ (fun _ => True) (List.forall₂_same.mpr fun c member =>
      ⟨List.cons_ne_nil _ _, fun _ => trivial,
        fun _ _ => reads_literalChar fun isQuote => quoteless (isQuote ▸ member)⟩) trivial
      (fails_literalChar differs)
  rw [Piece.text, String.toList_ofList, List.cons_append, ← List.flatMap_singleton' name.toList]
  refine Reads.bind_cons reads_char (Reads.bind (reads_many body) (Reads.last reads_char ?_))
  rw [String.ofList_toList]
  exact reads_pure

/-- Parts with a word between them, each of which a phrase reads where that word or the end follows. -/
theorem reads_joinedBy {α δ : Type} {between : String} {phrase : Phrase α} (part : δ → List Char)
    (value : δ → α) (good : List Char → Prop) {first : δ} {others : List δ}
    (each : ∀ item ∈ first :: others, ∀ more, good more → Reads phrase (part item) more (value item))
    (nonempty : between.toList ≠ []) (goodBetween : ∀ more, good (between.toList ++ more))
    (goodRest : good rest) (fails : Fails (word between) rest) :
    Reads (joinedBy between phrase)
      (part first ++ others.flatMap fun item => between.toList ++ part item) rest
      (value first :: others.map value) := by
  have following : TakesEach (do word between; phrase) Eq rest
      (others.flatMap fun item => between.toList ++ part item) (others.map value) := by
    refine TakesEach.of_forall₂ good ?_ goodRest (Fails.bind fails)
    refine List.forall₂_map_right_iff.mpr (List.forall₂_same.mpr fun item member => ⟨?_, ?_, ?_⟩)
    · simp [nonempty]
    · intro more
      rw [List.append_assoc]
      exact goodBetween _
    · exact fun more isGood =>
        Reads.bind (reads_word between) (each item (List.mem_cons_of_mem first member) more isGood)
  refine Reads.bind (each first List.mem_cons_self _ ?_) (Reads.last (reads_many following) reads_pure)
  cases others with
  | nil => exact goodRest
  | cons second _ =>
      rw [List.flatMap_cons, List.append_assoc, List.append_assoc]
      exact goodBetween _

/-! ## Texts of scripts -/

theorem Script.text_append (first second : Script) : (first ++ second).text = first.text ++ second.text := by
  rw [text, List.map_append, String.join_append]
  rfl

theorem Script.text_code (text : String) : (code text).text = text := by
  simp [code, Script.text, Piece.text, String.join]

theorem Script.toList_separated (separator : String) (first : Script) (others : List Script) :
    (separated separator (first :: others)).text.toList =
      first.text.toList ++ others.flatMap fun script => separator.toList ++ script.text.toList := by
  induction others generalizing first with
  | nil => simp [separated]
  | cons second others ih =>
      rw [separated, text_append, text_append, text_code, String.toList_append, String.toList_append, ih]
      · simp
      · simp

/-! ## PostgreSQL -/

variable {findings : Findings} {junction : Junction} {presence : Presence}

/-- The test of keys that stands for a test of tags. -/
def keyTestOf (row : Nat) (names : List String) : Junction → Presence → KeyTest
  | .all, .present => ⟨false, row, .all, names⟩
  | .any, .present => ⟨false, row, .any, names⟩
  | .all, .absent => ⟨true, row, .any, names⟩
  | .any, .absent => ⟨true, row, .all, names⟩

theorem holds_keyTestOf (row : Nat) (names : List String) (junction : Junction) (presence : Presence) :
    (keyTestOf row names junction presence).holds findings =
      tagsHold (findings.hasKey row) names junction presence := by
  cases junction <;> cases presence <;> rfl

/-- The operator for all or any keys of an array. -/
def keyOperator : Junction → String
  | .all => "?&"
  | .any => "?|"

theorem arrayOperator_eq (row : Nat) (names : List String) : Dialect.arrayOperator junction presence =
    let test := keyTestOf row names junction presence
    (if test.negated then "NOT " else "", keyOperator test.junction) := by
  cases junction <;> cases presence <;> rfl

theorem Script.text_tag (name : String) : (tag name).text = (Piece.tag name).text := by
  simp [tag, Script.text, String.join]

theorem Script.text_row (row : Nat) : Script.text [.row row] = rowName row := by
  simp [Script.text, Piece.text, String.join]

theorem toList_postgresTags (row : Nat) (junction : Junction) (presence : Presence) (first : String)
    (others : List String) : (Dialect.postgres.tags row junction presence (first :: others)).text.toList =
      (Dialect.arrayOperator junction presence).1.toList ++ ((rowName row).toList ++
        (".entity ".toList ++ ((Dialect.arrayOperator junction presence).2.toList ++ (" array[".toList ++
          (((Piece.tag first).text.toList ++ others.flatMap fun name =>
            ",".toList ++ (Piece.tag name).text.toList) ++ "]".toList))))) := by
  rw [Dialect.tags]
  simp only [Script.text_append, Script.text_code, List.map_cons, String.toList_append,
    Script.toList_separated, Script.text_tag, Script.text_row, List.flatMap_map, List.append_assoc]

theorem reads_negation (negated : Bool) (fails : Fails (word "NOT ") rest) :
    Reads (optional (word "NOT ")) (if negated then "NOT " else "").toList rest
      (if negated then some () else none) := by
  cases negated with
  | false => exact fails.optional
  | true => exact (reads_word "NOT ").optional

theorem reads_keyOperator (junction : Junction) :
    Reads ((do word "?&"; pure Junction.all) <|> (do word "?|"; pure Junction.any))
      (keyOperator junction).toList rest junction := by
  cases junction with
  | all => exact Takes.orElse (Reads.last (reads_word "?&") reads_pure)
  | any =>
      refine Fails.orElse_takes (Fails.bind ?_) (Reads.last (reads_word "?|") reads_pure)
      change Fails (chars ['?', '&']) (['?'] ++ '|' :: rest)
      exact Reads.bind_fails reads_char (fails_chars_cons (by simp))

theorem reads_keyTest (row : Nat) (junction : Junction) (presence : Presence)
    (quoteless : ∀ name ∈ first :: others, '\'' ∉ name.toList) :
    Reads keyTest (Dialect.postgres.tags row junction presence (first :: others)).text.toList []
      (keyTestOf row (first :: others) junction presence) := by
  have keys : Reads (joinedBy "," literal) ((Piece.tag first).text.toList ++ others.flatMap fun name =>
      ",".toList ++ (Piece.tag name).text.toList) ("]".toList ++ []) (first :: others.map id) :=
    reads_joinedBy (fun name => (Piece.tag name).text.toList) id (fun more => more.head? ≠ some '\'')
      (fun name member _ differs => reads_literal (quoteless name member) differs)
      (by decide) (fun _ => by simp) (by simp) (fails_word (c := ',') rfl (by simp))
  rw [List.map_id] at keys
  rw [toList_postgresTags, arrayOperator_eq row (first :: others)]
  generalize isTest : keyTestOf row (first :: others) junction presence = test
  have made : (⟨test.negated, row, test.junction, first :: others⟩ : KeyTest) = test := by
    rw [← isTest]
    cases junction <;> cases presence <;> rfl
  have negated : (if test.negated then some () else none).isSome = test.negated := by
    cases test.negated <;> rfl
  refine Reads.bind (reads_negation test.negated ?_) (Reads.bind (reads_rowName row ?_) ?_)
  · exact fails_word (c := 'N') rfl (by simp [rowName])
  · exact stops_cons.mpr (by decide)
  · refine Reads.bind (reads_word ".entity ") (Reads.bind (reads_keyOperator test.junction) ?_)
    refine Reads.bind (reads_word " array[") (Reads.bind keys (Reads.last (reads_word "]") ?_))
    rw [negated, made]
    exact reads_pure

/-! ## SQLite -/

/-- The tests of places that stand for a test of tags. -/
def placeTestOf (row : Nat) (presence : Presence) (name : String) : PlaceTest := ⟨row, "$." ++ name, presence⟩

theorem all_placeTestOf (row : Nat) (presence : Presence) (names : List String) :
    (names.map (placeTestOf row presence)).all (·.holds findings) =
      tagsHold (Dialect.sqlite.finds findings row) names .all presence := by
  rw [List.all_map]
  cases presence with
  | present => rfl
  | absent => rw [tagsHold, List.not_any_eq_all_not]; rfl

theorem any_placeTestOf (row : Nat) (presence : Presence) (names : List String) :
    (names.map (placeTestOf row presence)).any (·.holds findings) =
      tagsHold (Dialect.sqlite.finds findings row) names .any presence := by
  rw [List.any_map]
  cases presence with
  | present => rfl
  | absent => rw [tagsHold, List.not_all_eq_any_not]; rfl

/-- What is written for the test of one tag. -/
def placeText (row : Nat) (presence : Presence) (name : String) : List Char :=
  match presence with
  | .present => (Dialect.sqlite.present ⟨row, name⟩).text.toList
  | .absent => (Dialect.sqlite.absent ⟨row, name⟩).text.toList

theorem placeText_eq (row : Nat) (presence : Presence) (name : String) : placeText row presence name =
    "json_extract(".toList ++ ((rowName row).toList ++ (".entity,".toList ++
      ((Piece.tag ("$." ++ name)).text.toList ++ (") IS ".toList ++
        ((if presence == .present then "NOT " else "").toList ++ "NULL".toList))))) := by
  cases presence <;>
  · simp only [placeText, Dialect.present, Dialect.absent, Dialect.value, Script.text_append,
      Script.text_code, Script.text_tag, Script.text_row, String.toList_append, List.append_assoc]
    rfl

theorem reads_placeTest (row : Nat) (presence : Presence) (quoteless : '\'' ∉ name.toList) :
    Reads placeTest (placeText row presence name) rest (placeTestOf row presence name) := by
  have made : (if (if presence == .present then some () else none).isSome then .present else .absent) =
      presence := by
    cases presence <;> rfl
  rw [placeText_eq]
  refine Reads.bind (reads_word "json_extract(") (Reads.bind (reads_rowName row ?_) ?_)
  · exact stops_cons.mpr (by decide)
  · refine Reads.bind (reads_word ".entity,") (Reads.bind (reads_literal ?_ ?_) ?_)
    · simpa using quoteless
    · simp
    · refine Reads.bind (reads_word ") IS ") (Reads.bind (reads_negation _ ?_) ?_)
      · change Fails (chars ['N', 'O', 'T', ' ']) (['N'] ++ (['U', 'L', 'L'] ++ rest))
        exact Reads.bind_fails reads_char (fails_chars_cons (by simp))
      · refine Reads.last (reads_word "NULL") ?_
        rw [made]
        exact reads_pure

theorem toList_sqliteTags (row : Nat) (junction : Junction) (presence : Presence) (first : String)
    (others : List String) : (Dialect.sqlite.tags row junction presence (first :: others)).text.toList =
      '(' :: ((placeText row presence first ++ others.flatMap fun name =>
        (connective junction).toList ++ placeText row presence name) ++ [')']) := by
  have opened : "(".toList = ['('] := by decide
  have closed : ")".toList = [')'] := by decide
  unfold Dialect.tags
  cases presence <;> cases junction <;>
    simp only [Script.text_append, Script.text_code, List.map_cons, String.toList_append,
      Script.toList_separated, List.flatMap_map, List.append_assoc, placeText, connective, opened, closed,
      List.singleton_append]

theorem fails_connective {junction other : Junction} (differs : junction ≠ other) :
    Fails (word (connective junction)) ((connective other).toList ++ rest) := by
  cases junction <;> cases other
  · exact absurd rfl differs
  · change Fails (chars [' ', 'A', 'N', 'D', ' ']) ([' '] ++ (['O', 'R', ' '] ++ rest))
    exact Reads.bind_fails reads_char (fails_chars_cons (by simp))
  · change Fails (chars [' ', 'O', 'R', ' ']) ([' '] ++ (['A', 'N', 'D', ' '] ++ rest))
    exact Reads.bind_fails reads_char (fails_chars_cons (by simp))
  · exact absurd rfl differs

theorem reads_joinedPlaces (row : Nat) (presence : Presence) {junction : Junction}
    (fails : Fails (word (connective junction)) rest)
    (quoteless : ∀ name ∈ first :: others, '\'' ∉ name.toList) :
    Reads (joinedBy (connective junction) placeTest) (placeText row presence first ++
      others.flatMap fun name => (connective junction).toList ++ placeText row presence name) rest
      (placeTestOf row presence first :: others.map (placeTestOf row presence)) :=
  reads_joinedBy (placeText row presence) (placeTestOf row presence) (fun _ => True)
    (fun name member _ _ => reads_placeTest row presence (quoteless name member))
    (by cases junction <;> decide) (fun _ => trivial) trivial fails

theorem reads_placeTests (row : Nat) (junction : Junction) (presence : Presence)
    (quoteless : ∀ name ∈ first :: others, '\'' ∉ name.toList) : Reads (placeTests junction)
      (Dialect.sqlite.tags row junction presence (first :: others)).text.toList []
      ((first :: others).map (placeTestOf row presence)) := by
  have ends : Fails (word (connective junction)) ([')'] ++ []) := by
    cases junction <;> exact fails_word (c := ' ') rfl (by simp)
  rw [toList_sqliteTags]
  exact Reads.bind_cons reads_char (Reads.bind (reads_joinedPlaces row presence ends quoteless)
    (Reads.last reads_char reads_pure))

/-- Several tests that are joined in one way are not read as joined in the other. -/
theorem fails_placeTests {junction other : Junction} (differs : junction ≠ other) (row : Nat)
    (presence : Presence) {second : String} (quoteless : '\'' ∉ first.toList) :
    Fails (placeTests junction)
      (Dialect.sqlite.tags row other presence (first :: second :: others)).text.toList := by
  have ends (more : List Char) : Fails (char ')') ((connective other).toList ++ more) := by
    cases other <;> exact fails_char (by simp [connective])
  -- The other word stops the repetition after the first test, where a parenthesis has to stand.
  have single (more : List Char) : Reads (joinedBy (connective junction) placeTest)
      (placeText row presence first) ((connective other).toList ++ more) [placeTestOf row presence first] := by
    have alone := @reads_joinedPlaces ((connective other).toList ++ more) first [] row presence junction
      (fails_connective differs) (List.forall_mem_singleton.mpr quoteless)
    rwa [List.flatMap_nil, List.append_nil] at alone
  rw [toList_sqliteTags, List.flatMap_cons, ← List.singleton_append]
  refine Reads.bind_fails reads_char ?_
  simp only [List.append_assoc]
  exact Reads.bind_fails (single _) (Fails.bind (ends _))

/-! ## Both dialects -/

theorem reads?_postgresTags (row : Nat) (junction : Junction) (presence : Presence)
    (quoteless : ∀ name ∈ first :: others, '\'' ∉ name.toList) :
    Dialect.postgres.reads? findings (Dialect.postgres.tags row junction presence (first :: others)).text =
      some (tagsHold (findings.hasKey row) (first :: others) junction presence) := by
  have read : Reads (do let test ← keyTest; pure (test.holds findings)) _ [] _ :=
    Reads.last (reads_keyTest row junction presence quoteless) reads_pure
  rw [Dialect.reads?, readAll_of_reads read, holds_keyTestOf]
  rfl

theorem reads_conjunction (row : Nat) (presence : Presence)
    (quoteless : ∀ name ∈ first :: others, '\'' ∉ name.toList) :
    Reads (do let tests ← placeTests .all; pure (tests.all (·.holds findings)))
      (Dialect.sqlite.tags row .all presence (first :: others)).text.toList []
      (tagsHold (Dialect.sqlite.finds findings row) (first :: others) .all presence) := by
  rw [← all_placeTestOf]
  exact Reads.last (reads_placeTests row .all presence quoteless) reads_pure

theorem reads?_sqliteTags (row : Nat) (junction : Junction) (presence : Presence)
    (quoteless : ∀ name ∈ first :: others, '\'' ∉ name.toList) :
    Dialect.sqlite.reads? findings (Dialect.sqlite.tags row junction presence (first :: others)).text =
      some (tagsHold (Dialect.sqlite.finds findings row) (first :: others) junction presence) := by
  cases junction with
  | all =>
      rw [Dialect.reads?, readAll_of_reads (reads_conjunction row presence quoteless).orElse]
      rfl
  | any =>
      cases others with
      | nil =>
          -- The test of one tag is written alike for either junction, and read as one of all tags.
          have same : (Dialect.sqlite.tags row .any presence [first]).text =
              (Dialect.sqlite.tags row .all presence [first]).text :=
            String.toList_injective (by rw [toList_sqliteTags, toList_sqliteTags]; rfl)
          rw [Dialect.reads?, same, readAll_of_reads (reads_conjunction row presence quoteless).orElse]
          cases presence <;> simp [tagsHold, Dialect.finds, Except.toOption]
      | cons second others =>
          have disjunction : Reads
              (do let tests ← placeTests .any; pure (tests.any (·.holds findings))) _ [] _ :=
            Reads.last (reads_placeTests row .any presence quoteless) reads_pure
          have noConjunction : Fails
              (do let tests ← placeTests .all; pure (tests.all (·.holds findings)))
              (Dialect.sqlite.tags row .any presence (first :: second :: others)).text.toList :=
            Fails.bind (fails_placeTests (by decide) row presence (quoteless first List.mem_cons_self))
          rw [← List.append_nil (String.toList _)] at noConjunction
          rw [Dialect.reads?, readAll_of_reads (noConjunction.orElse_takes disjunction), any_placeTestOf]
          rfl

/-- What is written for a test of tags is read as holding where all of the tags are present, some are,
none is or some are absent. -/
theorem reads?_tags (dialect : Dialect) (row : Nat) (junction : Junction) (presence : Presence)
    {names : List String} (nonempty : names ≠ []) (quoteless : ∀ name ∈ names, '\'' ∉ name.toList) :
    dialect.reads? findings (dialect.tags row junction presence names).text =
      some (tagsHold (dialect.finds findings row) names junction presence) := by
  obtain ⟨first, others, rfl⟩ := List.exists_cons_of_ne_nil nonempty
  cases dialect with
  | postgres => exact reads?_postgresTags row junction presence quoteless
  | sqlite => exact reads?_sqliteTags row junction presence quoteless

/-! ## Plans -/

/-- A plan holds where its filter does, and a tree of two or more tests of tags is planned as a single
one. Either database reads the tests of tags as they are meant. Those are of one tag or more, without
quotes in their names: no other tests of tags come from a filter that is read. -/
theorem plan_means :
    (∀ (a : Assignment) (filter : Filter) (condition : Condition), filter.condition = .ok condition →
      truth? a filter = some ((Plan.ofCondition condition).truth a)) ∧
    (∀ (dialect : Dialect) (findings : Findings) (row : Nat) (junction : Junction) (presence : Presence)
      (names : List String), names ≠ [] → (∀ name ∈ names, '\'' ∉ name.toList) →
      dialect.reads? findings (dialect.tags row junction presence names).text =
        some (tagsHold (dialect.finds findings row) names junction presence)) ∧
    (∀ (text : String) (filter : Filter), Filter.read text = .ok filter →
      ∃ condition, filter.condition = .ok condition ∧
        ∀ names ∈ (Plan.ofCondition condition).tagLists,
          names ≠ [] ∧ ∀ name ∈ names, '\'' ∉ name.toList) ∧
    ∀ (junction : Junction) (presence : Presence) (filter : Filter) (names : List String),
      TagTree junction presence filter names → 2 ≤ names.length →
      ∃ condition, filter.condition = .ok condition ∧
        Plan.ofCondition condition = .rows (.tags junction presence names) := by
  refine ⟨fun _ _ _ => truth?_of_condition,
    fun dialect _ row junction presence _ => reads?_tags dialect row junction presence,
    fun _ _ => Plan.exists_of_read, fun junction presence filter names tree several => ?_⟩
  obtain ⟨condition, test, isCondition, isPlan, _, isTags⟩ := tree.exists_plan
  exact ⟨condition, isCondition, by rw [isPlan, isTags several]⟩

/-- Neither a site nor a reference nor equipment. -/
def bareFilter : Filter :=
  .and (.and (.missingTag "site") (.missingTag "ref")) (.missingTag "equip")

def bareText : String := "not site and not ref and not equip"

theorem read_bareText : Filter.read bareText = .ok bareFilter := by
  refine Filter.read_of_reads ?_ (stops_cons.mpr (by decide))
  exact @Filter.reads_alternatives_missing _ "site" ["ref", "equip"] (by decide)

theorem plan_means_bareFilter :
    truth? ⟨fun path => path == ⟨["site"]⟩, fun _ _ _ => true⟩ bareFilter = some false ∧
    Dialect.postgres.reads? ⟨fun _ key => key == "dis", fun _ _ => false⟩
      (Dialect.postgres.tags 1 .all .absent ["site", "ref", "equip"]).text = some true ∧
    (∃ condition, bareFilter.condition = .ok condition ∧
      ∀ names ∈ (Plan.ofCondition condition).tagLists,
        names ≠ [] ∧ ∀ name ∈ names, '\'' ∉ name.toList) ∧
    ∃ condition, bareFilter.condition = .ok condition ∧
      Plan.ofCondition condition = .rows (.tags .all .absent ["site", "ref", "equip"]) := by
  have tree : TagTree .all .absent bareFilter ["site", "ref", "equip"] :=
    .and rfl (.and rfl (.missing "site" rfl) (.missing "ref" rfl)) (.missing "equip" rfl)
  have isCondition : bareFilter.condition =
      .ok (.and (.and (.missing ⟨["site"]⟩) (.missing ⟨["ref"]⟩)) (.missing ⟨["equip"]⟩)) := rfl
  exact ⟨plan_means.1 _ _ _ isCondition, plan_means.2.1 _ _ _ _ _ _ (by decide) (by decide),
    plan_means.2.2.1 _ _ read_bareText, plan_means.2.2.2 _ _ _ _ tree (by decide)⟩

end Haystack.Sql
