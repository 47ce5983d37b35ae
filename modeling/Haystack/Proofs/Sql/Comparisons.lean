import Haystack.Proofs.Sql.Expressions
import Haystack.Proofs.Sql.Numbering

/-!
The tests of a query as they are read.

The predicates of PostgreSQL on the keys of an object are read as they are. Of comparisons it is told
that they hold together, and which rows they are about.
-/
namespace Haystack.Sql

open Phrase

namespace Dialect

variable (dialect : Dialect) {field : Field} {script : Script} {items : List Item} {rows : List Nat}

/-! ## Comparisons -/

/-- A value, the sign of an equality and what the value is compared with. -/
theorem shows_signed (holds : Bool) {next : Script} {others : List Item} (shown : script.Shows items)
    (further : next.Shows others) (isPlain : Plain rows items) (alsoPlain : Plain rows others) :
    ∃ items, (script ++ Script.code (equalitySign holds) ++ next).Shows items ∧ Plain rows items := by
  cases holds with
  | true =>
      exact ⟨_, (shown.code [.sign '='] (by decide) (by decide)).followed further, by simp [isPlain, alsoPlain]⟩
  | false =>
      exact ⟨_, (shown.code [.sign '!', .sign '='] (by decide) (by decide)).followed further,
        by simp [isPlain, alsoPlain]⟩

theorem plain_content (content : String) : Plain rows [.literal content] := plain_literal.mpr plain_nil

/-- Numbers are compared with what is stored of them, with or without a unit behind it. -/
theorem shows_magnitude (holds : Bool) (stored : String) (quoteless : '\'' ∉ field.tag.toList) :
    ∃ items, (dialect.equal holds field (.magnitude stored)).Shows items ∧ Plain [field.row] items := by
  have found := dialect.shows_value quoteless
  have plain := dialect.plain_valueItems (List.mem_singleton_self field.row)
  have either : Script.Shows (dialect.value field ++ Script.code " = " ++ Script.quoted stored ++
      Script.code " OR " ++ dialect.value field ++ Script.code " LIKE " ++ Script.quoted (stored ++ " %"))
      (dialect.valueItems field ++ [.sign '='] ++ [.literal stored] ++ [.word "OR"] ++
        dialect.valueItems field ++ [.word "LIKE"] ++ [.literal (stored ++ " %")]) :=
    (((((found.code [.sign '='] (by decide) (by decide)).followed (Script.shows_quoted stored)).code
      [.word "OR"] (by decide) (by decide)).followed found).code [.word "LIKE"] (by decide)
      (by decide)).followed (Script.shows_quoted (stored ++ " %"))
  have inner : Scoped [field.row] (wordsOf (dialect.valueItems field ++ [.sign '='] ++ [.literal stored] ++
      [.word "OR"] ++ dialect.valueItems field ++ [.word "LIKE"] ++ [.literal (stored ++ " %")])) := by
    simp +decide [plain.named, wordsOf, Item.words]
  have same (opening : String) : Script.code opening ++ dialect.value field ++ Script.code " = " ++
      Script.quoted stored ++ Script.code " OR " ++ dialect.value field ++ Script.code " LIKE " ++
      Script.quoted (stored ++ " %") ++ Script.code ")" = Script.code opening ++ (dialect.value field ++
        Script.code " = " ++ Script.quoted stored ++ Script.code " OR " ++ dialect.value field ++
        Script.code " LIKE " ++ Script.quoted (stored ++ " %")) ++ Script.code ")" := by
    simp only [List.append_assoc]
  cases holds with
  | true =>
      refine ⟨[.group _], ?_, plain_group.mpr ⟨inner, plain_nil⟩⟩
      rw [show dialect.equal true field (.magnitude stored) = _ from same "("]
      exact (either.parenthesised "(" [] (by decide) (by decide)).shows
  | false =>
      refine ⟨[.word "NOT", .group _], ?_, plain_word.mpr ⟨by simp +decide, plain_group.mpr ⟨inner, plain_nil⟩⟩⟩
      rw [show dialect.equal false field (.magnitude stored) = _ from same "NOT ("]
      exact (either.parenthesised "NOT (" [.word "NOT"] (by decide) (by decide)).shows

theorem shows_equal (holds : Bool) (value : Match) (quoteless : '\'' ∉ field.tag.toList) :
    ∃ items, (dialect.equal holds field value).Shows items ∧ Plain [field.row] items := by
  have found := dialect.shows_value quoteless
  have plain := dialect.plain_valueItems (List.mem_singleton_self field.row)
  cases value with
  | null =>
      cases holds with
      | true =>
          have shown := found.ending " IS NULL" [.word "IS"] "NULL" (by decide) (by decide)
          exact ⟨_, shown, by simp +decide [plain]⟩
      | false =>
          have shown := found.ending " IS NOT NULL" [.word "IS", .word "NOT"] "NULL" (by decide) (by decide)
          exact ⟨_, shown, by simp +decide [plain]⟩
  | ref name =>
      have first := dialect.shows_firstWord found
      have plainFirst := dialect.plain_firstWordItems plain
      exact shows_signed holds first (Script.shows_quoted ("r:" ++ name)) plainFirst (plain_content _)
  | bool b =>
      cases dialect with
      | postgres => exact shows_signed holds found (Script.shows_quoted _) plain (plain_content _)
      | sqlite =>
          have digit (letters : String) := @Script.shows_letters letters
          cases b with
          | true =>
              exact shows_signed holds found (digit "1" (by decide) (List.all_eq_true.mp (by decide))) plain
                (by simp +decide)
          | false =>
              exact shows_signed holds found (digit "0" (by decide) (List.all_eq_true.mp (by decide))) plain
                (by simp +decide)
  | magnitude stored => exact dialect.shows_magnitude holds stored quoteless
  | container json =>
      cases dialect with
      | postgres =>
          have member : Script.Shows ([.row field.row] ++ Script.code ".entity->" ++ Script.tag field.tag) _ :=
            ((Script.shows_row field.row).code [.sign '.', .word "entity", .sign '-', .sign '>'] (by decide)
              (by decide)).followed (Script.shows_tag quoteless)
          have isMember : Plain [field.row] ([.word (rowName field.row)] ++
              [Token.sign '.', .word "entity", .sign '-', .sign '>'].map .token ++ [.literal field.tag]) := by
            simp +decide [plain_rowName (List.mem_singleton_self field.row)]
          obtain ⟨items, shown, isPlain⟩ :=
            shows_signed holds member (Script.shows_quoted json) isMember (plain_content _)
          have cast := shown.ending "::jsonb" [.sign ':', .sign ':'] "jsonb" (by decide) (by decide)
          exact ⟨_, cast, by simp +decide [isPlain]⟩
      | sqlite => exact shows_signed holds found (Script.shows_quoted json) plain (plain_content _)
  | stored text => exact shows_signed holds found (Script.shows_quoted text) plain (plain_content _)

/-- What the text of a number is read as. -/
def IsNumeral (token : Token) : Prop :=
  token = .sign '-' ∨ token = .sign '.' ∨ ∃ digits : List Char, digits ≠ [] ∧
    (∀ c ∈ digits, c.isDigit = true) ∧ token = .word (String.ofList digits)

theorem lexes_numerals {text : List Char} (chars : ∀ c ∈ text, c.isDigit = true ∨ c = '.' ∨ c = '-') :
    (∃ tokens, (∀ rest, Stops goesOn rest → Scan.gap.tokens (text ++ rest) = tokens ++ Scan.gap.tokens rest) ∧
      ∀ token ∈ tokens, IsNumeral token) ∧
    ∀ digits : List Char, digits ≠ [] → (∀ c ∈ digits, c.isDigit = true) → ∃ tokens, (∀ rest, Stops goesOn rest →
      (Scan.word digits).tokens (text ++ rest) = tokens ++ Scan.gap.tokens rest) ∧
      ∀ token ∈ tokens, IsNumeral token := by
  induction text with
  | nil =>
      refine ⟨⟨[], fun _ _ => rfl, fun _ member => nomatch member⟩, fun digits some all => ?_⟩
      refine ⟨[.word (String.ofList digits)], fun rest stops => Scan.tokens_word digits stops, ?_⟩
      exact List.forall_mem_singleton.mpr (.inr (.inr ⟨digits, some, all, rfl⟩))
  | cons c text ih =>
      obtain ⟨here, rest⟩ := List.forall_mem_cons.mp chars
      obtain ⟨⟨tokens, reads, numerals⟩, goes⟩ := ih rest
      have steps (scan : Scan) (made : List Token) (next : Scan) (step : scan.step c = (made, next))
          (rest : List Char) : scan.tokens (c :: text ++ rest) = made ++ next.tokens (text ++ rest) := by
        rw [List.cons_append, Scan.tokens, step]
      rcases here with isDigit | isSign
      · have isWord : isWordChar c = true := by simp [isWordChar, Char.isAlphanum, isDigit]
        have notQuote : (c == '\'') = false := by
          refine beq_false_of_ne fun isQuote => ?_
          exact absurd (isQuote ▸ isDigit) (by decide)
        constructor
        · obtain ⟨more, reads, numerals⟩ := goes [c] (List.cons_ne_nil _ _) (List.forall_mem_singleton.mpr isDigit)
          refine ⟨more, fun rest stops => ?_, numerals⟩
          rw [steps .gap [] (.word [c]) (by simp [Scan.step, Scan.begin, notQuote, isWord])]
          exact reads rest stops
        · intro digits some all
          obtain ⟨more, reads, numerals⟩ := goes (digits ++ [c]) (by simp)
            (List.forall_mem_append.mpr ⟨all, List.forall_mem_singleton.mpr isDigit⟩)
          refine ⟨more, fun rest stops => ?_, numerals⟩
          rw [steps (.word digits) [] (.word (digits ++ [c])) (by simp [Scan.step, isWord])]
          exact reads rest stops
      · have begins : Scan.begin c = ([.sign c], .gap) ∧ isWordChar c = false ∧ IsNumeral (.sign c) := by
          rcases isSign with rfl | rfl
          · exact ⟨by decide, by decide, .inr (.inl rfl)⟩
          · exact ⟨by decide, by decide, .inl rfl⟩
        obtain ⟨begins, notWord, numeral⟩ := begins
        constructor
        · refine ⟨.sign c :: tokens, fun rest stops => ?_, List.forall_mem_cons.mpr ⟨numeral, numerals⟩⟩
          rw [steps .gap [.sign c] .gap begins, reads rest stops]
          rfl
        · intro digits some all
          refine ⟨.word (String.ofList digits) :: .sign c :: tokens, fun rest stops => ?_, ?_⟩
          · rw [steps (.word digits) [.word (String.ofList digits), .sign c] .gap
              (by simp [Scan.step, notWord, begins, Scan.ended]), reads rest stops]
            rfl
          · exact List.forall_mem_cons.mpr ⟨.inr (.inr ⟨digits, some, all, rfl⟩),
              List.forall_mem_cons.mpr ⟨numeral, numerals⟩⟩

theorem isDigit_word {digits : List Char} (all : ∀ c ∈ digits, c.isDigit = true) :
    keywords.contains (String.ofList digits) = false ∧ isRowName (String.ofList digits) = false := by
  constructor
  · have other : ∀ word ∈ keywords, word.toList.any (!Char.isDigit ·) = true := by decide
    refine Bool.eq_false_iff.mpr fun contained => ?_
    have letter := other _ (List.contains_iff_mem.mp contained)
    rw [String.toList_ofList, List.any_eq_true] at letter
    obtain ⟨c, member, notDigit⟩ := letter
    rw [all c member] at notDigit
    exact nomatch notDigit
  · rw [isRowName, String.toList_ofList]
    split
    · exact absurd (all 't' List.mem_cons_self) (by decide)
    · rfl

theorem plain_numerals {tokens : List Token} (numerals : ∀ token ∈ tokens, IsNumeral token) :
    Plain rows (tokens.map .token) := by
  induction tokens with
  | nil => exact plain_nil
  | cons token tokens ih =>
      obtain ⟨here, rest⟩ := List.forall_mem_cons.mp numerals
      rw [List.map_cons]
      rcases here with rfl | rfl | ⟨digits, _, all, rfl⟩
      · exact plain_sign.mpr (ih rest)
      · exact plain_sign.mpr (ih rest)
      · obtain ⟨notKeyword, notName⟩ := isDigit_word all
        exact plain_word.mpr ⟨⟨notKeyword, scoped_cons.mpr ⟨by simp [notName], scoped_nil⟩⟩, ih rest⟩

theorem shows_write (x : Binary64) : ∃ items,
    (Script.code (Decimal.write Decimal.plain x)).Shows items ∧ Plain rows items := by
  cases x with
  | nan => exact ⟨_, Script.shows_letters (by decide) (List.all_eq_true.mp (by decide)), by simp +decide⟩
  | infinity negative =>
      cases negative with
      | false => exact ⟨_, Script.shows_letters (by decide) (List.all_eq_true.mp (by decide)), by simp +decide⟩
      | true =>
          exact ⟨_, Script.shuts_nil.shows.ending "-inf" [.sign '-'] "inf" (by decide) (by decide), by simp +decide⟩
  | finite negative significand exponent stored =>
      obtain ⟨⟨tokens, reads, numerals⟩, _⟩ :=
        lexes_numerals (Decimal.isSigned_write Decimal.plain (x := .finite negative significand exponent stored) rfl).chars
      refine ⟨_, ⟨tokens, fun rest stops => ?_, groups_tokens fun token member => ?_⟩, plain_numerals numerals⟩
      · rw [Script.text_code, reads rest stops]
      · rcases numerals token member with rfl | rfl | ⟨_, _, _, rfl⟩ <;> simp

theorem divides_symbol (comparison : Comparison) : Script.Divides (" " ++ comparison.symbol ++ " ")
    (comparison.symbol.toList.map .sign) ∧
      ∀ token ∈ comparison.symbol.toList.map Token.sign, token ≠ .sign '(' ∧ token ≠ .sign ')' := by
  cases comparison <;> decide

theorem plain_signs (chars : List Char) : Plain rows ((chars.map Token.sign).map .token) := by
  induction chars with
  | nil => exact plain_nil
  | cons c chars ih => exact plain_sign.mpr ih

/-- The values of a kind, and the sign after them. -/
theorem shuts_compared (comparison : Comparison) (letter : String) (quoteless : '\'' ∉ field.tag.toList)
    (shown : script.Shows items) (plain : Plain [field.row] items) : ∃ items,
      (dialect.ofKind letter field script ++ Script.code (" " ++ comparison.symbol ++ " ")).Shuts items ∧
        Plain [field.row] items := by
  obtain ⟨symbol, bare⟩ := divides_symbol comparison
  obtain ⟨items, shown, isPlain⟩ := dialect.shows_ofKind letter quoteless shown plain
  exact ⟨_, shown.code _ bare symbol, plain_append.mpr ⟨isPlain, plain_signs _⟩⟩

/-- A literal with the name of its type before it. -/
theorem shows_typed (shuts : script.Shuts items) (plain : Plain rows items) {text : String} (name content : String)
    (isName : Plain rows [.word name]) (runs : Scan.gap.run text.toList = ([.word name], .gap)) : ∃ items,
      (script ++ Script.code text ++ Script.quoted content).Shows items ∧ Plain rows items := by
  have bare : ∀ token ∈ [Token.word name], token ≠ .sign '(' ∧ token ≠ .sign ')' := by simp
  exact ⟨_, (shuts.append (Script.shuts_code _ bare runs)).followed (Script.shows_quoted content),
    plain_append.mpr ⟨plain_append.mpr ⟨plain, isName⟩, plain_content content⟩⟩

/-- A literal between the parentheses of a function. -/
theorem shows_called (shuts : script.Shuts items) (plain : Plain rows items) {text : String} (name content : String)
    (isName : Plain rows [.word name]) (runs : Scan.gap.run text.toList = ([.word name, .sign '('], .gap)) :
    ∃ items, (script ++ Script.code text ++ Script.quoted content ++ Script.code ")").Shows items ∧
      Plain rows items := by
  have argument := (Script.shows_quoted content).parenthesised text [.word name] (by simp) runs
  refine ⟨items ++ (List.map Item.token [.word name] ++ [.group [.literal content]]), ?_, plain_append.mpr ⟨plain,
    plain_append.mpr ⟨isName, plain_group.mpr ⟨scoped_nil, plain_nil⟩⟩⟩⟩
  simpa only [List.append_assoc] using (shuts.append argument).shows

theorem shows_ordered (comparison : Comparison) (limit : Limit) (quoteless : '\'' ∉ field.tag.toList) :
    ∃ items, (dialect.ordered comparison field limit).Shows items ∧ Plain [field.row] items := by
  obtain ⟨payload, shown, plain⟩ := dialect.shows_payload quoteless
  have first := dialect.shows_firstWord shown
  have plainFirst := dialect.plain_firstWordItems plain
  have kind (letter : String) {script : Script} {items : List Item} (shown : script.Shows items) :=
    dialect.shuts_compared comparison letter quoteless shown
  cases dialect with
  | postgres =>
      cases limit with
      | number x =>
          obtain ⟨_, shuts, isPlain⟩ := kind "n" (first.ending "::float" [.sign ':', .sign ':'] "float" (by decide)
            (by decide)) (by simp +decide [plainFirst])
          obtain ⟨_, written, alsoPlain⟩ := shows_write x
          exact ⟨_, shuts.followed written, plain_append.mpr ⟨isPlain, alsoPlain⟩⟩
      | time t =>
          obtain ⟨_, shuts, isPlain⟩ := kind "h" (shown.ending "::TIME" [.sign ':', .sign ':'] "TIME" (by decide)
            (by decide)) (by simp +decide [plain])
          exact shows_typed shuts isPlain "TIME" t.text (by simp +decide) (by decide)
      | dateTime d =>
          have cast := first.ending "::TIMESTAMPTZ" [.sign ':', .sign ':'] "TIMESTAMPTZ" (by decide) (by decide)
          obtain ⟨_, shuts, isPlain⟩ := kind "t" cast (by simp +decide [plainFirst])
          exact shows_typed shuts isPlain "TIMESTAMPTZ" (d.rfc3339 false) (by simp +decide) (by decide)
      | date d =>
          obtain ⟨_, shuts, isPlain⟩ := kind "d" (shown.ending "::DATE" [.sign ':', .sign ':'] "DATE" (by decide)
            (by decide)) (by simp +decide [plain])
          exact shows_typed shuts isPlain "DATE" d.text (by simp +decide) (by decide)
      | str s =>
          obtain ⟨_, shuts, isPlain⟩ := kind "s" (postgres.shows_value quoteless)
            (postgres.plain_valueItems (List.mem_singleton_self field.row))
          exact ⟨_, shuts.followed (Script.shows_quoted _), by simp [isPlain]⟩
  | sqlite =>
      cases limit with
      | number x =>
          have cast := (first.enclosed "CAST(" " AS REAL)" [.word "CAST"] [.word "AS", .word "REAL"] (by decide)
            (by decide) (by decide)).shows
          obtain ⟨_, shuts, isPlain⟩ := kind "n" cast (by simp +decide [plainFirst.named, wordsOf, Item.words])
          obtain ⟨_, written, alsoPlain⟩ := shows_write x
          exact ⟨_, shuts.followed written, plain_append.mpr ⟨isPlain, alsoPlain⟩⟩
      | time t =>
          obtain ⟨_, shuts, isPlain⟩ := kind "h" (shown.parenthesised "time(" [.word "time"] (by decide)
            (by decide)).shows (by simp +decide [plain.named])
          exact shows_called shuts isPlain "time" t.text (by simp +decide) (by decide)
      | dateTime d =>
          obtain ⟨_, shuts, isPlain⟩ := kind "t" (first.parenthesised "datetime(" [.word "datetime"] (by decide)
            (by decide)).shows (by simp +decide [plainFirst.named])
          exact shows_called shuts isPlain "datetime" (d.rfc3339 false) (by simp +decide) (by decide)
      | date d =>
          obtain ⟨_, shuts, isPlain⟩ := kind "d" (shown.parenthesised "date(" [.word "date"] (by decide)
            (by decide)).shows (by simp +decide [plain.named])
          exact shows_called shuts isPlain "date" d.text (by simp +decide) (by decide)
      | str s =>
          obtain ⟨_, shuts, isPlain⟩ := kind "s" (sqlite.shows_value quoteless)
            (sqlite.plain_valueItems (List.mem_singleton_self field.row))
          exact ⟨_, shuts.followed (Script.shows_quoted _), by simp [isPlain]⟩

end Dialect

/-! ## Tests -/

namespace Test

def isJoined : Test → Bool
  | .and _ _ | .or _ _ => true
  | _ => false

/-- How PostgreSQL reads a test of keys. -/
def keyItems? : Test → Option (List Item)
  | .present field => some (Dialect.postgres.presentItems field)
  | .absent field => some (Dialect.postgres.absentItems field)
  | .tags row junction presence names => some (Dialect.keysItems row junction presence names)
  | _ => none

end Test

/-- The items that a test may be shown as. The tests that are joined stand between parentheses. -/
inductive Dialect.Displays (dialect : Dialect) : Test → List Item → Prop where
  | single {test : Test} {items : List Item} (whole : test.isJoined = false) (plain : Plain test.rows items)
      (known : dialect = .postgres → ∀ same ∈ test.keyItems?, items = same) : Displays dialect test items
  | and {left right : Test} {items others : List Item} (isLeft : Displays dialect left items)
      (isRight : Displays dialect right others) :
      Displays dialect (.and left right) [.group items, .word "AND", .group others]
  | or {left right : Test} {items others : List Item} (isLeft : Displays dialect left items)
      (isRight : Displays dialect right others) :
      Displays dialect (.or left right) [.group items, .word "OR", .group others]

theorem Dialect.Displays.named {dialect : Dialect} {test : Test} {items : List Item}
    (displays : dialect.Displays test items) : Scoped test.rows (wordsOf items) := by
  induction displays with
  | single whole plain known => exact plain.named
  | and isLeft isRight leftIh rightIh | or isLeft isRight leftIh rightIh =>
      simp +decide [wordsOf, Item.words, Test.rows, leftIh.mono (List.subset_append_left _ _),
        rightIh.mono (List.subset_append_right _ _)]

theorem Script.Shows.joined {left right : Script} {items others : List Item} (isLeft : left.Shows items)
    (isRight : right.Shows others) (between : String) (word : String)
    (divides : Divides between [.sign ')', .word word, .sign '(']) :
    (Script.code "(" ++ left ++ Script.code between ++ right ++ Script.code ")").Shows
      [.group items, .word word, .group others] := by
  obtain ⟨_, lexes, groups⟩ := isLeft
  obtain ⟨_, further, more⟩ := isRight
  refine ⟨_, (((((seals_code [.sign '('] (by decide)).followed lexes).code _ divides).followed further).code
    [.sign ')'] (by decide)).lexes, fun _ _ _ => ?_⟩
  simp [groups _ _ _, more _ _ _]

/-- A test is read as it is meant: by itself, or as two groups and what joins them. -/
theorem Dialect.exists_displays (dialect : Dialect) {test : Test} (quoteless : Quoteless test.names) :
    ∃ items, (dialect.test test).Shows items ∧ dialect.Displays test items := by
  induction test with
  | present field =>
      have name := quoteless _ List.mem_cons_self
      refine ⟨_, dialect.shows_present name, .single rfl (dialect.plain_presentItems List.mem_cons_self) ?_⟩
      rintro rfl _ ⟨⟩
      rfl
  | absent field =>
      have name := quoteless _ List.mem_cons_self
      refine ⟨_, dialect.shows_absent name, .single rfl (dialect.plain_absentItems List.mem_cons_self) ?_⟩
      rintro rfl _ ⟨⟩
      rfl
  | tags row junction presence names =>
      cases dialect with
      | postgres =>
          refine ⟨_, shows_keys row junction presence quoteless,
            .single rfl (plain_keysItems junction presence names List.mem_cons_self) ?_⟩
          rintro - _ ⟨⟩
          rfl
      | sqlite =>
          obtain ⟨items, shown, plain⟩ := shows_places row junction presence quoteless
          exact ⟨items, shown, .single rfl plain nofun⟩
  | equal holds field value =>
      obtain ⟨items, shown, plain⟩ := dialect.shows_equal holds value (quoteless _ List.mem_cons_self)
      exact ⟨items, shown, .single rfl plain nofun⟩
  | ordered comparison field limit =>
      obtain ⟨items, shown, plain⟩ := dialect.shows_ordered comparison limit (quoteless _ List.mem_cons_self)
      exact ⟨items, shown, .single rfl plain nofun⟩
  | and left right leftIh rightIh =>
      obtain ⟨onLeft, onRight⟩ := quoteless_append.mp quoteless
      obtain ⟨items, isLeft, displaysLeft⟩ := leftIh onLeft
      obtain ⟨others, isRight, displaysRight⟩ := rightIh onRight
      exact ⟨_, isLeft.joined isRight _ "AND" (by decide), .and displaysLeft displaysRight⟩
  | or left right leftIh rightIh =>
      obtain ⟨onLeft, onRight⟩ := quoteless_append.mp quoteless
      obtain ⟨items, isLeft, displaysLeft⟩ := leftIh onLeft
      obtain ⟨others, isRight, displaysRight⟩ := rightIh onRight
      exact ⟨_, isLeft.joined isRight _ "OR" (by decide), .or displaysLeft displaysRight⟩

end Haystack.Sql
