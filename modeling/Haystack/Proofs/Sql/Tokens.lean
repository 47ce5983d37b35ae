import Haystack.Proofs.Decimal
import Haystack.Proofs.Phrase
import Haystack.Proofs.Sql.Quoting
import Haystack.Proofs.Sql.Tags

/-!
Statements as trees of tokens.

A statement is read as words, literals and signs, and what stands between parentheses as a group. The
pieces of a script are read one by one: a word or literal goes on until the next piece begins with
another character.
-/
namespace Haystack.Sql

open Phrase

inductive Token where
  | word (letters : String)
  | literal (content : String)
  | sign (c : Char)
deriving DecidableEq

/-- What a reader of tokens is in. A literal is closed until a quote follows its last one. -/
inductive Scan where
  | gap
  | word (letters : List Char)
  | inside (content : List Char)
  | closed (content : List Char)
deriving DecidableEq

def isWordChar (c : Char) : Bool := c.isAlphanum || c == '_'

/-- A character that a word or a literal before it would go on with. -/
def goesOn (c : Char) : Bool := isWordChar c || c == '\''

namespace Scan

/-- The token that ends. A literal that is left open is no literal. -/
def ended : Scan → List Token
  | .gap => []
  | .word letters => [.word (String.ofList letters)]
  | .inside _ => [.sign '\'']
  | .closed content => [.literal (String.ofList content)]

def begin (c : Char) : List Token × Scan :=
  if c == '\'' then ([], .inside [])
  else if isWordChar c then ([], .word [c])
  else if c == ' ' || c == '\n' then ([], .gap)
  else ([.sign c], .gap)

/-- The tokens that end with a character, and what the reader is in after it. -/
def step (scan : Scan) (c : Char) : List Token × Scan :=
  match scan with
  | .inside content => ([], if c == '\'' then .closed content else .inside (content ++ [c]))
  | .closed content =>
      if c == '\'' then ([], .inside (content ++ ['\'']))
      else (scan.ended ++ (begin c).1, (begin c).2)
  | .word letters =>
      if isWordChar c then ([], .word (letters ++ [c])) else (scan.ended ++ (begin c).1, (begin c).2)
  | .gap => begin c

def tokens : Scan → List Char → List Token
  | scan, [] => scan.ended
  | scan, c :: rest => (scan.step c).1 ++ tokens (scan.step c).2 rest

/-- The tokens of a text that end in it, and what the reader is in at its end. -/
def run : Scan → List Char → List Token × Scan
  | scan, [] => ([], scan)
  | scan, c :: rest =>
      let (tokens, last) := run (scan.step c).2 rest
      ((scan.step c).1 ++ tokens, last)

variable {scan last : Scan} {text rest : List Char} {made : List Token}

theorem tokens_append (scan : Scan) (text rest : List Char) :
    scan.tokens (text ++ rest) = (scan.run text).1 ++ (scan.run text).2.tokens rest := by
  induction text generalizing scan with
  | nil => rfl
  | cons c text ih => rw [List.cons_append, tokens, ih, run, List.append_assoc]

theorem tokens_of_run (runs : scan.run text = (made, last)) (rest : List Char) :
    scan.tokens (text ++ rest) = made ++ last.tokens rest := by
  rw [tokens_append, runs]

theorem tokens_word (letters : List Char) (stops : Stops goesOn rest) :
    (Scan.word letters).tokens rest = .word (String.ofList letters) :: gap.tokens rest := by
  cases rest with
  | nil => rfl
  | cons c rest =>
      obtain ⟨other, _⟩ := Bool.or_eq_false_iff.mp (stops_cons.mp stops)
      simp only [tokens, step, other, Bool.false_eq_true, if_false, ended, List.cons_append, List.nil_append]

theorem tokens_closed (content : List Char) (stops : Stops goesOn rest) :
    (closed content).tokens rest = .literal (String.ofList content) :: gap.tokens rest := by
  cases rest with
  | nil => rfl
  | cons c rest =>
      obtain ⟨_, other⟩ := Bool.or_eq_false_iff.mp (stops_cons.mp stops)
      simp only [tokens, step, other, Bool.false_eq_true, if_false, ended, List.cons_append, List.nil_append]

theorem run_word (letters : List Char) (all : ∀ c ∈ text, isWordChar c = true) :
    (Scan.word letters).run text = ([], .word (letters ++ text)) := by
  induction text generalizing letters with
  | nil => rw [run, List.append_nil]
  | cons c text ih =>
      obtain ⟨here, rest⟩ := List.forall_mem_cons.mp all
      have goes : (Scan.word letters).step c = ([], .word (letters ++ [c])) := by simp [step, here]
      rw [run, goes, ih _ rest, List.append_assoc]
      rfl

theorem run_inside (before content : List Char) :
    (inside before).run (escape content ++ ['\'']) = ([], closed (before ++ content)) := by
  induction content generalizing before with
  | nil => simp [escape, run, step]
  | cons c content ih =>
      rw [escape, List.flatMap_cons, ← escape]
      by_cases isQuote : c = '\''
      · simp [isQuote, run, step, ih]
      · simp [isQuote, run, step, ih]

end Scan

/-! ## Scripts -/

namespace Script

/-- What is written is read as these tokens if what follows does not go on with the last of them. -/
def Lexes (script : Script) (tokens : List Token) : Prop :=
  ∀ rest, Stops goesOn rest → Scan.gap.tokens (script.text.toList ++ rest) = tokens ++ Scan.gap.tokens rest

/-- What is written is read as these tokens, whatever follows. -/
def Seals (script : Script) (tokens : List Token) : Prop :=
  ∀ rest, Scan.gap.tokens (script.text.toList ++ rest) = tokens ++ Scan.gap.tokens rest

variable {script next : Script} {tokens more : List Token} {text : String}

theorem Seals.lexes (seals : script.Seals tokens) : script.Lexes tokens := fun rest _ => seals rest

theorem Seals.append (first : script.Seals tokens) (second : next.Seals more) :
    (script ++ next).Seals (tokens ++ more) := fun rest => by
  rw [text_append, String.toList_append, List.append_assoc, first, second, List.append_assoc]

theorem Seals.followed (first : script.Seals tokens) (second : next.Lexes more) :
    (script ++ next).Lexes (tokens ++ more) := fun rest stops => by
  rw [text_append, String.toList_append, List.append_assoc, first, second rest stops, List.append_assoc]

theorem seals_nil : Seals [] [] := fun _ => rfl

theorem seals_code (tokens : List Token) (runs : Scan.gap.run text.toList = (tokens, .gap)) :
    (code text).Seals tokens := fun rest => by
  rw [text_code, Scan.tokens_of_run runs]

/-- A text that ends what is before it, and itself with a blank or a sign. -/
def Divides (text : String) (tokens : List Token) : Prop :=
  text.toList.head?.any (!goesOn ·) = true ∧ Scan.gap.run text.toList = (tokens, .gap)

instance (text : String) (tokens : List Token) : Decidable (Divides text tokens) := inferInstanceAs (Decidable (_ ∧ _))

theorem stops_of_head {text : List Char} (head : text.head?.any (!goesOn ·) = true) (rest : List Char) :
    Stops goesOn (text ++ rest) := by
  cases text with
  | nil => exact nomatch head
  | cons c text => simpa using head

theorem Lexes.code (lexes : script.Lexes tokens) (more : List Token) (divides : Divides text more) :
    (script ++ Script.code text).Seals (tokens ++ more) := fun rest => by
  rw [text_append, text_code, String.toList_append, List.append_assoc, lexes _ (stops_of_head divides.1 rest),
    Scan.tokens_of_run divides.2, List.append_assoc]

/-- A text after a script that ends in a word itself. -/
theorem Lexes.ending (lexes : script.Lexes tokens) (more : List Token) (letters : String)
    (head : text.toList.head?.any (!goesOn ·) = true)
    (runs : Scan.gap.run text.toList = (more, .word letters.toList)) :
    (script ++ Script.code text).Lexes (tokens ++ (more ++ [.word letters])) := fun rest stops => by
  rw [text_append, text_code, String.toList_append, List.append_assoc, lexes _ (stops_of_head head rest),
    Scan.tokens_of_run runs, Scan.tokens_word _ stops, String.ofList_toList]
  simp

theorem isWordChar_of_rowName (row : Nat) : ∀ c ∈ (rowName row).toList, isWordChar c = true := by
  intro c member
  rw [rowName, String.toList_append, Nat.toList_repr] at member
  rcases List.mem_append.mp member with isLetter | isDigit
  · exact List.all_eq_true.mp (by decide : "t".toList.all isWordChar = true) c isLetter
  · have digit := Nat.isDigit_of_mem_toDigits (by omega) (by omega) isDigit
    simp [isWordChar, Char.isAlphanum, digit]

theorem lexes_letters {letters : String} (some : letters ≠ "") (all : ∀ c ∈ letters.toList, isWordChar c = true)
    {rest : List Char} (stops : Stops goesOn rest) :
    Scan.gap.tokens (letters.toList ++ rest) = .word letters :: Scan.gap.tokens rest := by
  have nonempty : letters.toList ≠ [] := fun none => some (String.toList_injective none)
  obtain ⟨first, others, shape⟩ := List.exists_cons_of_ne_nil nonempty
  rw [shape] at all
  obtain ⟨isFirst, isRest⟩ := List.forall_mem_cons.mp all
  have notQuote : (first == '\'') = false := by
    refine beq_false_of_ne fun isQuote => ?_
    exact absurd (isQuote ▸ isFirst) (by decide)
  have starts : Scan.gap.step first = ([], .word [first]) := by simp [Scan.step, Scan.begin, notQuote, isFirst]
  rw [shape, List.cons_append, Scan.tokens, starts, Scan.tokens_append, Scan.run_word _ isRest,
    Scan.tokens_word _ stops, List.singleton_append, ← shape, String.ofList_toList]
  rfl

theorem rowName_ne_empty (row : Nat) : rowName row ≠ "" := by
  intro none
  have letters := congrArg String.toList none
  simp [rowName] at letters

theorem lexes_row (row : Nat) : Lexes [.row row] [.word (rowName row)] := fun rest stops => by
  rw [text_row]
  exact lexes_letters (rowName_ne_empty row) (isWordChar_of_rowName row) stops

theorem lexes_between {content : List Char} {written : List Char}
    (reads : (Scan.inside []).run (written ++ ['\'']) = ([], .closed content)) {rest : List Char}
    (stops : Stops goesOn rest) : Scan.gap.tokens ('\'' :: (written ++ ['\''] ++ rest)) =
      .literal (String.ofList content) :: Scan.gap.tokens rest := by
  change (Scan.inside []).tokens (written ++ ['\''] ++ rest) = _
  rw [Scan.tokens_of_run reads, Scan.tokens_closed content stops]
  rfl

theorem lexes_quoted (content : String) : (quoted content).Lexes [.literal content] := fun rest stops => by
  have text : (quoted content).text.toList = '\'' :: (escape content.toList ++ ['\'']) := by
    simp [quoted, Script.text, Piece.text]
  rw [text, List.cons_append, lexes_between (Scan.run_inside [] content.toList) stops, List.nil_append,
    String.ofList_toList]
  rfl

theorem escape_eq_self {content : List Char} (quoteless : '\'' ∉ content) : escape content = content := by
  induction content with
  | nil => rfl
  | cons c content ih =>
      obtain ⟨here, rest⟩ := not_or.mp (mt List.mem_cons.mpr quoteless)
      rw [escape, List.flatMap_cons, ← escape, ih rest, if_neg (Ne.symm here), List.singleton_append]

theorem lexes_tag {name : String} (quoteless : '\'' ∉ name.toList) : (tag name).Lexes [.literal name] := by
  have same : (tag name).text = (quoted name).text := by
    simp [tag, quoted, Script.text, Piece.text, escape_eq_self quoteless]
  intro rest stops
  rw [same]
  exact lexes_quoted name rest stops

end Script

/-! ## Groups -/

/-- A token, or what stands between parentheses. -/
inductive Item where
  | token (token : Token)
  | group (items : List Item)

namespace Item

@[match_pattern] abbrev word (letters : String) : Item := .token (.word letters)

@[match_pattern] abbrev literal (content : String) : Item := .token (.literal content)

@[match_pattern] abbrev sign (c : Char) : Item := .token (.sign c)

end Item

/-- Read groups: the items before each open parenthesis and those after the last, and what follows. -/
def grouped (outer : List (List Item)) (items : List Item) : List Token → Option (List Item)
  | [] => if outer.isEmpty then some items else none
  | token :: rest =>
      if token = .sign '(' then grouped (items :: outer) [] rest
      else if token = .sign ')' then
        match outer with
        | [] => none
        | before :: outer => grouped outer (before ++ [.group items]) rest
      else grouped outer (items ++ [.token token]) rest

/-- The items of a text whose parentheses match. -/
def items? (text : List Char) : Option (List Item) := grouped [] [] (Scan.gap.tokens text)

section Steps

variable {outer : List (List Item)} {before items : List Item} {rest : List Token}

@[simp] theorem grouped_open : grouped outer items (.sign '(' :: rest) = grouped (items :: outer) [] rest := by
  simp [grouped]

@[simp] theorem grouped_close :
    grouped (before :: outer) items (.sign ')' :: rest) = grouped outer (before ++ [.group items]) rest := by
  simp [grouped]

theorem grouped_token {token : Token} (opens : token ≠ .sign '(') (closes : token ≠ .sign ')') :
    grouped outer items (token :: rest) = grouped outer (items ++ [.token token]) rest := by
  simp only [grouped, if_neg opens, if_neg closes]

@[simp] theorem grouped_word {letters : String} :
    grouped outer items (.word letters :: rest) = grouped outer (items ++ [.word letters]) rest :=
  grouped_token nofun nofun

@[simp] theorem grouped_literal {content : String} :
    grouped outer items (.literal content :: rest) = grouped outer (items ++ [.literal content]) rest :=
  grouped_token nofun nofun

@[simp] theorem grouped_sign {c : Char} (opens : c ≠ '(') (closes : c ≠ ')') :
    grouped outer items (.sign c :: rest) = grouped outer (items ++ [.sign c]) rest :=
  grouped_token (fun same => opens (Token.sign.inj same)) fun same => closes (Token.sign.inj same)

end Steps

/-- Wherever the tokens stand, they are read as these items. -/
def Groups (tokens : List Token) (items : List Item) : Prop :=
  ∀ outer before rest, grouped outer before (tokens ++ rest) = grouped outer (before ++ items) rest

variable {tokens more : List Token} {items others : List Item}

theorem Groups.append (first : Groups tokens items) (second : Groups more others) :
    Groups (tokens ++ more) (items ++ others) := fun outer before rest => by
  rw [List.append_assoc, first, second, List.append_assoc]

theorem groups_nil : Groups [] [] := fun _ before _ => by rw [List.nil_append, List.append_nil]

theorem groups_token {token : Token} (opens : token ≠ .sign '(') (closes : token ≠ .sign ')') :
    Groups [token] [.token token] := fun outer before rest => by
  rw [List.singleton_append, grouped_token opens closes]

theorem groups_tokens (bare : ∀ token ∈ tokens, token ≠ .sign '(' ∧ token ≠ .sign ')') :
    Groups tokens (tokens.map .token) := by
  induction tokens with
  | nil => exact groups_nil
  | cons token tokens ih =>
      obtain ⟨⟨opens, closes⟩, rest⟩ := List.forall_mem_cons.mp bare
      exact (groups_token opens closes).append (ih rest)

namespace Script

/-- What is written is read as these items if what follows does not go on with the last of them. -/
def Shows (script : Script) (items : List Item) : Prop := ∃ tokens, script.Lexes tokens ∧ Groups tokens items

/-- What is written is read as these items, whatever follows. -/
def Shuts (script : Script) (items : List Item) : Prop := ∃ tokens, script.Seals tokens ∧ Groups tokens items

variable {script next : Script}

theorem Shuts.shows (shuts : script.Shuts items) : script.Shows items := by
  obtain ⟨tokens, seals, groups⟩ := shuts
  exact ⟨tokens, seals.lexes, groups⟩

theorem Shuts.append (first : script.Shuts items) (second : next.Shuts others) :
    (script ++ next).Shuts (items ++ others) := by
  obtain ⟨_, seals, groups⟩ := first
  obtain ⟨_, also, more⟩ := second
  exact ⟨_, seals.append also, groups.append more⟩

theorem Shuts.followed (first : script.Shuts items) (second : next.Shows others) :
    (script ++ next).Shows (items ++ others) := by
  obtain ⟨_, seals, groups⟩ := first
  obtain ⟨_, lexes, more⟩ := second
  exact ⟨_, seals.followed lexes, groups.append more⟩

theorem shuts_nil : Shuts [] [] := ⟨[], seals_nil, groups_nil⟩

theorem shuts_code {text : String} (tokens : List Token)
    (bare : ∀ token ∈ tokens, token ≠ .sign '(' ∧ token ≠ .sign ')')
    (runs : Scan.gap.run text.toList = (tokens, .gap)) : (code text).Shuts (tokens.map .token) :=
  ⟨tokens, seals_code tokens runs, groups_tokens bare⟩

/-- A script that begins with a sign or a blank ends what is before it. -/
theorem Shows.sealed (shown : script.Shows items) (head : next.text.toList.head?.any (!goesOn ·) = true)
    (shut : next.Shuts others) : (script ++ next).Shuts (items ++ others) := by
  obtain ⟨_, lexes, groups⟩ := shown
  obtain ⟨_, seals, more⟩ := shut
  refine ⟨_, fun rest => ?_, groups.append more⟩
  rw [text_append, String.toList_append, List.append_assoc, lexes _ (stops_of_head head rest), seals,
    List.append_assoc]

theorem Shows.code (shown : script.Shows items) {text : String} (tokens : List Token)
    (bare : ∀ token ∈ tokens, token ≠ .sign '(' ∧ token ≠ .sign ')') (divides : Divides text tokens) :
    (script ++ Script.code text).Shuts (items ++ tokens.map .token) := by
  obtain ⟨_, lexes, groups⟩ := shown
  exact ⟨_, lexes.code tokens divides, groups.append (groups_tokens bare)⟩

/-- A text after a script that ends in a word itself. -/
theorem Shows.ending (shown : script.Shows items) (text : String) (tokens : List Token) (letters : String)
    (head : text.toList.head?.any (!goesOn ·) = true)
    (bareRuns : (∀ token ∈ tokens, token ≠ .sign '(' ∧ token ≠ .sign ')') ∧
      Scan.gap.run text.toList = (tokens, .word letters.toList)) :
    (script ++ Script.code text).Shows (items ++ (tokens ++ [Token.word letters]).map .token) := by
  obtain ⟨_, lexes, groups⟩ := shown
  refine ⟨_, lexes.ending tokens letters head bareRuns.2, groups.append (groups_tokens ?_)⟩
  exact List.forall_mem_append.mpr ⟨bareRuns.1, List.forall_mem_singleton.mpr (by simp)⟩

theorem shows_row (row : Nat) : Shows [.row row] [.word (rowName row)] :=
  ⟨_, lexes_row row, groups_token (by simp) (by simp)⟩

theorem shows_newRow (row : Nat) : Shows [.newRow row] [.word (rowName row)] := shows_row row

theorem shows_letters {letters : String} (some : letters ≠ "") (all : ∀ c ∈ letters.toList, isWordChar c = true) :
    (Script.code letters).Shows [.word letters] := by
  refine ⟨[.word letters], fun rest stops => ?_, groups_token (by simp) (by simp)⟩
  rw [text_code]
  exact lexes_letters some all stops

/-- A word between two texts. -/
theorem shuts_letters {letters : String} (some : letters ≠ "") (all : ∀ c ∈ letters.toList, isWordChar c = true)
    (before after : String) (opening closing : List Token)
    (bare : ∀ token ∈ opening ++ closing, token ≠ .sign '(' ∧ token ≠ .sign ')')
    (runs : Scan.gap.run before.toList = (opening, .gap)) (divides : Divides after closing) :
    (Script.code (before ++ letters ++ after)).Shuts (opening.map .token ++ .word letters :: closing.map .token) := by
  obtain ⟨first, last⟩ := List.forall_mem_append.mp bare
  obtain ⟨tokens, seals, groups⟩ := ((shuts_code opening first runs).followed (shows_letters some all)).code closing
    last divides
  refine ⟨tokens, fun rest => ?_, by simpa using groups⟩
  rw [← seals rest]
  simp only [text_append, text_code]

theorem shows_quoted (content : String) : (quoted content).Shows [.literal content] :=
  ⟨_, lexes_quoted content, groups_token (by simp) (by simp)⟩

theorem shows_tag {name : String} (quoteless : '\'' ∉ name.toList) : (tag name).Shows [.literal name] :=
  ⟨_, lexes_tag quoteless, groups_token (by simp) (by simp)⟩

/-- What stands between parentheses is read as a group. -/
theorem Shows.enclosed (shown : script.Shows items) (before after : String) (tokens more : List Token)
    (bare : ∀ token ∈ tokens ++ more, token ≠ .sign '(' ∧ token ≠ .sign ')')
    (runs : Scan.gap.run before.toList = (tokens ++ [.sign '('], .gap))
    (divides : Divides after (more ++ [.sign ')'])) :
    (Script.code before ++ script ++ Script.code after).Shuts
      (tokens.map .token ++ [.group (items ++ more.map .token)]) := by
  obtain ⟨inner, lexes, groups⟩ := shown
  obtain ⟨opening, closing⟩ := List.forall_mem_append.mp bare
  refine ⟨_, ((seals_code _ runs).followed lexes).code _ divides, fun outer shown rest => ?_⟩
  have opened := groups_tokens opening outer shown (.sign '(' :: (inner ++ (more ++ .sign ')' :: rest)))
  have closed (before : List Item) := groups_tokens closing ((shown ++ tokens.map .token) :: outer) before
    (.sign ')' :: rest)
  simp [opened, closed, groups _ _ _]

theorem Shows.parenthesised (shown : script.Shows items) (before : String) (tokens : List Token)
    (bare : ∀ token ∈ tokens, token ≠ .sign '(' ∧ token ≠ .sign ')')
    (runs : Scan.gap.run before.toList = (tokens ++ [.sign '('], .gap)) :
    (Script.code before ++ script ++ Script.code ")").Shuts (tokens.map .token ++ [.group items]) := by
  have enclosed := shown.enclosed before ")" tokens [] (by simpa using bare) runs (show Divides ")" [.sign ')'] by decide)
  rwa [List.map_nil, List.append_nil] at enclosed

/-- Scripts with a text between them are read one by one. -/
theorem shows_separated {separator : String} (token : Token) (bare : token ≠ .sign '(' ∧ token ≠ .sign ')')
    (divides : Divides separator [token]) {single : String → Script} {shown : String → List Item}
    {names : List String} (each : ∀ name ∈ names, (single name).Shows (shown name)) :
    (separated separator (names.map single)).Shows (List.intercalate [.token token] (names.map shown)) := by
  induction names with
  | nil => exact shuts_nil.shows
  | cons name names ih =>
      obtain ⟨here, rest⟩ := List.forall_mem_cons.mp each
      cases names with
      | nil => simpa [separated] using here
      | cons next names =>
          have further := (here.code [token] (List.forall_mem_singleton.mpr bare) divides).followed (ih rest)
          simpa [separated, List.intercalate_cons_cons] using further

theorem items?_of_shuts (shut : script.Shuts items) : items? script.text.toList = some items := by
  obtain ⟨tokens, seals, groups⟩ := shut
  have read := groups [] [] []
  rw [List.append_nil, List.nil_append] at read
  rw [items?, ← List.append_nil script.text.toList, seals [], Scan.tokens, Scan.ended, List.append_nil, read]
  rfl

end Script

end Haystack.Sql
