import Haystack.Proofs.Decimal.RoundTrip
import Haystack.Proofs.Filter.Reading
import Haystack.Proofs.Zinc.Values

/-!
Reading back the text of a filter.

Each test of the text is followed by the end of the text, a parenthesis or a connective, and the
parentheses around every `and` and `or` give the tree back as it was.
-/
namespace Haystack.Filter

open Phrase Zinc

variable {rest : List Char} {condition : Phrase (Reading Filter)} {path : Path}

/-! ## What follows a test -/

/-- What may come after a test in the text of a filter. -/
inductive EndsTerm : List Char → Prop where
  | ended : EndsTerm []
  | closed (rest : List Char) : EndsTerm (')' :: rest)
  | further (c : Char) (rest : List Char) (isLower : c.isLower = true) : EndsTerm (' ' :: c :: rest)

theorem isNameStart_of_isLower {c : Char} (isLower : c.isLower = true) : isNameStart c = true := by
  change (c.isUpper || c.isLower || c == '_') = true
  rw [isLower, Bool.or_true, Bool.true_or]

theorem not_isGap_of_isLower {c : Char} (isLower : c.isLower = true) : isGap c = false := by
  by_contra gap
  simp only [isGap, Bool.not_eq_false, Bool.or_eq_true, beq_iff_eq] at gap
  rcases gap with ((rfl | rfl) | rfl) | rfl <;> exact absurd isLower (by decide)

theorem EndsTerm.follows (ends : EndsTerm rest) : Follows rest := by
  cases ends with
  | ended => exact .ended
  | closed rest => exact .separator ')' rest (by decide)
  | further c rest isLower => exact .tag c rest (isNameStart_of_isLower isLower)

theorem EndsTerm.endsPath (ends : EndsTerm rest) : EndsPath rest where
  name := ends.follows.stops_of_all (by decide)
  arrow := ends.follows.head?_ne (by decide) (by decide)

/-- The characters that signs of comparison start with. -/
def isSign (c : Char) : Bool := c == '=' || c == '!' || c == '<' || c == '>'

theorem fails_comparison (stops : Stops isSign rest) : Fails comparison rest := by
  have none {c : Char} {word : String} {sign : Comparison} (front : word.toList.head? = some c)
      (starts : isSign c = true) : Fails (do Phrase.word word; pure sign) rest :=
    Fails.bind (fails_word front (stops.head?_ne starts))
  refine Fails.named (Fails.orElse (none (c := '=') rfl rfl) (Fails.orElse (none (c := '!') rfl rfl) ?_))
  refine Fails.orElse (none (c := '<') rfl rfl) (Fails.orElse (none (c := '>') rfl rfl) ?_)
  exact Fails.orElse (none (c := '<') rfl rfl) (none (c := '>') rfl rfl)

/-- Past blanks, no phrase is found where what follows a test stands that does not start with a lower-case
letter, a parenthesis, or the end. -/
theorem EndsTerm.fails_after_gap (ends : EndsTerm rest) {α : Type} {p : Phrase α} (none : Fails p [])
    (closed : ∀ rest, Fails p (')' :: rest))
    (further : ∀ c more, rest = ' ' :: c :: more → c.isLower = true → Fails p (c :: more)) :
    Fails (do gap; p) rest := by
  refine Filter.fails_after_gap ?_
  cases ends with
  | ended => exact none
  | closed rest => exact closed rest
  | further c rest isLower =>
      rw [List.dropWhile_cons_of_pos rfl, List.dropWhile_cons_of_neg (by simp [not_isGap_of_isLower isLower])]
      exact further c rest rfl isLower

theorem not_isSign_of_isLower {c : Char} (isLower : c.isLower = true) : isSign c = false := by
  by_contra sign
  simp only [isSign, Bool.not_eq_false, Bool.or_eq_true, beq_iff_eq] at sign
  rcases sign with ((rfl | rfl) | rfl) | rfl <;> exact absurd isLower (by decide)

theorem EndsTerm.noSign (ends : EndsTerm rest) : Stops isSign (rest.dropWhile isGap) := by
  cases ends with
  | ended => exact stops_nil
  | closed rest => exact stops_cons.mpr rfl
  | further c rest isLower =>
      rw [List.dropWhile_cons_of_pos rfl, List.dropWhile_cons_of_neg (by simp [not_isGap_of_isLower isLower])]
      exact stops_cons.mpr (not_isSign_of_isLower isLower)

/-! ## Words -/

theorem isIdChar_of_isName {name : String} (isName : isName name = true) :
    ∀ c ∈ name.toList, isIdChar c = true := by
  obtain ⟨first, others, shape, isFirst, areOthers⟩ := exists_of_isName isName
  rw [shape]
  refine List.forall_mem_cons.mpr ⟨?_, areOthers⟩
  change (first.isUpper || first.isLower || first.isDigit || first == '_') = true
  revert isFirst
  cases first.isLower <;> cases first == '_' <;> simp

/-- A word is no keyword unless it is that keyword. -/
theorem fails_keyword_of_ne {word : String} {name : List Char} (isWord : word.toList.all isIdChar = true)
    (isName : ∀ c ∈ name, isIdChar c = true) (differs : name ≠ word.toList) (stops : Stops isIdChar rest) :
    Fails (keyword word) (name ++ rest) := by
  by_cases front : word.toList <+: name
  · obtain ⟨more, rfl⟩ := front
    cases more with
    | nil => simp at differs
    | cons c more =>
        rw [List.append_assoc]
        exact Reads.bind_fails (reads_word word) (fails_notAhead (isName c (by simp)))
  · exact Fails.bind (fails_chars isWord stops front)

theorem fails_pathPhrase (stops : Stops (fun c => c.isLower || c == '_') rest) : Fails pathPhrase rest :=
  Fails.named (Fails.bind (Fails.token (Fails.bind (fails_satisfying stops))))

/-- A path is no test that a path leads to nothing, unless it is `not` with a path after it. -/
theorem fails_missingTest (named : path.IsNamed) (stops : Stops isIdChar rest)
    (alone : path = ⟨["not"]⟩ →
      Fails (do gap; let path ← pathPhrase; pure (Filter.missing (.path path))) rest) :
    Fails missingTest (path.text.toList ++ rest) := by
  obtain ⟨segments⟩ := path
  obtain ⟨first, others, rfl⟩ := List.exists_cons_of_ne_nil named.nonempty
  have ⟨isFirst, areOthers⟩ := List.forall_mem_cons.mp named.names
  rw [toList_pathText, List.append_assoc]
  refine Fails.named ?_
  have noName : Stops isIdChar ((others.flatMap fun name => "->".toList ++ name.toList) ++ rest) := by
    cases others with
    | nil => exact stops
    | cons second others => exact stops_cons.mpr (by decide)
  by_cases same : first = "not"
  · subst same
    refine Reads.bind_fails (reads_keyword "not" noName) ?_
    cases others with
    | nil => exact alone rfl
    | cons second others =>
        exact Reads.skip_fails (reads_gap_nil (stops_cons.mpr rfl))
          (Fails.bind (fails_pathPhrase (stops_cons.mpr rfl)))
  · exact Fails.bind (fails_keyword_of_ne (by decide) (isIdChar_of_isName isFirst)
      (fun equal => same (String.toList_inj.mp equal)) noName)

/-- A sign is told where no other sign goes on from it. -/
theorem reads_comparison (sign : Comparison) (alone : rest.head? ≠ some '=') :
    Reads comparison sign.symbol.toList rest sign := by
  have shorter {c : Char} : Fails (word (String.ofList [c, '='])) (c :: rest) := by
    change Fails _ ([c] ++ rest)
    simp only [word, String.toList_ofList]
    exact Reads.bind_fails reads_char (Fails.bind (fails_char alone))
  have other {c d : Char} {meant : Comparison} {text : List Char} (differs : d ≠ c) :
      Fails (do word (String.ofList [c, '=']); pure meant) (d :: text) :=
    Fails.bind (fails_word (c := c) (by simp) (by simpa using differs))
  refine Takes.named ?_
  cases sign with
  | eq | ne | le | ge => exact reads_of_found fun offset => rfl
  | lt =>
      refine (other (by decide)).orElse_takes ((other (by decide)).orElse_takes ?_)
      refine (Fails.bind shorter).orElse_takes ((other (by decide)).orElse_takes (Takes.orElse ?_))
      exact Reads.last (reads_word "<") reads_pure
  | gt =>
      refine (other (by decide)).orElse_takes ((other (by decide)).orElse_takes ((other (by decide)).orElse_takes ?_))
      refine (Fails.bind shorter).orElse_takes (Fails.orElse_takes (Fails.bind ?_) ?_)
      · exact fails_word (c := '<') rfl (by simp [Comparison.symbol])
      · exact Reads.last (reads_word ">") reads_pure

/-! ## Literals -/

/-- Whether a value itself can be written as a literal and read again. Names of encodings are not those
that truth values have. -/
def IsLiteral : Value → Prop
  | .number n => n.magnitude.isNaN = false ∧
      ∀ unit ∈ n.unit, IsUnit unit ∧ n.magnitude.isFinite = true
  | .xstr x => IsEncoded x ∧ x.encoding ≠ "true" ∧ x.encoding ≠ "false"
  | .ref r => r.name.toList.all isRefChar = true
  | .date d => d.isValid = true ∧ d.HasFourDigits
  | .time t => t.InDay ∧ t.IsProper
  | .dict tags => tags.Distinct ∧ ∀ name ∈ tags.keys, isTagName name = true
  | .dateTime _ | .coord _ | .grid _ => False
  | _ => True

theorem representable_of_isLiteral {value : Value} (isLiteral : IsLiteral value) :
    Representable value ∧ IsVerbatim value := by
  cases value with
  | number n => exact ⟨⟨isLiteral.2, Decimal.read_write _⟩, trivial⟩
  | xstr x => exact ⟨isLiteral.1, trivial⟩
  | dateTime moment => exact isLiteral.elim
  | coord place => exact isLiteral.elim
  | grid g => exact isLiteral.elim
  | _ => exact ⟨isLiteral, trivial⟩

theorem fails_truthValue (noTrue : Fails (keyword "true") rest) (noFalse : Fails (keyword "false") rest) :
    Fails truthValue rest :=
  Fails.token (Fails.orElse (Fails.bind noTrue) (Fails.bind noFalse))

theorem fails_truthValue_of_head {c : Char} (head : rest.head? = some c) (other : c.isLower = false) :
    Fails truthValue rest := by
  refine fails_truthValue (Fails.bind (fails_word (c := 't') rfl ?_))
    (Fails.bind (fails_word (c := 'f') rfl ?_)) <;>
  · rw [head]
    rintro same
    obtain rfl := Option.some.inj same
    exact absurd other (by decide)

theorem isLower_of_isDigit {c : Char} (isDigit : c.isDigit = true) : c.isLower = false :=
  of_isDigit isDigit (by decide)

/-- A value that is no truth value is not written as one. -/
theorem fails_truthValue_of_isLiteral {value : Value} (isLiteral : IsLiteral value)
    (other : ∀ b, value ≠ .bool b) {text : String} (written : writeValue value .latest = .ok text) :
    Fails truthValue (text.toList ++ rest) := by
  have starts {c : Char} (head : text.toList.head? = some c) (upper : c.isLower = false) :
      Fails truthValue (text.toList ++ rest) := by
    refine fails_truthValue_of_head ?_ upper
    rw [List.head?_append, head, Option.some_or]
  cases value with
  | null | marker | remove | na =>
      obtain rfl := Except.ok.inj written
      exact starts rfl (by decide)
  | bool b => exact absurd rfl (other b)
  | number n =>
      obtain rfl := Except.ok.inj written
      have writable := (representable_of_isLiteral isLiteral).1
      obtain ⟨first, others, shape, isFirst, _⟩ := exists_numberText writable
      refine starts (by rw [shape]; rfl) ?_
      rcases isFirst with isDigit | isOther
      · exact isLower_of_isDigit isDigit
      · simp only [List.mem_cons, List.not_mem_nil, or_false] at isOther
        rcases isOther with rfl | rfl | rfl <;> decide
  | str s =>
      obtain rfl := Except.ok.inj written
      exact starts (by rw [quote_toList]; rfl) (by decide)
  | uri s =>
      obtain rfl := Except.ok.inj written
      exact starts (by rw [quoteUri_toList]; rfl) (by decide)
  | bin mime =>
      obtain rfl := Except.ok.inj written
      refine starts (c := 'B') ?_ (by decide)
      rw [binText, if_pos (by decide)]
      simp
  | xstr x =>
      obtain rfl := Except.ok.inj written
      have chars := List.all_eq_true.mp isLiteral.1.word
      have differs {word : String} (isOther : x.encoding ≠ word) : x.encoding.toList ≠ word.toList :=
        fun same => isOther (String.toList_inj.mp same)
      have stops : Stops isIdChar ('(' :: ((quote x.text).toList ++ ')' :: rest)) := stops_cons.mpr (by decide)
      have shape : (x.encoding ++ "(" ++ quote x.text ++ ")").toList ++ rest =
          x.encoding.toList ++ '(' :: ((quote x.text).toList ++ ')' :: rest) := by simp
      rw [shape]
      exact fails_truthValue (fails_keyword_of_ne (by decide) chars (differs isLiteral.2.1) stops)
        (fails_keyword_of_ne (by decide) chars (differs isLiteral.2.2) stops)
  | ref r =>
      obtain rfl := Except.ok.inj written
      refine starts (c := '@') ?_ (by decide)
      cases display : r.display <;> simp [referenceText, display]
  | date d =>
      obtain rfl := Except.ok.inj written
      obtain ⟨year, month, day, shape, ⟨a, b, c, e, rfl⟩, _, _, digits, _⟩ :=
        Date.exists_text isLiteral.1 isLiteral.2
      exact starts (by rw [shape]; rfl) (isLower_of_isDigit (digits a (by simp)))
  | time t =>
      obtain rfl := Except.ok.inj written
      obtain ⟨hour, minute, second, fraction, shape, ⟨a, b, rfl⟩, _, _, digits, _⟩ :=
        TimeOfDay.exists_text isLiteral.1
      exact starts (by rw [shape]; rfl) (isLower_of_isDigit (digits a (by simp)))
  | list items =>
      rw [writeValue] at written
      obtain ⟨_, _, written⟩ := Outcome.of_bind written
      obtain ⟨texts, _, made⟩ := Outcome.of_bind written
      obtain rfl := Except.ok.inj made
      exact starts (c := '[') (by simp) (by decide)
  | dict tags =>
      rw [writeValue] at written
      obtain ⟨_, _, written⟩ := Outcome.of_bind written
      obtain ⟨texts, _, made⟩ := Outcome.of_bind written
      obtain rfl := Except.ok.inj made
      exact starts (c := '\x7b') (by simp) (by decide)
  | dateTime moment => exact isLiteral.elim
  | coord place => exact isLiteral.elim
  | grid g => exact isLiteral.elim

theorem exists_display {value : Value} (isLiteral : value.Throughout IsLiteral) :
    ∃ text, writeValue value .latest = .ok text ∧ value.display = text ∧ Readable .three text value := by
  have representable := isLiteral.imp fun _ => representable_of_isLiteral
  obtain ⟨text, written, readable⟩ :=
    readsAsItself_of_throughout representable .latest compare_three_three
  exact ⟨text, written, by rw [Value.display, written], readable⟩

/-- The text of a literal starts like a value and is read as it. -/
theorem reads_literal {value : Value} (isLiteral : value.Throughout IsLiteral) (follows : Follows rest) :
    Starts (literalText value).toList ∧ Reads literal (literalText value).toList rest (.ok value) := by
  by_cases isBool : ∃ b, value = .bool b
  · obtain ⟨b, rfl⟩ := isBool
    have stops : Stops isIdChar rest := follows.stops_of_all (by decide)
    cases b with
    | true =>
        refine ⟨⟨'t', by decide, by decide⟩, Takes.orElse (Reads.last (Takes.token ?_) reads_pure)⟩
        exact Takes.orElse (Reads.last (reads_keyword "true" stops) reads_pure)
    | false =>
        refine ⟨⟨'f', by decide, by decide⟩, Takes.orElse (Reads.last (Takes.token ?_) reads_pure)⟩
        refine Fails.orElse_takes (Fails.bind (Fails.bind (fails_word (c := 't') rfl (by simp [literalText])))) ?_
        exact Reads.last (reads_keyword "false" stops) reads_pure
  · have other : ∀ b, value ≠ .bool b := fun b same => isBool ⟨b, same⟩
    obtain ⟨text, written, shown, readable⟩ := exists_display isLiteral
    have shape : literalText value = text := by
      rw [← shown]
      cases value with
      | bool b => exact absurd rfl (other b)
      | _ => rfl
    rw [shape]
    have legible := (@reaches_value .three text.toList.length).legible text value (Nat.le_refl _) readable
    refine ⟨legible.starts, Fails.orElse_takes (Fails.bind ?_) (legible.reads rest follows)⟩
    exact fails_truthValue_of_isLiteral isLiteral.here other written

/-! ## Tests -/

theorem fails_parenthesised (named : path.IsNamed) :
    Fails (parenthesised condition) (path.text.toList ++ rest) := by
  obtain ⟨segments⟩ := path
  obtain ⟨first, others, rfl⟩ := List.exists_cons_of_ne_nil named.nonempty
  obtain ⟨letter, more, shape, isLetter, _⟩ := exists_of_isName (named.names first (by simp))
  refine Fails.named (Fails.bind (fails_char ?_))
  rw [toList_pathText, shape]
  intro head
  obtain rfl := Option.some.inj head
  exact absurd isLetter (by decide)

theorem reads_term_has (named : path.IsNamed) (other : path ≠ ⟨["not"]⟩) (ends : EndsPath rest)
    (noSign : Stops isSign (rest.dropWhile isGap)) :
    Reads (term condition) path.text.toList rest (.ok (.has (.path path))) := by
  refine (fails_parenthesised named).orElse_takes (Fails.orElse_takes (Fails.bind ?_) ?_)
  · exact fails_missingTest named ends.name fun same => absurd same other
  refine Fails.orElse_takes (Fails.named ?_) ?_
  · exact Reads.bind_fails (reads_pathPhrase named ends) (fails_after_gap (Fails.bind (fails_comparison noSign)))
  · exact Reads.last (Takes.named (Reads.last (reads_pathPhrase named ends) reads_pure)) reads_pure

/-- The signs of comparison. -/
theorem exists_symbol (sign : Comparison) : ∃ c more, sign.symbol.toList = c :: more ∧ isSign c = true := by
  cases sign <;> exact ⟨_, _, rfl, rfl⟩

theorem not_isGap_of_isValueStart {c : Char} (isStart : isValueStart c = true) : isGap c = false := by
  by_contra gap
  simp only [isGap, Bool.not_eq_false, Bool.or_eq_true, beq_iff_eq] at gap
  rcases gap with ((rfl | rfl) | rfl) | rfl <;> revert isStart <;> decide

/-- A class without the characters of signs stops in front of a sign. -/
theorem stops_symbol (sign : Comparison) {accepts : Char → Bool}
    (rejects : ['=', '!', '<', '>'].all (!accepts ·) = true) : Stops accepts (sign.symbol.toList ++ rest) := by
  obtain ⟨c, more, shape, isSign⟩ := exists_symbol sign
  simp only [List.all_cons, List.all_nil, Bool.and_true, Bool.and_eq_true, Bool.not_eq_true'] at rejects
  simp only [Filter.isSign, Bool.or_eq_true, beq_iff_eq] at isSign
  rw [shape]
  refine stops_cons.mpr ?_
  rcases isSign with ((rfl | rfl) | rfl) | rfl <;> tauto

/-- A path ends where a sign is, with or without a gap before it. -/
theorem endsPath_of_sign (sign : Comparison) {blanks : List Char} (all : ∀ c ∈ blanks, isGap c = true) :
    EndsPath (blanks ++ (sign.symbol.toList ++ rest)) := by
  cases blanks with
  | nil =>
      have noArrow : Stops (· == '-') (sign.symbol.toList ++ rest) := stops_symbol sign (by decide)
      exact ⟨stops_symbol sign (by decide), noArrow.head?_ne rfl⟩
  | cons c blanks =>
      have blank : isGap c = true := all c (by simp)
      refine ⟨stops_cons.mpr (not_isIdChar_of_isGap blank), fun head => ?_⟩
      obtain rfl := Option.some.inj head
      exact absurd blank (by decide)

/-- A path, a sign and a literal, with gaps around the sign. -/
theorem reads_term_comparison (sign : Comparison) {before after written : List Char} {value : Value}
    (named : path.IsNamed) (blankBefore : ∀ c ∈ before, isGap c = true) (blankAfter : ∀ c ∈ after, isGap c = true)
    (starts : Starts written) (reads : Reads literal written rest (.ok value)) :
    Reads (term condition) (path.text.toList ++ (before ++ (sign.symbol.toList ++ (after ++ written)))) rest
      (.ok (.compare sign (.path path) (.value value))) := by
  have ends (text : List Char) : EndsPath (before ++ (sign.symbol.toList ++ text)) := endsPath_of_sign sign blankBefore
  have noGap (text : List Char) : Stops isGap (sign.symbol.toList ++ text) := stops_symbol sign (by decide)
  have noPath {α : Type} {next : Path → Phrase α} (text : List Char) :
      Fails (do gap; let path ← pathPhrase; next path) (before ++ (sign.symbol.toList ++ text)) :=
    Reads.bind_fails (reads_gap blankBefore (noGap text))
      (Fails.bind (fails_pathPhrase (stops_symbol sign (by decide))))
  have alone : (after ++ (written ++ rest)).head? ≠ some '=' := by
    cases after with
    | nil =>
        have other : Stops (· == '=') (written ++ rest) := starts.append.stops fun c isStart => by
          by_contra equals
          obtain rfl : c = '=' := by simpa using equals
          exact absurd isStart (by decide)
        exact other.head?_ne rfl
    | cons c after =>
        intro head
        obtain rfl := Option.some.inj head
        exact absurd (blankAfter '=' (by simp)) (by decide)
  refine Fails.orElse_takes ?_ (Fails.orElse_takes (Fails.bind ?_) (Takes.orElse (Takes.named ?_)))
  · rw [List.append_assoc]
    exact fails_parenthesised named
  · simp only [List.append_assoc]
    exact fails_missingTest named (ends _).name fun _ => noPath _
  refine Reads.bind (reads_pathPhrase named (by simpa using ends _)) ?_
  refine Reads.bind (reads_gap blankBefore (by simpa using noGap _)) ?_
  refine Reads.bind (reads_comparison sign (by simpa using alone)) ?_
  refine Reads.bind (reads_gap blankAfter ?_) (Reads.last reads reads_pure)
  exact starts.append.stops fun _ => not_isGap_of_isValueStart

theorem reads_term_compare (sign : Comparison) {value : Value} (named : path.IsNamed)
    (isLiteral : value.Throughout IsLiteral) (follows : Follows rest) :
    Reads (term condition)
      (path.text.toList ++ ' ' :: (sign.symbol.toList ++ ' ' :: (literalText value).toList)) rest
      (.ok (.compare sign (.path path) (.value value))) := by
  obtain ⟨starts, reads⟩ := reads_literal isLiteral follows
  have blank : ∀ c ∈ [' '], isGap c = true := List.forall_mem_singleton.mpr rfl
  exact reads_term_comparison sign named blank blank starts reads

/-! ## Connectives -/

section Connectives

variable {connective : String} {first : Char} {operand : Phrase (Reading Filter)}
  {join : Filter → Filter → Filter} {left right : List Char} {leftFilter rightFilter : Filter}

/-- No further operand of a connective, where another connective or a parenthesis follows. -/
theorem fails_further_operand (front : connective.toList.head? = some first)
    (isLower : first.isLower = true) (ends : EndsTerm rest)
    (other : ∀ c more, rest = ' ' :: c :: more → c ≠ first) :
    Fails (do gap; keyword connective; gap; operand) rest := by
  have fails {text : List Char} (differs : text.head? ≠ some first) :
      Fails (do keyword connective; gap; operand) text :=
    Fails.bind (Fails.bind (fails_word front differs))
  refine ends.fails_after_gap (fails (by simp)) (fun rest => fails ?_) fun c more shape _ => fails ?_
  · rintro same
    obtain rfl := Option.some.inj same
    exact absurd isLower (by decide)
  · exact fun same => other c more shape (Option.some.inj same)

/-- An operand by itself. -/
theorem reads_only_operand (join : Filter → Filter → Filter) (front : connective.toList.head? = some first)
    (isLower : first.isLower = true) (ends : EndsTerm rest)
    (other : ∀ c more, rest = ' ' :: c :: more → c ≠ first)
    (reads : Reads operand left rest (.ok leftFilter)) :
    Reads (chain connective join operand) left rest (.ok leftFilter) :=
  reads_chain_single connective join reads (fails_further_operand front isLower ends other)

/-- Two operands with a connective between them. -/
theorem reads_two_operands (join : Filter → Filter → Filter) (front : connective.toList.head? = some first)
    (isLower : first.isLower = true) (ends : EndsTerm rest)
    (other : ∀ c more, rest = ' ' :: c :: more → c ≠ first) (noGap : Stops isGap (right ++ rest))
    (isLeft : Reads operand left (' ' :: (connective.toList ++ ' ' :: (right ++ rest))) (.ok leftFilter))
    (isRight : Reads operand right rest (.ok rightFilter)) :
    Reads (chain connective join operand) (left ++ ' ' :: (connective.toList ++ ' ' :: right)) rest
      (.ok (join leftFilter rightFilter)) := by
  have noGapBefore (text : List Char) : Stops isGap (connective.toList ++ text) := by
    intro c head
    rw [List.head?_append, front, Option.some_or] at head
    obtain rfl := Option.some.inj head
    exact not_isGap_of_isLower isLower
  have next : Reads (do gap; keyword connective; gap; operand)
      (' ' :: (connective.toList ++ ' ' :: right)) rest (.ok rightFilter) := by
    refine Reads.bind_cons (reads_gap_one ?_) ?_
    · rw [List.append_assoc]
      exact noGapBefore _
    refine Reads.bind (reads_keyword connective (stops_cons.mpr (by decide))) ?_
    exact Reads.bind_cons (reads_gap_one noGap) isRight
  have following : TakesEach (do gap; keyword connective; gap; operand) Eq rest
      (' ' :: (connective.toList ++ ' ' :: right)) [.ok rightFilter] := by
    have parts := TakesEach.cons (by simp) next
      (.nil (fails_further_operand front isLower ends other))
    rwa [List.append_nil] at parts
  have both : Reads (chain connective join operand) (left ++ ' ' :: (connective.toList ++ ' ' :: right))
      rest (joined join (.ok leftFilter) [.ok rightFilter]) :=
    reads_chain connective join (by simpa using isLeft) following
  exact both

theorem reads_parenthesised {reading : Reading Filter} (reads : Reads condition left (')' :: rest) reading)
    (noGap : Stops isGap (left ++ ')' :: rest)) :
    Reads (term condition) ('(' :: (left ++ [')'])) rest reading := by
  refine Takes.orElse (Takes.named (Reads.bind_cons reads_char (Reads.skip (reads_gap_nil ?_) ?_)))
  · simpa using noGap
  refine Reads.bind reads (Reads.skip (reads_gap_nil (stops_cons.mpr rfl)) ?_)
  exact Reads.last reads_char reads_pure

end Connectives

/-! ## Filters -/

/-- Filters that have a text that is read as them: they are built of tests, their paths have names, their
literals texts, and no test is of the tag `not` alone, which would go on with the word after it. -/
inductive IsSpelled : Filter → Prop where
  | has (tags : Path) (named : tags.IsNamed) (other : tags ≠ ⟨["not"]⟩) : IsSpelled (.has (.path tags))
  | missing (tags : Path) (named : tags.IsNamed) : IsSpelled (.missing (.path tags))
  | compare (sign : Comparison) (tags : Path) (held : Value) (named : tags.IsNamed)
      (isLiteral : held.Throughout IsLiteral) : IsSpelled (.compare sign (.path tags) (.value held))
  | and (left right : Filter) (isLeft : IsSpelled left) (isRight : IsSpelled right) :
      IsSpelled (.and left right)
  | or (left right : Filter) (isLeft : IsSpelled left) (isRight : IsSpelled right) :
      IsSpelled (.or left right)

/-- How deep the parentheses around connectives are nested. -/
def nesting : Filter → Nat
  | .and left right | .or left right => max left.nesting right.nesting + 1
  | _ => 0

theorem nesting_le_length (filter : Filter) : filter.nesting ≤ filter.text.toList.length := by
  induction filter with
  | and left right leftIh rightIh =>
      simp only [nesting, text, String.toList_append, List.length_append]
      have parentheses : "(".toList.length = 1 := rfl
      omega
  | or left right leftIh rightIh =>
      simp only [nesting, text, String.toList_append, List.length_append]
      have parentheses : "(".toList.length = 1 := rfl
      omega
  | _ => exact Nat.zero_le _

theorem stops_isGap_of_isSpelled {filter : Filter} (spelled : filter.IsSpelled) :
    Stops isGap (filter.text.toList ++ rest) := by
  cases spelled with
  | has tags named => exact stops_isGap_of_isNamed named
  | missing tags => simp [text, isGap]
  | compare sign tags held named =>
      simp only [text, String.toList_append, List.append_assoc]
      exact stops_isGap_of_isNamed named
  | and left right => simp [text, isGap]
  | or left right => simp [text, isGap]

/-- Each filter is read as a term where the reader goes as deep as its parentheses. -/
theorem reads_term {filter : Filter} (spelled : filter.IsSpelled) {depth : Nat}
    (deep : filter.nesting ≤ depth) (ends : EndsTerm rest) :
    Reads (term (conditionWithin depth)) filter.text.toList rest (.ok filter) := by
  induction spelled generalizing depth rest with
  | has tags named other => exact reads_term_has named other ends.endsPath ends.noSign
  | missing tags named =>
      have blank : ∀ c ∈ [' '], isGap c = true := List.forall_mem_singleton.mpr rfl
      have reads : Reads (term (conditionWithin depth)) ("not".toList ++ ([' '] ++ tags.text.toList)) rest
          (.ok (.missing (.path tags))) := reads_term_missing (by simp) blank named ends.endsPath
      simpa [text] using reads
  | compare sign tags held named isLiteral =>
      have reads : Reads (term (conditionWithin depth)) _ rest _ :=
        reads_term_compare sign named isLiteral ends.follows
      simpa [text] using reads
  | and left right isLeft isRight leftIh rightIh =>
      obtain ⟨depth, rfl⟩ : ∃ n, depth = n + 1 := ⟨depth - 1, by simp only [nesting] at deep; omega⟩
      simp only [nesting] at deep
      have inner : Reads (conditionWithin (depth + 1)) (left.text.toList ++
          ' ' :: ("and".toList ++ ' ' :: right.text.toList)) (')' :: rest) (.ok (.and left right)) := by
        refine reads_only_operand .or rfl rfl (.closed rest) (by simp) ?_
        refine reads_two_operands .and rfl rfl (.closed rest) (by simp)
          (stops_isGap_of_isSpelled isRight) ?_ ?_
        · exact leftIh (by omega) (.further 'a' _ rfl)
        · exact rightIh (by omega) (.closed rest)
      have reads := reads_parenthesised inner (by simpa using stops_isGap_of_isSpelled isLeft)
      simpa [text] using reads
  | or left right isLeft isRight leftIh rightIh =>
      obtain ⟨depth, rfl⟩ : ∃ n, depth = n + 1 := ⟨depth - 1, by simp only [nesting] at deep; omega⟩
      simp only [nesting] at deep
      have inner : Reads (conditionWithin (depth + 1)) (left.text.toList ++
          ' ' :: ("or".toList ++ ' ' :: right.text.toList)) (')' :: rest) (.ok (.or left right)) := by
        refine reads_two_operands .or rfl rfl (.closed rest) (by simp)
          (stops_isGap_of_isSpelled isRight) ?_ ?_
        · -- The first operand is a conjunction of one, which ends before `or`.
          have further : EndsTerm (' ' :: 'o' :: ('r' :: ' ' :: (right.text.toList ++ ')' :: rest))) :=
            .further 'o' _ rfl
          refine reads_only_operand .and rfl rfl further ?_ (leftIh (by omega) further)
          rintro c more same
          obtain rfl := (List.cons.inj (List.cons.inj same).2).1
          decide
        · refine reads_only_operand .and rfl rfl (.closed rest) (by simp) ?_
          exact rightIh (by omega) (.closed rest)
      have reads := reads_parenthesised inner (by simpa using stops_isGap_of_isSpelled isLeft)
      simpa [text] using reads

theorem read_text {filter : Filter} (spelled : filter.IsSpelled) :
    Filter.read filter.text = .ok filter := by
  refine read_of_reads ?_ (by simpa using @stops_isGap_of_isSpelled [] _ spelled)
  refine reads_only_operand .or rfl rfl .ended (by simp) ?_
  refine reads_only_operand .and rfl rfl .ended (by simp) ?_
  exact reads_term spelled filter.nesting_le_length .ended

/-! ## Equality of what is read -/

theorem equals_self {x : Binary64} (isNumber : x.isNaN = false) : x.equals x = true := by
  cases x with
  | nan => simp [Binary64.isNaN] at isNumber
  | infinity negative => simp [Binary64.equals, Binary64.compare?]
  | finite negative significand exponent stored => simp [Binary64.equals, Binary64.compare?]

theorem sameList_self {items : List Value} (same : ∀ item ∈ items, item.same item = true) :
    Value.sameList items items = true := by
  induction items with
  | nil => rfl
  | cons item items ih =>
      rw [List.forall_mem_cons] at same
      rw [Value.sameList, same.1, ih same.2]
      rfl

theorem sameTags_self {items : List (String × Value)} {tags : Entity} (distinct : tags.Distinct)
    (within : ∀ item ∈ items, item ∈ tags.items) (same : ∀ item ∈ items, item.2.same item.2 = true) :
    Value.sameTags items tags = true := by
  induction items with
  | nil => rfl
  | cons item items ih =>
      obtain ⟨name, held⟩ := item
      rw [List.forall_mem_cons] at within same
      have found := (OrderedMap.get?_eq_some_iff distinct).mpr within.1
      rw [Value.sameTags, found]
      simp only [same.1, ih within.2 same.2, Bool.and_self]

/-- A literal is equal to itself. -/
theorem same_self {value : Value} (isLiteral : value.Throughout IsLiteral) : value.same value = true := by
  induction isLiteral with
  | intro value here inside ih =>
      cases value with
      | number n => simp [Value.same, Value.sameLeaf, equals_self here.1]
      | list items => exact sameList_self ih
      | dict tags =>
          obtain ⟨items⟩ := tags
          have same : Value.sameTags items ⟨items⟩ = true :=
            sameTags_self here.1 (fun _ member => member)
              fun item member => ih item.2 (List.mem_map_of_mem member)
          simp [Value.same, Value.sameEntity, same, OrderedMap.size]
      | coord place => exact here.elim
      | grid g => exact here.elim
      | _ => simp [Value.same, Value.sameLeaf]

theorem same_filter {filter : Filter} (spelled : filter.IsSpelled) : filter.same filter = true := by
  induction spelled with
  | has tags => simp [same]
  | missing tags => simp [same]
  | compare sign tags held named isLiteral => simp [same, same_self isLiteral]
  | and left right isLeft isRight leftIh rightIh => simp [same, leftIh, rightIh]
  | or left right isLeft isRight leftIh rightIh => simp [same, leftIh, rightIh]

/-! ## Filters and their texts -/

/-- The text of a filter is read as a filter that is equal to it, and even the same tree. -/
theorem read_filterText (filter : Filter) (spelled : filter.IsSpelled) :
    ∃ back, Filter.read filter.text = .ok back ∧ back.same filter = true ∧ back = filter :=
  ⟨filter, read_text spelled, same_filter spelled, rfl⟩

/-- Nested connectives, a path that starts with `not`, a number with a unit and a dict with a list in it. -/
def alarms : Filter :=
  .or (.and (.missing (.path ⟨["siteRef", "area"]⟩))
      (.compare .ge (.path ⟨["power"]⟩)
        (.value (.number ⟨.finite false 7205759403792794 (-56) (by decide), some "kWh"⟩))))
    (.compare .ne (.path ⟨["not", "true"]⟩) (.value (.dict ⟨[("open", .bool true), ("mark", .marker),
      ("notes", .list [.str "a and b", .xstr ⟨"hex", [0, 255]⟩])]⟩)))

theorem isSpelled_alarms : alarms.IsSpelled := by
  refine .or _ _ (.and _ _ (.missing _ ⟨by simp, by decide⟩) ?_) ?_
  · refine .compare _ _ _ ⟨by simp, by decide⟩ (Value.throughout_of_childless ⟨rfl, ?_⟩ rfl)
    rintro unit ⟨⟩
    exact ⟨⟨by decide, by decide, by decide⟩, rfl⟩
  · refine .compare _ _ _ ⟨by simp, by decide⟩ (.intro _ ⟨by decide, by decide⟩ ?_)
    refine List.forall_mem_cons.mpr ⟨Value.throughout_of_childless trivial rfl, ?_⟩
    refine List.forall_mem_cons.mpr ⟨Value.throughout_of_childless trivial rfl, ?_⟩
    refine List.forall_mem_singleton.mpr (.intro _ trivial (List.forall_mem_cons.mpr ⟨?_, ?_⟩))
    · exact Value.throughout_of_childless trivial rfl
    · refine List.forall_mem_singleton.mpr (Value.throughout_of_childless ⟨?_, by decide, by decide⟩ rfl)
      exact ⟨by decide, by decide, by decide, "00ff", by decide⟩

theorem read_filterText_alarms : alarms.IsSpelled ∧ ∃ back, Filter.read alarms.text = .ok back ∧
    back.same alarms = true ∧ back = alarms :=
  ⟨isSpelled_alarms, read_filterText alarms isSpelled_alarms⟩

end Haystack.Filter
