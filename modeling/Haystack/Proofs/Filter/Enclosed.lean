import Haystack.Proofs.Filter.RoundTrip
import Haystack.Proofs.Zinc.NestedGrids

/-!
Filters in parentheses.

What is a filter by itself is read in parentheses too, and as the same filter, unless what comes behind
closes a quotation mark in it. Paths and signs are told by what stands before the parenthesis; a literal
and the operands of a connective stand before a gap and what comes behind a term, and that is no part of
them.
-/
namespace Haystack.Filter

open Phrase Zinc

variable {tail rest text : List Char} {marks ends : List Char} {ending : List Char → Prop}
  {condition longer operand : Phrase (Reading Filter)}

/-! ## What stands behind the parts of a filter -/

/-- Going on behind a parenthesis. -/
abbrev enclosed (tail : List Char) : Continuation := onward (')' :: tail)

theorem breaks_closed : Breaks (')' :: tail) where
  front c head := by
    obtain rfl := Option.some.inj head
    decide
  display := by simp
  zone c rest same := nomatch same

/-- What stands behind a part of a filter: a gap and one of some marks, or no more than a gap; and not the
payload of an encoding. -/
structure EndsAt (marks rest : List Char) : Prop where
  mark : ∀ c ∈ (rest.dropWhile isGap).head?, c ∈ marks
  unquoted : Unquoted rest

theorem EndsAt.mono (endsAt : EndsAt ends rest) (among : ends ⊆ marks) : EndsAt marks rest :=
  ⟨fun c head => among (endsAt.mark c head), endsAt.unquoted⟩

theorem endsAt_nil : EndsAt marks [] where
  mark c head := nomatch head
  unquoted := by simp [Unquoted]

theorem EndsAt.append {blanks : List Char} (all : ∀ c ∈ blanks, isGap c = true) (endsAt : EndsAt marks rest) :
    EndsAt marks (blanks ++ rest) where
  mark := by
    rw [List.dropWhile_append_of_pos all]
    exact endsAt.mark
  unquoted := unquoted_append (fun member => absurd (all _ member) (by decide)) endsAt.unquoted

theorem EndsAt.apart (endsAt : EndsAt marks rest) (noQuote : '"' ∉ marks) : Apart rest := by
  refine ⟨endsAt.unquoted, fun display => ?_⟩
  obtain ⟨others, shape⟩ := List.head?_eq_some_iff.mp display
  have behind : rest.dropWhile isGap = '"' :: others := by
    rw [← List.takeWhile_append_dropWhile (p := (· == ' ')) (l := rest), shape,
      List.dropWhile_append_of_pos, List.dropWhile_cons_of_neg (by decide)]
    intro c member
    simp [isGap, List.mem_takeWhile_imp member]
  exact noQuote (endsAt.mark '"' (by rw [behind]; rfl))

theorem leads_gap : Leads (EndsAt marks) gap (EndsAt marks) := by
  have run : Leads (EndsAt marks) (run isGap) (EndsAt marks) :=
    spells_run.leads fun _ _ _ ⟨_, all, _⟩ endsAt => endsAt.append all
  exact run.bind fun _ => leads_pure fun _ => id

theorem leads_closed {α : Type} {p : Phrase α} : Leads (EndsAt [')']) (do gap; let _ ← char ')'; p) ending :=
  have mark (rest : List Char) : EndsAt [')'] (')' :: rest) :=
    ⟨by simp [isGap], unquoted_cons (by decide) (by decide)⟩
  leads_gap.bind fun _ => (leads_char fun rest _ => mark rest).bind_first

/-- Past a gap there is one of the marks, or the parenthesis behind the text. -/
theorem EndsAt.fails_after_gap {α : Type} {p : Phrase α} (endsAt : EndsAt marks rest)
    (fails : ∀ text : List Char, (∀ c ∈ text.head?, c ∈ ')' :: marks) → Fails p text) :
    Fails (do gap; p) (rest ++ ')' :: tail) := by
  refine Filter.fails_after_gap (fails _ ?_)
  have marked := endsAt.mark
  rw [List.dropWhile_append]
  cases left : rest.dropWhile isGap with
  | nil => simp [isGap]
  | cons c others =>
      rw [left] at marked
      exact fun d head => .tail _ (marked d head)

/-! ## Parts that are settled before a parenthesis -/

theorem settled_gap : Undisturbed (')' :: tail) 0 Eq gap :=
  (settled_run (stops_cons.mpr (by decide)) (by decide)).bind_eq fun _ => settled_pure rfl

theorem settled_pathPhrase : Undisturbed (')' :: tail) 1 Eq pathPhrase := by
  have breaks : Breaks (')' :: tail) := breaks_closed
  have name : Undisturbed (')' :: tail) 1 Eq identifier :=
    Settled.token ((breaks.satisfying (by decide)).bind_eq fun _ =>
      (breaks.run (by decide)).bind_eq fun _ => settled_pure rfl)
  have further : Undisturbed (')' :: tail) 1 Eq (do word "->"; identifier) :=
    (breaks.word (by decide)).weaken.bind_eq fun _ => name
  exact Settled.named (name.bind_eq fun _ => further.many.bind_eq fun _ => settled_pure rfl)

theorem settled_comparison : Undisturbed (')' :: tail) 0 Eq comparison := by
  have breaks : Breaks (')' :: tail) := breaks_closed
  have sign (text : String) (meant : Comparison) (other : excluded.all (fun c => !text.toList.contains c) = true) :
      Undisturbed (')' :: tail) 0 Eq (do word text; pure meant) :=
    ((breaks.word other).bind_eq fun _ => settled_pure rfl).weaken
  exact Settled.named ((sign "==" _ (by decide)).orElse ((sign "!=" _ (by decide)).orElse
    ((sign "<=" _ (by decide)).orElse ((sign ">=" _ (by decide)).orElse
    ((sign "<" _ (by decide)).orElse (sign ">" _ (by decide)))))))

theorem settled_missingTest : Undisturbed (')' :: tail) 0 Eq missingTest :=
  Settled.weaken (Settled.named ((breaks_closed.keyword (by decide)).bind_eq fun _ =>
    settled_gap.bind_eq fun _ => settled_pathPhrase.bind_eq fun _ => settled_pure rfl))

theorem settled_hasTest : Undisturbed (')' :: tail) 1 Eq hasTest :=
  Settled.named (settled_pathPhrase.bind_eq fun _ => settled_pure rfl)

/-! ## Terms -/

theorem keeps_literal {more : List Char} (breaks : Breaks more) :
    Keeps (onward more) 0 Apart Carries literal literal := by
  have word (text : String) (b : Bool) (other : excluded.all (fun c => !text.toList.contains c) = true) :
      Undisturbed more 0 Eq (do keyword text; pure b) :=
    ((breaks.keyword other).bind_eq fun _ => settled_pure rfl).weaken
  have truth : Undisturbed more 0 Eq truthValue :=
    Settled.token ((word "true" true (by decide)).orElse (word "false" false (by decide)))
  have meant : Undisturbed more 0 Carries (do let b ← truthValue; pure (.ok (.bool b) : Reading Value)) :=
    truth.bind_eq fun _ => settled_pure carries_refl
  exact meant.orElse_keeps (keeps_value breaks .latest)

theorem keeps_comparisonTest (noQuote : '"' ∉ marks) :
    Keeps (enclosed tail) 0 (EndsAt marks) Carries comparisonTest comparisonTest := by
  have operand : Keeps (enclosed tail) 0 (EndsAt marks) Carries literal literal :=
    (keeps_literal breaks_closed).mono fun _ endsAt => endsAt.apart noQuote
  exact Keeps.weaken (Keeps.named (settled_pathPhrase.keeps.bind_eq fun _ => settled_gap.keeps.bind_eq fun _ =>
    settled_comparison.keeps.bind_eq fun _ => settled_gap.keeps.bind_eq fun _ =>
    operand.bind (fun _ _ carries => keeps_pure carries.map) fun _ => leads_pure fun _ => id))

theorem keeps_parenthesised (keeps : Keeps (enclosed tail) 0 (EndsAt [')']) Carries condition longer) :
    Keeps (enclosed tail) 0 ending Carries (parenthesised condition) (parenthesised longer) :=
  Keeps.weaken (Keeps.named (keeps_char.bind_eq fun _ => settled_gap.keeps.bind_eq fun _ =>
    keeps.bind (fun _ _ carries => Keeps.weaken (settled_gap.keeps.bind_eq fun _ => keeps_char.bind_eq fun _ =>
      keeps_pure carries)) fun _ => leads_closed))

/-- The tests that are no filters in parentheses. -/
def test : Phrase (Reading Filter) :=
  (do let test ← missingTest; pure (.ok test)) <|> comparisonTest <|> (do let test ← hasTest; pure (.ok test))

theorem term_eq : term condition = (parenthesised condition <|> test) := rfl

/-- A test starts with a name, or with the word that is spelled like one. -/
theorem fails_test (stops : Stops (fun c => c.isLower || c == '_') text) : Fails test text := by
  refine Fails.orElse (Fails.bind (Fails.named (Fails.bind ?_))) (Fails.orElse ?_ ?_)
  · exact fails_keyword (c := 'n') rfl (stops.head?_ne rfl)
  · exact Fails.named (Fails.bind (fails_pathPhrase stops))
  · exact Fails.bind (Fails.named (Fails.bind (fails_pathPhrase stops)))

theorem keeps_test (noQuote : '"' ∉ marks) (noSign : marks.all (fun c => !isSign c) = true) :
    Keeps (enclosed tail) 0 (EndsAt marks) Carries test test := by
  have missing : Undisturbed (')' :: tail) 0 Carries (do let test ← missingTest; pure (.ok test : Reading Filter)) :=
    settled_missingTest.bind_eq fun _ => settled_pure carries_refl
  have has : Undisturbed (')' :: tail) 0 Carries (do let test ← hasTest; pure (.ok test : Reading Filter)) :=
    Settled.weaken (settled_hasTest.bind_eq fun _ => settled_pure carries_refl)
  refine missing.orElse_keeps ((keeps_comparisonTest noQuote).orElse has.keeps ?_)
  intro cursor reading after _ _ found endsAt
  -- The path that is found by itself is found in the longer text as well, and no sign is behind it there.
  simp only [hasTest, found_named, found_bind, Option.bind_eq_some_iff, Prod.exists] at found
  obtain ⟨_, last, ⟨path, middle, isPath, isTest⟩, made⟩ := found
  obtain ⟨rfl, rfl⟩ := Prod.mk.inj (Option.some.inj isTest)
  obtain ⟨rfl, rfl⟩ := Prod.mk.inj (Option.some.inj made)
  obtain ⟨taken, parts, _, _, takes⟩ := Settled.found settled_pathPhrase isPath
  rw [parts, List.append_assoc]
  refine Fails.named (takes.bind_fails fun _ => endsAt.fails_after_gap fun text marked => Fails.bind ?_)
  refine fails_comparison fun c head => ?_
  rcases List.mem_cons.mp (marked c head) with rfl | member
  · rfl
  · simpa using List.all_eq_true.mp noSign c member

theorem keeps_term (keeps : Keeps (enclosed tail) 0 (EndsAt [')']) Carries condition longer)
    (noQuote : '"' ∉ marks) (noSign : marks.all (fun c => !isSign c) = true) :
    Keeps (enclosed tail) 0 (EndsAt marks) Carries (term condition) (term longer) := by
  rw [term_eq, term_eq]
  refine (keeps_parenthesised keeps).orElse (keeps_test noQuote noSign) fun cursor reading after _ _ found _ => ?_
  refine Fails.named (Fails.bind (fails_char (breaks_closed.head?_append_ne (by decide) fun head => ?_)))
  obtain ⟨others, shape⟩ := List.head?_eq_some_iff.mp head
  exact Fails.not_found (fails_test (by rw [shape]; exact stops_cons.mpr (by decide))) found

/-- A quoted text is no term, nor is one in a parenthesis. -/
theorem fails_term_quoted (fails : ∀ text, Fails condition ('"' :: text)) :
    Fails (term condition) ('"' :: text) ∧ Fails (term condition) ('(' :: '"' :: text) := by
  refine ⟨Fails.orElse (Fails.named (Fails.bind (fails_char (by simp)))) (fails_test (stops_cons.mpr (by decide))), ?_⟩
  refine Fails.orElse (Fails.named ?_) (fails_test (stops_cons.mpr (by decide)))
  change Fails _ (['('] ++ '"' :: text)
  have noGap : Stops isGap ('"' :: text) := stops_cons.mpr (by decide)
  exact Reads.bind_fails reads_char (Reads.skip_fails (reads_gap_nil noGap) (Fails.bind (fails text)))

/-! ## Operands with words between them -/

theorem carries_joined {join : Filter → Filter → Filter} {here there : Reading Filter}
    {others further : List (Reading Filter)} (carries : Carries here there)
    (related : List.Forall₂ Carries others further) :
    Carries (joined join here others) (joined join there further) := by
  refine Carries.bind carries fun start => ?_
  induction related generalizing start with
  | nil => exact carries_refl
  | cons carries _ ih =>
      rw [List.foldlM_cons, List.foldlM_cons]
      exact Carries.bind carries.map fun next => ih next

section Chains

variable {connective : String} {first : Char} {join : Filter → Filter → Filter}

theorem leads_keyword (front : connective.toList.head? = some first) (isWord : connective.toList.all isIdChar = true)
    (member : first ∈ marks) : Leads (EndsAt marks) (keyword connective) fun rest => ¬ ['(', '"'] <+: rest := by
  have ends : Leads (fun rest => Unquoted rest) (notAhead isIdChar) fun rest => ¬ ['(', '"'] <+: rest := by
    rintro ⟨offset, text⟩ _ after found unquoted
    cases text with
    | nil => simp [Unquoted]
    | cons c text =>
        by_cases isId : isIdChar c = true
        · exact absurd found (Fails.not_found (fails_notAhead isId))
        · simp only [notAhead, isId] at found
          obtain ⟨_, rfl⟩ := Prod.mk.inj (Option.some.inj found)
          rw [Unquoted, List.dropWhile_cons_of_neg isId]
          exact unquoted
  have word : Leads (EndsAt marks) (word connective) Unquoted := spells_chars.leads fun taken _ rest same unquoted => by
    subst same
    have isId := List.all_eq_true.mp isWord
    refine ⟨fun c head => ?_, unquoted_append (fun member => absurd (isId _ member) (by decide)) unquoted⟩
    obtain ⟨others, shape⟩ := List.head?_eq_some_iff.mp front
    have noGap : isGap first = false := by
      by_contra gap
      have isFirst := isId first (by simp [shape])
      simp only [isGap, Bool.not_eq_false, Bool.or_eq_true, beq_iff_eq] at gap
      rcases gap with ((rfl | rfl) | rfl) | rfl <;> exact absurd isFirst (by decide)
    rw [shape, List.cons_append, List.dropWhile_cons_of_neg (by simp [noGap])] at head
    obtain rfl := Option.some.inj head
    exact member
  exact word.bind fun _ => ends

/-- A further operand stands behind the word, which is one of the marks. -/
theorem leads_further (front : connective.toList.head? = some first) (isWord : connective.toList.all isIdChar = true)
    (member : first ∈ marks) (noQuote : ∀ text, Fails operand ('(' :: '"' :: text)) :
    Leads (EndsAt marks) (do gap; keyword connective; gap; operand) ending := by
  have unquoted : Leads (fun rest => ¬ ['(', '"'] <+: rest) (do gap; operand) ending := by
    rintro ⟨offset, text⟩ a after found _ ⟨others, rfl⟩
    have noGap : Stops isGap ('(' :: '"' :: others) := stops_cons.mpr (by decide)
    exact Fails.not_found (Reads.skip_fails (reads_gap_nil noGap) (noQuote others)) found
  exact leads_gap.bind fun _ => (leads_keyword front isWord member).bind fun _ => unquoted

/-- Each operand stands before the word of the next, or before what the chain stands before. -/
theorem keeps_chain (front : connective.toList.head? = some first) (isWord : connective.toList.all isIdChar = true)
    (keeps : Keeps (enclosed tail) 0 (EndsAt (first :: ends)) Carries operand longer)
    (noQuote : ∀ text, Fails operand ('(' :: '"' :: text)) (other : first ∉ ')' :: ends) :
    Keeps (enclosed tail) 0 (EndsAt ends) Carries (chain connective join operand)
      (chain connective join longer) := by
  have among : ends ⊆ first :: ends := fun _ => .tail _
  have isWordHere : Undisturbed (')' :: tail) connective.toList.length Eq (keyword connective) := by
    refine breaks_closed.keyword (List.all_eq_true.mpr fun c isExcluded => ?_)
    rw [Bool.not_eq_true', List.contains_eq_mem, decide_eq_false_iff_not]
    intro inWord
    have isId := List.all_eq_true.mp isWord c inWord
    simp only [excluded, breakers, List.mem_cons, List.not_mem_nil, or_false] at isExcluded
    rcases isExcluded with rfl | rfl | rfl | rfl | rfl | rfl <;> exact absurd isId (by decide)
  have each : Keeps (enclosed tail) 1 (EndsAt (first :: ends)) Carries (do gap; keyword connective; gap; operand)
      (do gap; keyword connective; gap; longer) := by
    have whole := settled_gap.keeps.bind_eq fun _ => isWordHere.keeps.bind_eq fun _ =>
      settled_gap.keeps.bind_eq fun _ => keeps
    refine whole.lessen ?_
    obtain ⟨others, shape⟩ := List.head?_eq_some_iff.mp front
    rw [shape, List.length_cons]
    omega
  have leads : Leads (EndsAt (first :: ends)) (do gap; keyword connective; gap; operand) (EndsAt (first :: ends)) :=
    leads_further front isWord (.head _) noQuote
  have others : Keeps (enclosed tail) 0 (EndsAt ends) (List.Forall₂ Carries)
      (many do gap; keyword connective; gap; operand) (many do gap; keyword connective; gap; longer) :=
    each.many leads (fun _ endsAt => endsAt.mono among) fun _ _ endsAt => endsAt.fails_after_gap fun _ marked =>
      Fails.bind (Fails.bind (fails_word front fun head => other (marked first head)))
  exact Keeps.named (keeps.bind (fun _ _ carries => Keeps.weaken (others.bind (fun _ _ related =>
      keeps_pure (carries_joined carries related)) fun _ => leads_pure fun _ => id))
    fun _ => (leads.many fun _ endsAt => endsAt.mono among).bind fun _ => leads_pure fun _ => id)

end Chains

/-! ## Filters -/

theorem fails_conditionWithin_quoted (depth : Nat) (text : List Char) :
    Fails (conditionWithin depth) ('"' :: text) := by
  induction depth generalizing text with
  | zero => exact fails_of_found fun _ => rfl
  | succ depth ih => exact Fails.named (Fails.bind (Fails.named (Fails.bind (fails_term_quoted ih).1)))

theorem keeps_conditionWithin {depth deeper : Nat} (deep : depth ≤ deeper) :
    Keeps (enclosed tail) 0 (EndsAt [')']) Carries (conditionWithin depth) (conditionWithin deeper) := by
  induction depth generalizing deeper with
  | zero => exact fun _ _ _ _ found _ => nomatch found
  | succ depth ih =>
      obtain ⟨deeper, rfl⟩ : ∃ n, deeper = n + 1 := ⟨deeper - 1, by omega⟩
      have noQuote (text : List Char) : Fails (term (conditionWithin depth)) ('(' :: '"' :: text) :=
        (fails_term_quoted (fails_conditionWithin_quoted depth)).2
      have terms : Keeps (enclosed tail) 0 (EndsAt ['a', 'o', ')']) Carries (term (conditionWithin depth))
          (term (conditionWithin deeper)) := keeps_term (ih (by omega)) (by decide) (by decide)
      exact keeps_chain rfl (by decide) (keeps_chain rfl (by decide) terms noQuote (by decide))
        (fun text => Fails.named (Fails.bind (noQuote text))) (by decide)

/-- What is a filter by itself is one in parentheses. -/
theorem reads_parenthesised_of_read {inner : String} {filter : Filter} (read : Filter.read inner = .ok filter)
    (closes : Closes (')' :: tail) inner.toList) {depth : Nat} (deep : inner.toList.length < depth) :
    Reads (parenthesised (conditionWithin depth)) ('(' :: (inner.toList ++ [')'])) tail (.ok filter) := by
  have made : whole.readAll inner.toList = .ok (.ok filter) := by
    unfold Filter.read at read
    split at read
    · cases read
    · cases read
    · next _ made => rw [made, Except.ok.inj read]
  obtain ⟨offset, found⟩ := exists_found_of_readAll made
  simp only [Filter.whole, found_bind, Option.bind_eq_some_iff, Prod.exists] at found
  obtain ⟨_, start, isStart, reading, middle, isFilter, _, last, isEnd, same⟩ := found
  obtain ⟨rfl, rfl⟩ := Prod.mk.inj (Option.some.inj same)
  have gapHere : Undisturbed (')' :: tail) 0 Eq gap := settled_gap
  obtain ⟨blanks, parts, _, _, opening⟩ := Settled.found gapHere isStart
  obtain ⟨others, behind, _, _, closing⟩ := Settled.found gapHere isEnd
  have within : start.rest.length + 1 ≤ depth := by
    have size := congrArg List.length parts
    change inner.toList.length = _ at size
    rw [List.length_append] at size
    omega
  have admitted : (enclosed tail).admits start.rest := (enclosed tail).admits_rest blanks _ (parts ▸ closes)
  obtain ⟨taken, shape, _, takes⟩ := keeps_conditionWithin within start (.ok filter) middle admitted isFilter
    (leads_gap _ _ _ isEnd endsAt_nil)
  have inside : Takes (do let inner ← conditionWithin depth; gap; let _ ← char ')'; pure inner)
      (taken ++ (others ++ [')'])) tail (Carries (.ok filter)) := by
    rw [behind] at takes
    refine Takes.bind (by simpa [enclosed, onward] using takes) fun inner carries => ?_
    exact Takes.bind (by simpa using closing) fun _ _ => Reads.last reads_char (takes_pure carries)
  have all : Takes (do gap; let inner ← conditionWithin depth; gap; let _ ← char ')'; pure inner)
      (blanks ++ (taken ++ (others ++ [')']))) tail (Carries (.ok filter)) := by
    refine Takes.bind (by rw [shape, behind] at opening; simpa using opening) fun _ _ => inside
  have whole : inner.toList = blanks ++ (taken ++ others) := by
    change inner.toList = _ at parts
    rw [parts, shape, behind, List.append_nil]
  rw [whole, List.append_assoc, List.append_assoc]
  exact Takes.named (Reads.bind_cons reads_char (all.mono fun _ carries => (carries filter rfl).symm))

end Haystack.Filter
