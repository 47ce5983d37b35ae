import Haystack.Proofs.Phrase

/-!
What phrases find in a text that line feeds are put behind.

`Agrees` says that one phrase on a text and another on the text with line feeds behind it find the same,
the line feeds being left over. Each way to build a phrase keeps this, unless it takes line feeds or looks
for the end of the text. Texts are bounded in length so that phrases may differ in how deep they go.
-/
namespace Haystack

def lineFeeds (count : Nat) : List Char := List.replicate count '\n'

/-- The same place with line feeds behind the text. -/
def Cursor.extended (cursor : Cursor) (count : Nat) : Cursor :=
  ⟨cursor.offset, cursor.rest ++ lineFeeds count⟩

namespace Phrase

variable {α β : Type} {count limit least : Nat}

/-- Texts of a bounded length at whose end a line feed stands by itself. -/
structure Inside (limit : Nat) (text : List Char) : Prop where
  length : text.length ≤ limit
  ending : text.getLast? ≠ some '\r'

theorem Inside.rest {taken rest : List Char} (inside : Inside limit (taken ++ rest)) : Inside limit rest where
  length := by
    have whole := inside.length
    rw [List.length_append] at whole
    omega
  ending := by
    have whole := inside.ending
    cases rest with
    | nil => simp
    | cons c rest => rwa [List.getLast?_append_of_ne_nil _ (List.cons_ne_nil c rest)] at whole

/-- Once something was taken the rest is shorter. -/
theorem Inside.shorter {taken rest : List Char} (inside : Inside (limit + 1) (taken ++ rest))
    (some : 1 ≤ taken.length) : Inside limit rest where
  length := by
    have whole := inside.length
    rw [List.length_append] at whole
    omega
  ending := inside.rest.ending

/-- Nothing is found in either text, or the same is, in `least` or more characters, and the line feeds
are left over. -/
inductive Matched (count least : Nat) (cursor : Cursor) :
    Option (α × Cursor) → Option (α × Cursor) → Prop where
  | missing : Matched count least cursor none none
  | found (a : α) (taken rest : List Char) (parts : cursor.rest = taken ++ rest)
      (enough : least ≤ taken.length) : Matched count least cursor
        (some (a, ⟨cursor.offset + taken.length, rest⟩))
        (some (a, ⟨cursor.offset + taken.length, rest ++ lineFeeds count⟩))

/-- On each text one phrase finds what another finds with line feeds behind the text. -/
def Agrees (count limit least : Nat) (p q : Phrase α) : Prop :=
  ∀ cursor, Inside limit cursor.rest →
    Matched count least cursor (p cursor).found (q (cursor.extended count)).found

/-- A phrase finds the same whether or not line feeds are behind the text. -/
abbrev Unaffected (count limit least : Nat) (p : Phrase α) : Prop := Agrees count limit least p p

variable {p q : Phrase α} {next other : α → Phrase β} {accepts : Char → Bool}

theorem Agrees.weaken (agrees : Agrees count limit least p q) : Agrees count limit 0 p q := by
  intro cursor inside
  generalize (p cursor).found = here, (q (cursor.extended count)).found = there, agrees cursor inside = matched
  cases matched with
  | missing => exact .missing
  | found a taken rest parts _ => exact .found a taken rest parts (Nat.zero_le _)

/-! ## Sequences -/

theorem unaffected_pure (a : α) : Unaffected count limit 0 (pure a) :=
  fun cursor _ => .found a [] cursor.rest rfl (Nat.zero_le _)

theorem Matched.after {cursor : Cursor} {taken rest : List Char} {here there : Option (α × Cursor)}
    {first second : Nat} (matched : Matched count second ⟨cursor.offset + taken.length, rest⟩ here there)
    (parts : cursor.rest = taken ++ rest) (enough : first ≤ taken.length) :
    Matched count (first + second) cursor here there := by
  cases matched with
  | missing => exact .missing
  | found a more last shape further =>
      have shape : rest = more ++ last := shape
      have parts : cursor.rest = (taken ++ more) ++ last := by rw [parts, shape, List.append_assoc]
      have enough : first + second ≤ (taken ++ more).length := by
        rw [List.length_append]
        omega
      have whole := @Matched.found α count _ _ a _ _ parts enough
      rwa [List.length_append, ← Nat.add_assoc] at whole

theorem Matched.map {cursor : Cursor} {here there : Option (α × Cursor)}
    (matched : Matched count least cursor here there) (f : α → β) :
    Matched count least cursor (here.map fun pair => (f pair.1, pair.2))
      (there.map fun pair => (f pair.1, pair.2)) := by
  cases matched with
  | missing => exact .missing
  | found a taken rest parts enough => exact .found (f a) taken rest parts enough

theorem Agrees.bind {first second : Nat} (front : Agrees count limit first p q)
    (back : ∀ a, Agrees count limit second (next a) (other a)) :
    Agrees count limit (first + second) (p >>= next) (q >>= other) := by
  intro cursor inside
  rw [found_bind, found_bind]
  generalize (p cursor).found = here, (q (cursor.extended count)).found = there, front cursor inside = matched
  cases matched with
  | missing => exact .missing
  | found a taken rest parts enough =>
      exact (back a ⟨_, rest⟩ (parts ▸ inside).rest).after parts enough

/-- What the first phrase takes is taken by both together. -/
theorem Agrees.bind_front {first second : Nat} (front : Agrees count limit first p q)
    (back : ∀ a, Agrees count limit second (next a) (other a)) :
    Agrees count limit first (p >>= next) (q >>= other) :=
  front.bind fun a => (back a).weaken

/-- After a phrase that takes something, what follows it need agree on shorter texts only. -/
theorem Agrees.bind_shorter {first second : Nat} (front : Agrees count (limit + 1) (first + 1) p q)
    (back : ∀ a, Agrees count limit second (next a) (other a)) :
    Agrees count (limit + 1) (first + 1 + second) (p >>= next) (q >>= other) := by
  intro cursor inside
  rw [found_bind, found_bind]
  generalize (p cursor).found = here, (q (cursor.extended count)).found = there, front cursor inside = matched
  cases matched with
  | missing => exact .missing
  | found a taken rest parts enough =>
      refine (back a ⟨_, rest⟩ ?_).after parts enough
      exact (parts ▸ inside).shorter (Nat.le_trans (Nat.le_add_left 1 first) enough)

theorem agrees_here_bind {next other : Nat → Phrase β}
    (back : ∀ offset, Agrees count limit least (next offset) (other offset)) :
    Agrees count limit least (here >>= next) (here >>= other) := by
  intro cursor inside
  rw [found_bind, found_bind]
  exact back cursor.offset cursor inside

/-! ## Choices and names -/

theorem Agrees.orElse {p' q' : Phrase α} (first : Agrees count limit least p q)
    (second : Agrees count limit least p' q') : Agrees count limit least (p <|> p') (q <|> q') := by
  intro cursor inside
  rw [found_orElse, found_orElse]
  generalize (p cursor).found = here, (q (cursor.extended count)).found = there, first cursor inside = matched
  cases matched with
  | missing => exact second cursor inside
  | found a taken rest parts enough => exact .found a taken rest parts enough

theorem Agrees.named (agrees : Agrees count limit least p q) :
    Agrees count limit least (named p) (named q) := by
  simpa only [Agrees, found_named] using agrees

theorem Agrees.token (agrees : Agrees count limit least p q) :
    Agrees count limit least (token p) (token q) :=
  Agrees.named (p := whole p) (q := whole q) agrees

/-! ## Characters -/

theorem stops_lineFeeds (count : Nat) (rejects : accepts '\n' = false) : Stops accepts (lineFeeds count) := by
  cases count with
  | zero => exact stops_nil
  | succ count => exact stops_cons.mpr rejects

theorem head?_lineFeeds_ne {c : Char} (other : ('\n' == c) = false) : (lineFeeds count).head? ≠ some c := by
  have stops : Stops (· == c) (lineFeeds count) := stops_lineFeeds count other
  exact stops.head?_ne (beq_self_eq_true c)

theorem unaffected_satisfying (rejects : accepts '\n' = false) :
    Unaffected count limit 1 (satisfying accepts) := by
  intro cursor _
  obtain ⟨offset, text⟩ := cursor
  cases text with
  | nil =>
      have fails := fails_satisfying (stops_lineFeeds count rejects)
      rw [Cursor.extended, List.nil_append, fails.found]
      exact .missing
  | cons c rest =>
      by_cases accepted : accepts c = true
      · have found := @Matched.found _ count 1 ⟨offset, c :: rest⟩ c [c] rest rfl (Nat.le_refl 1)
        simpa [satisfying, Cursor.extended, accepted] using found
      · simpa [satisfying, Cursor.extended, accepted] using Matched.missing

theorem unaffected_char {c : Char} (other : ('\n' == c) = false) :
    Unaffected count limit 1 (char c) :=
  unaffected_satisfying other

theorem unaffected_chars {expected : List Char} (clean : '\n' ∉ expected) :
    Unaffected count limit expected.length (chars expected) := by
  induction expected with
  | nil => exact unaffected_pure ()
  | cons c others ih =>
      rw [List.mem_cons, not_or] at clean
      rw [List.length_cons, Nat.add_comm]
      exact (unaffected_char (by simpa using clean.1)).bind fun _ => ih clean.2

theorem unaffected_word (word : String) (clean : '\n' ∉ word.toList) :
    Unaffected count limit word.toList.length (Phrase.word word) :=
  unaffected_chars clean

theorem takeWhile_append_of_stops (text : List Char) {rest : List Char} (stops : Stops accepts rest) :
    (text ++ rest).takeWhile accepts = text.takeWhile accepts ∧
      (text ++ rest).dropWhile accepts = text.dropWhile accepts ++ rest := by
  induction text with
  | nil => exact ⟨takeWhile_of_stops stops, dropWhile_of_stops stops⟩
  | cons c text ih =>
      by_cases accepted : accepts c = true
      · simpa [accepted] using ih
      · simp [accepted]

theorem unaffected_run (rejects : accepts '\n' = false) :
    Unaffected count limit 0 (run accepts) := by
  intro cursor _
  have same := takeWhile_append_of_stops cursor.rest (stops_lineFeeds count rejects)
  have found := @Matched.found _ count 0 cursor (cursor.rest.takeWhile accepts)
    (cursor.rest.takeWhile accepts) (cursor.rest.dropWhile accepts)
    List.takeWhile_append_dropWhile.symm (Nat.zero_le _)
  simpa only [run, Cursor.extended, same.1, same.2] using found

theorem unaffected_run1 (rejects : accepts '\n' = false) :
    Unaffected count limit 1 (run1 accepts) :=
  (unaffected_satisfying rejects).bind fun _ => (unaffected_run rejects).bind fun _ => unaffected_pure _

theorem unaffected_notAhead (rejects : accepts '\n' = false) :
    Unaffected count limit 0 (notAhead accepts) := by
  intro cursor _
  obtain ⟨offset, text⟩ := cursor
  have found := @Matched.found _ count 0 ⟨offset, text⟩ () [] text rfl (Nat.zero_le _)
  cases text with
  | nil =>
      have reads := reads_notAhead (stops_lineFeeds count rejects)
      have there := reads.found offset
      rw [Cursor.extended, List.nil_append]
      rw [List.nil_append] at there
      rw [there]
      exact found
  | cons c rest =>
      by_cases accepted : accepts c = true
      · simpa [notAhead, Cursor.extended, accepted] using Matched.missing
      · simpa [notAhead, Cursor.extended, accepted] using found

/-! ## What may be missing and what is repeated -/

theorem Agrees.optional (agrees : Agrees count limit least p q) :
    Agrees count limit 0 (Phrase.optional p) (Phrase.optional q) := by
  intro cursor inside
  rw [found_optional, found_optional]
  generalize (p cursor).found = here, (q (cursor.extended count)).found = there, agrees cursor inside = matched
  cases matched with
  | missing => exact .found none [] cursor.rest rfl (Nat.zero_le _)
  | found a taken rest parts _ => exact .found (some a) taken rest parts (Nat.zero_le _)

/-- Repeated as often as the rest is long, whatever takes something comes to its end. -/
theorem Agrees.upTo (agrees : Agrees count limit 1 p q) {times more : Nat} (cursor : Cursor)
    (inside : Inside limit cursor.rest) (enough : cursor.rest.length < times)
    (further : cursor.rest.length < more) :
    Matched count 0 cursor (Phrase.upTo p times cursor).found
      (Phrase.upTo q more (cursor.extended count)).found := by
  induction times generalizing more cursor with
  | zero => exact absurd enough (Nat.not_lt_zero _)
  | succ times ih =>
      obtain ⟨more, rfl⟩ : ∃ n, more = n + 1 := ⟨more - 1, by omega⟩
      rw [found_upTo_succ, found_upTo_succ]
      generalize (p cursor).found = here, (q (cursor.extended count)).found = there,
        agrees cursor inside = matched
      cases matched with
      | missing => exact .found [] [] cursor.rest rfl (Nat.zero_le _)
      | found a taken rest parts some =>
          have shorter : rest.length < cursor.rest.length := by
            rw [parts, List.length_append]
            omega
          have others := ih ⟨cursor.offset + taken.length, rest⟩ (parts ▸ inside).rest
            (show rest.length < times by omega) (show rest.length < more by omega)
          exact (others.map (a :: ·)).after parts (Nat.zero_le _)

theorem Agrees.many (agrees : Agrees count limit 1 p q) :
    Agrees count limit 0 (Phrase.many p) (Phrase.many q) := fun cursor inside =>
  agrees.upTo cursor inside (Nat.lt_succ_self _) (by
    simp only [Cursor.extended, List.length_append]
    omega)

theorem Agrees.spanned (agrees : Agrees count limit least p q) :
    Agrees count limit least (Phrase.spanned p) (Phrase.spanned q) := by
  intro cursor inside
  unfold Phrase.spanned
  generalize (p cursor) = here, (q (cursor.extended count)) = there, agrees cursor inside = matched
  obtain ⟨_, here⟩ := here
  obtain ⟨_, there⟩ := there
  simp only at matched
  cases matched with
  | missing => exact .missing
  | found a taken rest parts enough =>
      have found := @Matched.found _ count _ _ taken taken rest parts enough
      simpa [Cursor.extended, parts] using found

/-! ## Bodies of quoted texts -/

/-- A measured text and the mark that closes it: either the line feeds are not measured, or there is no
such mark. -/
theorem agrees_take_bind {measure : List Char → Nat} {close : Char} {next : List Char → Char → Phrase β}
    {other : List Char → Char → Phrase β} (closes : ('\n' == close) = false)
    (either : ∀ text : List Char,
      (measure (text ++ lineFeeds count) = measure text ∧ measure text ≤ text.length) ∨
      ((text.drop (measure text)).head? ≠ some close ∧
        ((text ++ lineFeeds count).drop (measure (text ++ lineFeeds count))).head? ≠ some close))
    (back : ∀ body c, Agrees count limit least (next body c) (other body c)) :
    Agrees count limit (1 + least) (take measure >>= fun body => char close >>= next body)
      (take measure >>= fun body => char close >>= other body) := by
  intro cursor inside
  rw [found_bind, found_bind]
  rcases either cursor.rest with ⟨same, within⟩ | ⟨here, there⟩
  · have parts : cursor.rest = cursor.rest.take (measure cursor.rest) ++ cursor.rest.drop (measure cursor.rest) :=
      (List.take_append_drop _ _).symm
    have size : (cursor.rest.take (measure cursor.rest)).length = measure cursor.rest :=
      List.length_take_of_le within
    have closed := ((unaffected_char closes).bind fun c => back (cursor.rest.take (measure cursor.rest)) c)
      ⟨cursor.offset + measure cursor.rest, cursor.rest.drop (measure cursor.rest)⟩ (parts ▸ inside).rest
    simp only [take, Cursor.extended, same, Option.bind_some, List.take_append_of_le_length within,
      List.drop_append_of_le_length within] at closed ⊢
    rw [← size] at closed
    have whole : Matched count (0 + (1 + least)) cursor _ _ :=
      closed.after (by rw [size]; exact parts) (Nat.zero_le _)
    rw [size, Nat.zero_add] at whole
    exact whole
  · simp only [take, Cursor.extended, Option.bind_some, found_bind]
    rw [(fails_char here).found, (fails_char there).found]
    exact .missing

end Phrase

end Haystack
