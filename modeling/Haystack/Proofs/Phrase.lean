import Haystack.Phrase
import Mathlib.Data.List.Forall2

/-!
What a phrase takes from a text.

`Takes p text rest holds` says that a phrase takes exactly `text` from the front of `text ++ rest`,
wherever that stands, with a meaning that `holds`; `Reads` names the meaning. `Fails` says that it is
not there. Each way to build a phrase has its rules for both. What is known of the meaning alone,
whatever text the phrase takes, is what it `Yields`.
-/
namespace Haystack.Phrase

variable {α β γ : Type}

/-- At the front of `text ++ rest` the phrase takes `text`, with a meaning that a condition holds of. -/
def Takes (p : Phrase α) (text rest : List Char) (holds : α → Prop) : Prop :=
  ∀ offset, ∃ a, (p ⟨offset, text ++ rest⟩).found = some (a, ⟨offset + text.length, rest⟩) ∧ holds a

/-- At the front of `text ++ rest` the phrase takes `text`, which means one thing. -/
abbrev Reads (p : Phrase α) (text rest : List Char) (a : α) : Prop := Takes p text rest (Eq a)

/-- The phrase is not at the front of a text. -/
def Fails (p : Phrase α) (text : List Char) : Prop := ∀ offset, (p ⟨offset, text⟩).found = none

/-- No character of a class is at the front of a text. -/
def Stops (accepts : Char → Bool) (rest : List Char) : Prop := ∀ c ∈ rest.head?, accepts c = false

variable {p q : Phrase α} {next : α → Phrase β} {text more rest : List Char} {a : α} {b : β}
  {holds : α → Prop} {goal : β → Prop} {accepts : Char → Bool} {c : Char}

theorem Takes.mono {weaker : α → Prop} (takes : Takes p text rest holds)
    (implies : ∀ a, holds a → weaker a) : Takes p text rest weaker := fun offset =>
  have ⟨a, found, here⟩ := takes offset
  ⟨a, found, implies a here⟩

theorem Takes.exists_found (takes : Takes p text rest holds) (offset : Nat) :
    ∃ a, (p ⟨offset, text ++ rest⟩).found = some (a, ⟨offset + text.length, rest⟩) ∧ holds a :=
  takes offset

theorem Reads.found (reads : Reads p text rest a) (offset : Nat) :
    (p ⟨offset, text ++ rest⟩).found = some (a, ⟨offset + text.length, rest⟩) := by
  obtain ⟨_, found, rfl⟩ := reads offset
  exact found

theorem reads_of_found (found : ∀ offset, (p ⟨offset, text ++ rest⟩).found =
    some (a, ⟨offset + text.length, rest⟩)) : Reads p text rest a :=
  fun offset => ⟨a, found offset, rfl⟩

theorem Fails.found (fails : Fails p text) (offset : Nat) : (p ⟨offset, text⟩).found = none :=
  fails offset

theorem fails_of_found (found : ∀ offset, (p ⟨offset, text⟩).found = none) : Fails p text := found

theorem Takes.not_fails (takes : Takes p text rest holds) : ¬ Fails p (text ++ rest) := fun fails => by
  obtain ⟨a, found, _⟩ := takes 0
  rw [fails 0] at found
  exact nomatch found

@[simp] theorem stops_nil : Stops accepts [] := by simp [Stops]

@[simp] theorem stops_cons : Stops accepts (c :: rest) ↔ accepts c = false := by simp [Stops]

theorem Stops.mono {narrower : Char → Bool} (stops : Stops accepts rest)
    (implies : ∀ c, narrower c = true → accepts c = true) : Stops narrower rest := by
  intro c head
  cases accepted : narrower c with
  | false => rfl
  | true => exact absurd (implies c accepted) (by simp [stops c head])

theorem Stops.head?_ne (stops : Stops accepts rest) (accepted : accepts c = true) :
    rest.head? ≠ some c := fun head => by
  rw [stops c head] at accepted
  exact absurd accepted (by decide)

theorem takeWhile_of_stops (stops : Stops accepts rest) : rest.takeWhile accepts = [] := by
  cases rest with
  | nil => rfl
  | cons head tail => simp [stops_cons.mp stops]

theorem dropWhile_of_stops (stops : Stops accepts rest) : rest.dropWhile accepts = rest := by
  cases rest with
  | nil => rfl
  | cons head tail => simp [stops_cons.mp stops]

/-- What is left where a run of characters ends does not start with one more. -/
theorem stops_dropWhile : Stops accepts (rest.dropWhile accepts) := fun c head => by
  have rejected := List.head?_dropWhile_not accepts rest
  rwa [Option.mem_def.mp head] at rejected

/-! ## Sequences -/

theorem takes_pure (here : holds a) : Takes (pure a) [] rest holds := fun _ => ⟨a, rfl, here⟩

theorem reads_pure : Reads (pure a) [] rest a := takes_pure rfl

theorem found_bind (cursor : Cursor) : ((p >>= next) cursor).found =
    (p cursor).found.bind fun pair => (next pair.1 pair.2).found := by
  show (Phrase.bind p next cursor).found = _
  unfold Phrase.bind
  cases found : (p cursor).found <;> simp [found]

theorem Takes.bind (first : Takes p text (more ++ rest) holds)
    (second : ∀ a, holds a → Takes (next a) more rest goal) :
    Takes (p >>= next) (text ++ more) rest goal := by
  intro offset
  obtain ⟨a, found, here⟩ := first offset
  obtain ⟨b, last, there⟩ := second a here (offset + text.length)
  refine ⟨b, ?_, there⟩
  rw [found_bind, List.append_assoc, found, Option.bind_some, last, List.length_append, Nat.add_assoc]

/-- One phrase after another, each with its meaning. -/
theorem Reads.bind (first : Reads p text (more ++ rest) a)
    (second : Takes (next a) more rest goal) : Takes (p >>= next) (text ++ more) rest goal :=
  Takes.bind first fun _ same => same ▸ second

/-- A phrase that takes one character. -/
theorem Reads.bind_cons (first : Reads p [c] (more ++ rest) a)
    (second : Takes (next a) more rest goal) : Takes (p >>= next) (c :: more) rest goal :=
  Reads.bind first second

/-- A phrase that takes nothing. -/
theorem Reads.skip (first : Reads p [] (text ++ rest) a) (second : Takes (next a) text rest goal) :
    Takes (p >>= next) text rest goal :=
  Reads.bind first second

/-- The last phrase and what is made of it. -/
theorem Takes.last (first : Takes p text rest holds)
    (second : ∀ a, holds a → Takes (next a) [] rest goal) : Takes (p >>= next) text rest goal := by
  have whole : Takes (p >>= next) (text ++ []) rest goal := Takes.bind first second
  rwa [List.append_nil] at whole

theorem Reads.last (first : Reads p text rest a) (second : Takes (next a) [] rest goal) :
    Takes (p >>= next) text rest goal :=
  Takes.last first fun _ same => same ▸ second

theorem takes_here_bind {next : Nat → Phrase β}
    (second : ∀ offset, Takes (next offset) text rest goal) : Takes (here >>= next) text rest goal := by
  intro offset
  obtain ⟨b, last, there⟩ := second offset offset
  exact ⟨b, by rw [found_bind]; exact last, there⟩

theorem Fails.bind (fails : Fails p text) : Fails (p >>= next) text := by
  intro offset
  rw [found_bind, fails offset]
  rfl

theorem Reads.bind_fails (first : Reads p text rest a) (second : Fails (next a) rest) :
    Fails (p >>= next) (text ++ rest) := by
  intro offset
  rw [found_bind, first.found, Option.bind_some]
  exact second _

theorem Reads.skip_fails (first : Reads p [] text a) (second : Fails (next a) text) :
    Fails (p >>= next) text :=
  Reads.bind_fails first second

theorem fails_here_bind {next : Nat → Phrase β} (second : ∀ offset, Fails (next offset) text) :
    Fails (here >>= next) text := by
  intro offset
  rw [found_bind]
  exact second offset offset

/-! ## Choices and names -/

theorem found_orElse (cursor : Cursor) :
    ((p <|> q) cursor).found = (p cursor).found.or (q cursor).found := by
  show (Phrase.orElse p (fun _ => q) cursor).found = _
  unfold Phrase.orElse
  cases found : (p cursor).found <;> simp [found]

theorem Takes.orElse (takes : Takes p text rest holds) : Takes (p <|> q) text rest holds := by
  intro offset
  obtain ⟨a, found, here⟩ := takes offset
  exact ⟨a, by rw [found_orElse, found]; rfl, here⟩

theorem Fails.orElse_takes (fails : Fails p (text ++ rest)) (takes : Takes q text rest holds) :
    Takes (p <|> q) text rest holds := by
  intro offset
  obtain ⟨a, found, here⟩ := takes offset
  exact ⟨a, by rw [found_orElse, fails offset, found]; rfl, here⟩

theorem Fails.orElse (first : Fails p text) (second : Fails q text) : Fails (p <|> q) text := by
  intro offset
  rw [found_orElse, first offset, second offset]
  rfl

/-- At the front of a text one phrase finds what another does. -/
def Passes (p q : Phrase α) (text : List Char) : Prop :=
  ∀ offset, (p ⟨offset, text⟩).found = (q ⟨offset, text⟩).found

theorem Fails.passes (fails : Fails p text) : Passes (p <|> q) q text := by
  intro offset
  rw [found_orElse, fails offset]
  rfl

theorem Passes.trans {r : Phrase α} (first : Passes p q text) (second : Passes q r text) :
    Passes p r text := fun offset => (first offset).trans (second offset)

theorem Passes.takes (passes : Passes p q (text ++ rest)) (takes : Takes q text rest holds) :
    Takes p text rest holds := by
  intro offset
  rw [passes]
  exact takes offset

theorem Passes.fails (passes : Passes p q text) (fails : Fails q text) : Fails p text := by
  intro offset
  rw [passes]
  exact fails offset

@[simp] theorem found_named (cursor : Cursor) : (named p cursor).found = (p cursor).found := by
  unfold named
  cases found : (p cursor).found <;> simp [found]

theorem Takes.named (takes : Takes p text rest holds) : Takes (named p) text rest holds := by
  simpa only [Takes, found_named] using takes

theorem Fails.named (fails : Fails p text) : Fails (named p) text := by
  simpa only [Fails, found_named] using fails

theorem Takes.token (takes : Takes p text rest holds) : Takes (token p) text rest holds :=
  Takes.named (p := whole p) takes

theorem Fails.token (fails : Fails p text) : Fails (token p) text := Fails.named (p := whole p) fails

/-! ## Characters -/

theorem reads_satisfying (accepted : accepts c = true) : Reads (satisfying accepts) [c] rest c :=
  fun offset => ⟨c, by simp [satisfying, accepted], rfl⟩

theorem fails_satisfying (stops : Stops accepts text) : Fails (satisfying accepts) text := by
  intro offset
  cases text with
  | nil => rfl
  | cons head tail => simp [satisfying, stops_cons.mp stops]

theorem reads_char : Reads (char c) [c] rest c := reads_satisfying (by simp)

theorem fails_char (differs : rest.head? ≠ some c) : Fails (char c) rest :=
  fails_satisfying fun head isHead => by
    have other : head ≠ c := fun same => differs (same ▸ isHead)
    simpa using other

theorem reads_chars : Reads (chars text) text rest () := by
  induction text with
  | nil => exact reads_pure
  | cons expected others ih => exact Reads.bind reads_char ih

theorem reads_word (word : String) : Reads (Phrase.word word) word.toList rest () := reads_chars

/-- A word is not where another character stands at its front. -/
theorem fails_chars_cons {expected : Char} {others : List Char} (differs : text.head? ≠ some expected) :
    Fails (chars (expected :: others)) text :=
  Fails.bind (fails_char differs)

theorem fails_word {word : String} (front : word.toList.head? = some c)
    (differs : text.head? ≠ some c) : Fails (Phrase.word word) text := by
  unfold Phrase.word
  cases shape : word.toList with
  | nil => simp [shape] at front
  | cons first others =>
      rw [shape] at front
      obtain rfl := Option.some.inj front
      exact fails_chars_cons differs

/-- A word is not where a text with another front is followed by what none of its characters is. -/
theorem fails_chars {expected : List Char} (all : expected.all accepts = true)
    (stops : Stops accepts rest) (other : ¬ expected <+: text) :
    Fails (chars expected) (text ++ rest) := by
  induction expected generalizing text with
  | nil => exact absurd List.nil_prefix other
  | cons first others ih =>
      rw [List.all_cons, Bool.and_eq_true] at all
      cases text with
      | nil =>
          refine fails_chars_cons fun same => ?_
          rw [stops first same] at all
          exact absurd all.1 (by decide)
      | cons c text =>
          by_cases same : c = first
          · subst same
            have further : ¬ others <+: text := fun shared =>
              other (List.cons_prefix_cons.mpr ⟨rfl, shared⟩)
            change Fails _ ([c] ++ (text ++ rest))
            exact Reads.bind_fails reads_char (ih all.2 further)
          · exact fails_chars_cons fun head => same (Option.some.inj head)

theorem reads_run (all : ∀ c ∈ text, accepts c = true) (stops : Stops accepts rest) :
    Reads (run accepts) text rest text := by
  have taken : (text ++ rest).takeWhile accepts = text ∧ (text ++ rest).dropWhile accepts = rest := by
    induction text with
    | nil =>
        cases rest with
        | nil => exact ⟨rfl, rfl⟩
        | cons head tail => simp [stops_cons.mp stops]
    | cons c others ih =>
        rw [List.forall_mem_cons] at all
        simp [all.1, ih all.2]
  exact fun offset => ⟨text, by simp [run, taken.1, taken.2], rfl⟩

theorem reads_run_nil (stops : Stops accepts rest) : Reads (run accepts) [] rest [] :=
  reads_run (fun _ member => nomatch member) stops

theorem reads_run1 (all : ∀ c ∈ text, accepts c = true) (nonempty : text ≠ [])
    (stops : Stops accepts rest) : Reads (run1 accepts) text rest text := by
  cases text with
  | nil => exact absurd rfl nonempty
  | cons c others =>
      rw [List.forall_mem_cons] at all
      exact Reads.bind (reads_satisfying all.1) (Reads.last (reads_run all.2 stops) reads_pure)

theorem fails_run1 (stops : Stops accepts text) : Fails (run1 accepts) text :=
  Fails.bind (fails_satisfying stops)

theorem reads_take {measure : List Char → Nat} (size : measure (text ++ rest) = text.length) :
    Reads (Phrase.take measure) text rest text :=
  fun offset => ⟨text, by simp [Phrase.take, size], rfl⟩

/-! ## What may be missing and what is repeated -/

theorem found_optional (cursor : Cursor) : (Phrase.optional p cursor).found =
    match (p cursor).found with
    | some (a, after) => some (some a, after)
    | none => some (none, cursor) := by
  unfold Phrase.optional
  cases found : (p cursor).found <;> simp [found]

theorem found_upTo_succ (limit : Nat) (cursor : Cursor) : (Phrase.upTo p (limit + 1) cursor).found =
    match (p cursor).found with
    | some (a, after) => (Phrase.upTo p limit after).found.map fun pair => (a :: pair.1, pair.2)
    | none => some ([], cursor) := by
  rw [Phrase.upTo]
  cases found : (p cursor).found <;> simp [found]

theorem Reads.optional (reads : Reads p text rest a) :
    Reads (Phrase.optional p) text rest (some a) :=
  reads_of_found fun offset => by simp [Phrase.optional, reads.found offset]

theorem Fails.optional (fails : Fails p rest) : Reads (Phrase.optional p) [] rest none :=
  reads_of_found fun offset => by simp [Phrase.optional, fails offset]

theorem Reads.spanned (reads : Reads p text rest a) : Reads (Phrase.spanned p) text rest text :=
  reads_of_found fun offset => by simp [Phrase.spanned, reads.found offset]

theorem Fails.spanned (fails : Fails p text) : Fails (Phrase.spanned p) text := by
  intro offset
  simp [Phrase.spanned, fails offset]

theorem Fails.ahead (fails : Fails p text) : Fails (Phrase.ahead p) text := by
  intro offset
  simp [Phrase.ahead, fails offset]

theorem reads_notAhead (stops : Stops accepts rest) : Reads (notAhead accepts) [] rest () := by
  refine reads_of_found fun offset => ?_
  cases rest with
  | nil => rfl
  | cons head tail => simp [notAhead, stops_cons.mp stops]

theorem fails_notAhead (accepted : accepts c = true) : Fails (notAhead accepts) (c :: rest) := by
  intro offset
  simp [notAhead, accepted]

/-- A text in parts, each of which a phrase takes, with nothing for it at the end. -/
inductive TakesEach (p : Phrase α) (holds : γ → α → Prop) (rest : List Char) :
    List Char → List γ → Prop where
  | nil (fails : Fails p rest) : TakesEach p holds rest [] []
  | cons {part text : List Char} {value : γ} {values : List γ} (nonempty : part ≠ [])
      (first : Takes p part (text ++ rest) (holds value))
      (others : TakesEach p holds rest text values) :
      TakesEach p holds rest (part ++ text) (value :: values)

theorem TakesEach.upTo {holds : γ → α → Prop} {values : List γ}
    (each : TakesEach p holds rest text values) {limit : Nat} (enough : text.length < limit) :
    Takes (Phrase.upTo p limit) text rest (List.Forall₂ holds values) := by
  induction each generalizing limit with
  | nil fails =>
      intro offset
      obtain ⟨limit, rfl⟩ : ∃ n, limit = n + 1 := ⟨limit - 1, by simp at enough; omega⟩
      exact ⟨[], by simp [Phrase.upTo, fails offset], .nil⟩
  | @cons part text value values nonempty first others ih =>
      intro offset
      obtain ⟨limit, rfl⟩ : ∃ n, limit = n + 1 := ⟨limit - 1, by omega⟩
      have shorter : 0 < part.length := List.length_pos_iff.mpr nonempty
      rw [List.length_append] at enough
      obtain ⟨a, found, here⟩ := first offset
      obtain ⟨as, last, there⟩ := @ih limit (by omega) (offset + part.length)
      refine ⟨a :: as, ?_, .cons here there⟩
      simp only [Phrase.upTo, List.append_assoc, found, last, Option.map_some, List.length_append,
        Nat.add_assoc]

theorem TakesEach.many {holds : γ → α → Prop} {values : List γ}
    (each : TakesEach p holds rest text values) :
    Takes (Phrase.many p) text rest (List.Forall₂ holds values) := fun offset =>
  have enough : text.length < (text ++ rest).length + 1 := by
    rw [List.length_append]
    omega
  each.upTo enough offset

/-- Parts with their meanings. -/
theorem reads_many {values : List α} (each : TakesEach p Eq rest text values) :
    Reads (Phrase.many p) text rest values :=
  each.many.mono fun _ same => List.forall₂_eq_eq_eq ▸ same

/-- Parts that a phrase takes before whatever they may stand before, themselves included. -/
theorem TakesEach.of_forall₂ {δ : Type} {part : δ → List Char} {holds : γ → α → Prop}
    (good : List Char → Prop) {items : List δ} {values : List γ}
    (each : List.Forall₂ (fun item value => part item ≠ [] ∧ (∀ more, good (part item ++ more)) ∧
      ∀ more, good more → Takes p (part item) more (holds value)) items values)
    (goodRest : good rest) (fails : Fails p rest) :
    TakesEach p holds rest (items.flatMap part) values := by
  induction each with
  | nil => exact .nil fails
  | @cons item value items values first others ih =>
      obtain ⟨nonempty, _, takes⟩ := first
      rw [List.flatMap_cons]
      refine .cons nonempty (takes _ ?_) ih
      cases others with
      | nil => exact goodRest
      | cons second _ =>
          rw [List.flatMap_cons, List.append_assoc]
          exact second.2.1 _

/-! ## Whole texts -/

theorem readAll_of_found {offset : Nat} (found : (p (.start text)).found = some (a, ⟨offset, []⟩)) :
    readAll p text = .ok a := by
  rw [readAll, found_bind, found]
  rfl

theorem readAll_of_reads (reads : Reads p text [] a) : readAll p text = .ok a := by
  have found := reads.found 0
  rw [List.append_nil] at found
  exact readAll_of_found found

/-- A phrase that is a whole text takes all of it. -/
theorem exists_found_of_readAll (read : readAll p text = .ok a) :
    ∃ offset, (p (.start text)).found = some (a, ⟨offset, []⟩) := by
  rw [readAll, found_bind] at read
  cases found : (p (.start text)).found with
  | none => simp [found] at read
  | some pair =>
      obtain ⟨value, offset, rest⟩ := pair
      rw [found, Option.bind_some, found_bind] at read
      cases rest with
      | nil =>
          obtain rfl : value = a := Except.ok.inj read
          exact ⟨offset, rfl⟩
      | cons c rest => exact nomatch read

/-! ## Meanings -/

/-- Wherever the phrase is found, it has a meaning that a condition holds of. -/
def Yields (p : Phrase α) (holds : α → Prop) : Prop :=
  ∀ cursor a after, (p cursor).found = some (a, after) → holds a

theorem yields_pure (here : holds a) : Yields (pure a) holds := by
  intro cursor b after found
  obtain ⟨rfl, _⟩ := Prod.mk.inj (Option.some.inj found)
  exact here

theorem Yields.bind (first : Yields p holds) (second : ∀ a, holds a → Yields (next a) goal) :
    Yields (p >>= next) goal := by
  intro cursor b after found
  rw [found_bind, Option.bind_eq_some_iff] at found
  obtain ⟨⟨a, middle⟩, found, last⟩ := found
  exact second a (first cursor a middle found) middle b after last

/-- A phrase after another, whatever that one means. -/
theorem yields_after (second : ∀ a, Yields (next a) goal) : Yields (p >>= next) goal :=
  have something : Yields p fun _ => True := fun _ _ _ _ => trivial
  something.bind fun a _ => second a

theorem Yields.orElse (first : Yields p holds) (second : Yields q holds) : Yields (p <|> q) holds := by
  intro cursor a after found
  rw [found_orElse, Option.or_eq_some_iff] at found
  rcases found with found | ⟨_, found⟩
  · exact first cursor a after found
  · exact second cursor a after found

theorem Yields.named (yields : Yields p holds) : Yields (named p) holds := by
  simpa only [Yields, found_named] using yields

theorem Yields.token (yields : Yields p holds) : Yields (token p) holds := Yields.named (p := whole p) yields

/-- Where the second phrase is found the first is not. -/
theorem Yields.orElse_of_fails (first : Yields p holds)
    (second : ∀ cursor a after, (p cursor).found = none → (q cursor).found = some (a, after) → holds a) :
    Yields (p <|> q) holds := by
  intro cursor a after found
  rw [found_orElse, Option.or_eq_some_iff] at found
  rcases found with found | ⟨absent, found⟩
  · exact first cursor a after found
  · exact second cursor a after absent found

theorem Yields.optional (yields : Yields p holds) :
    Yields (Phrase.optional p) fun given => ∀ a ∈ given, holds a := by
  intro cursor given after found a isGiven
  unfold Phrase.optional at found
  simp only at found
  split at found
  · next b last first =>
    obtain ⟨rfl, _⟩ := Prod.mk.inj (Option.some.inj found)
    obtain rfl := Option.some.inj isGiven
    exact yields cursor b last first
  · obtain ⟨rfl, _⟩ := Prod.mk.inj (Option.some.inj found)
    exact nomatch isGiven

theorem yields_satisfying : Yields (satisfying accepts) (accepts · = true) := by
  intro cursor a after found
  unfold satisfying at found
  split at found
  · exact nomatch found
  · split at found
    · next accepted =>
      obtain ⟨rfl, _⟩ := Prod.mk.inj (Option.some.inj found)
      exact accepted
    · exact nomatch found

theorem yields_run : Yields (run accepts) fun taken => ∀ c ∈ taken, accepts c = true := by
  intro cursor a after found c member
  obtain ⟨rfl, _⟩ := Prod.mk.inj (Option.some.inj found)
  exact List.all_eq_true.mp List.all_takeWhile c member

theorem Yields.upTo (yields : Yields p holds) (limit : Nat) :
    Yields (Phrase.upTo p limit) fun as => ∀ a ∈ as, holds a := by
  induction limit with
  | zero => exact yields_pure fun _ member => nomatch member
  | succ limit ih =>
      intro cursor as after found
      cases first : (p cursor).found with
      | none =>
          simp only [Phrase.upTo, first] at found
          obtain ⟨rfl, _⟩ := Prod.mk.inj (Option.some.inj found)
          exact fun _ member => nomatch member
      | some pair =>
          obtain ⟨a, middle⟩ := pair
          simp only [Phrase.upTo, first, Option.map_eq_some_iff] at found
          obtain ⟨⟨others, last⟩, found, same⟩ := found
          obtain ⟨rfl, _⟩ := Prod.mk.inj same
          exact List.forall_mem_cons.mpr ⟨yields cursor a middle first, ih middle others last found⟩

theorem Yields.many (yields : Yields p holds) :
    Yields (Phrase.many p) fun as => ∀ a ∈ as, holds a :=
  fun cursor => yields.upTo (cursor.rest.length + 1) cursor

theorem Yields.of_readAll (yields : Yields p holds) (read : readAll p text = .ok a) : holds a :=
  have ⟨_, found⟩ := exists_found_of_readAll read
  yields _ a _ found

-- From here on phrases are known by their rules.
attribute [irreducible] Takes Fails

end Haystack.Phrase
