import Haystack.Proofs.Phrase.Extension
import Haystack.Proofs.Phrase.Spelling

/-!
What phrases find in a text that goes on.

A phrase is `Settled` if it finds the same in a text and in the longer one, or is in neither. Others
keep what they find only where something else does not go on behind it: such a phrase `Keeps` what it
finds before rests of some kind, and what comes next `Leads` to a rest of that kind.
-/
namespace Haystack.Phrase

variable {α β : Type}

/-! ## Phrases that are settled -/

/-- What comes of looking for a phrase in a text and in the text with `more` behind it: it is in neither,
or both times takes the same characters, at least so many and none of them the one to avoid. -/
inductive Settles (more : List Char) (avoided : Char) (least : Nat) (goes : α → α → Prop)
    (text : List Char) (offset offset' : Nat) : Option (α × Cursor) → Option (α × Cursor) → Prop where
  | missing : Settles more avoided least goes text offset offset' none none
  | found (a b : α) (taken rest : List Char) (parts : text = taken ++ rest)
      (enough : least ≤ taken.length) (clean : avoided ∉ taken) (related : goes a b) :
      Settles more avoided least goes text offset offset'
        (some (a, ⟨offset + taken.length, rest⟩)) (some (b, ⟨offset' + taken.length, rest ++ more⟩))

/-- On every text one phrase finds what another finds with `more` behind the text. -/
def Settled (more : List Char) (avoided : Char) (least : Nat) (goes : α → α → Prop)
    (p q : Phrase α) : Prop :=
  ∀ text offset offset', Settles more avoided least goes text offset offset'
    (p ⟨offset, text⟩).found (q ⟨offset', text ++ more⟩).found

section Settled

variable {more : List Char} {avoided : Char} {least first second : Nat} {goes : α → α → Prop}
  {goal : β → β → Prop} {p q p' q' : Phrase α} {next other : α → Phrase β} {accepts : Char → Bool}

/-- What is found in a text is found in the longer one. -/
theorem Settled.found (settled : Settled more avoided least goes p q) {cursor after : Cursor} {a : α}
    (found : (p cursor).found = some (a, after)) : ∃ taken, cursor.rest = taken ++ after.rest ∧
      least ≤ taken.length ∧ avoided ∉ taken ∧ Takes q taken (after.rest ++ more) (goes a) := by
  obtain ⟨offset, text⟩ := cursor
  obtain ⟨place, rest⟩ := after
  have shape : ∃ taken, text = taken ++ rest ∧ least ≤ taken.length ∧ avoided ∉ taken := by
    have settles := settled text offset 0
    rw [found] at settles
    generalize (q ⟨0, text ++ more⟩).found = answer at settles
    cases settles with
    | found _ b taken rest parts enough clean _ => exact ⟨taken, parts, enough, clean⟩
  obtain ⟨taken, rfl, enough, clean⟩ := shape
  refine ⟨taken, rfl, enough, clean, ?_⟩
  show Takes q taken (rest ++ more) (goes a)
  unfold Takes
  intro offset'
  have settles := settled (taken ++ rest) offset offset'
  rw [found, List.append_assoc] at settles
  generalize (q ⟨offset', taken ++ (rest ++ more)⟩).found = answer at settles ⊢
  cases settles with
  | found _ b part _ parts _ _ related =>
      obtain rfl := List.append_cancel_right parts
      exact ⟨b, rfl, related⟩

/-- What is not in a text is not in the longer one. -/
theorem Settled.fails (settled : Settled more avoided least goes p q) {cursor : Cursor}
    (absent : (p cursor).found = none) : Fails q (cursor.rest ++ more) := by
  refine fails_of_found fun offset' => ?_
  have settles := settled cursor.rest cursor.offset offset'
  rw [absent] at settles
  generalize (q ⟨offset', cursor.rest ++ more⟩).found = answer at settles
  cases settles
  rfl

theorem Settled.weaken (settled : Settled more avoided least goes p q) :
    Settled more avoided 0 goes p q := by
  intro text offset offset'
  generalize (p ⟨offset, text⟩).found = here, (q ⟨offset', text ++ more⟩).found = there,
    settled text offset offset' = settles
  cases settles with
  | missing => exact .missing
  | found a b taken rest parts _ clean related =>
      exact .found a b taken rest parts (Nat.zero_le _) clean related

theorem settled_pure {a b : α} (related : goes a b) :
    Settled more avoided 0 goes (pure a) (pure b) :=
  fun text _ _ => .found a b [] text rfl (Nat.zero_le _) List.not_mem_nil related

theorem Settles.after {text taken rest : List Char} {offset offset' : Nat}
    {here there : Option (β × Cursor)} (settles : Settles more avoided second goal rest
      (offset + taken.length) (offset' + taken.length) here there)
    (parts : text = taken ++ rest) (enough : first ≤ taken.length) (clean : avoided ∉ taken) :
    Settles more avoided (first + second) goal text offset offset' here there := by
  cases settles with
  | missing => exact .missing
  | found a b further last shape enoughFurther cleanFurther related =>
      have whole := @Settles.found β more avoided (first + second) goal text offset offset' a b
        (taken ++ further) last (by rw [parts, shape, List.append_assoc])
        (by rw [List.length_append]; omega) (by simp [clean, cleanFurther]) related
      rwa [List.length_append, ← Nat.add_assoc, ← Nat.add_assoc] at whole

theorem Settles.map {text : List Char} {offset offset' : Nat} {here there : Option (α × Cursor)}
    (settles : Settles more avoided least Eq text offset offset' here there) (f : α → β) :
    Settles more avoided least Eq text offset offset' (here.map fun pair => (f pair.1, pair.2))
      (there.map fun pair => (f pair.1, pair.2)) := by
  cases settles with
  | missing => exact .missing
  | found a b taken rest parts enough clean same =>
      exact .found (f a) (f b) taken rest parts enough clean (congrArg f same)

theorem Settled.bind (front : Settled more avoided first goes p q)
    (back : ∀ a b, goes a b → Settled more avoided second goal (next a) (other b)) :
    Settled more avoided (first + second) goal (p >>= next) (q >>= other) := by
  intro text offset offset'
  rw [found_bind, found_bind]
  generalize (p ⟨offset, text⟩).found = here, (q ⟨offset', text ++ more⟩).found = there,
    front text offset offset' = settles
  cases settles with
  | missing => exact .missing
  | found a b taken rest parts enough clean related =>
      exact (back a b related rest _ _).after parts enough clean

/-- A first phrase that means the same in both texts. -/
theorem Settled.bind_eq (front : Settled more avoided first Eq p q)
    (back : ∀ a, Settled more avoided second goal (next a) (other a)) :
    Settled more avoided (first + second) goal (p >>= next) (q >>= other) :=
  front.bind fun a _ same => same ▸ back a

theorem settled_here_bind {next other : Nat → Phrase β}
    (back : ∀ offset offset', Settled more avoided least goal (next offset) (other offset')) :
    Settled more avoided least goal (here >>= next) (here >>= other) := by
  intro text offset offset'
  rw [found_bind, found_bind]
  exact back offset offset' text offset offset'

theorem Settled.orElse (front : Settled more avoided least goes p q)
    (back : Settled more avoided least goes p' q') :
    Settled more avoided least goes (p <|> p') (q <|> q') := by
  intro text offset offset'
  rw [found_orElse, found_orElse]
  generalize (p ⟨offset, text⟩).found = here, (q ⟨offset', text ++ more⟩).found = there,
    front text offset offset' = settles
  cases settles with
  | missing => exact back text offset offset'
  | found a b taken rest parts enough clean related =>
      exact .found a b taken rest parts enough clean related

theorem Settled.named (settled : Settled more avoided least goes p q) :
    Settled more avoided least goes (named p) (named q) := by
  simpa only [Settled, found_named] using settled

theorem Settled.token (settled : Settled more avoided least goes p q) :
    Settled more avoided least goes (token p) (token q) := by
  have wholly : Settled more avoided least goes (whole p) (whole q) := settled
  exact wholly.named

theorem Settled.optional (settled : Settled more avoided least Eq p q) :
    Settled more avoided 0 Eq (Phrase.optional p) (Phrase.optional q) := by
  intro text offset offset'
  rw [found_optional, found_optional]
  generalize (p ⟨offset, text⟩).found = here, (q ⟨offset', text ++ more⟩).found = there,
    settled text offset offset' = settles
  cases settles with
  | missing => exact .found none none [] text rfl (Nat.zero_le _) List.not_mem_nil rfl
  | found a b taken rest parts _ clean same =>
      exact .found (some a) (some b) taken rest parts (Nat.zero_le _) clean (congrArg some same)

/-- Repeated as often as the rest is long, whatever takes something comes to its end. -/
theorem Settled.upTo (settled : Settled more avoided 1 Eq p q) {times others : Nat} (text : List Char)
    (offset offset' : Nat) (enough : text.length < times) (further : text.length < others) :
    Settles more avoided 0 Eq text offset offset' (Phrase.upTo p times ⟨offset, text⟩).found
      (Phrase.upTo q others ⟨offset', text ++ more⟩).found := by
  induction times generalizing others text offset offset' with
  | zero => exact absurd enough (Nat.not_lt_zero _)
  | succ times ih =>
      obtain ⟨others, rfl⟩ : ∃ n, others = n + 1 := ⟨others - 1, by omega⟩
      rw [found_upTo_succ, found_upTo_succ]
      generalize (p ⟨offset, text⟩).found = here, (q ⟨offset', text ++ more⟩).found = there,
        settled text offset offset' = settles
      cases settles with
      | missing => exact .found [] [] [] text rfl (Nat.zero_le _) List.not_mem_nil rfl
      | found a b taken rest parts some clean same =>
          obtain rfl := same
          have shorter : rest.length < text.length := by
            rw [parts, List.length_append]
            omega
          have behind := @ih others rest (offset + taken.length) (offset' + taken.length)
            (by omega) (by omega)
          exact Settles.after (behind.map (a :: ·)) parts (Nat.zero_le _) clean

theorem Settled.many (settled : Settled more avoided 1 Eq p q) :
    Settled more avoided 0 Eq (Phrase.many p) (Phrase.many q) := fun text offset offset' =>
  settled.upTo text offset offset' (Nat.lt_succ_self _) (by
    simp only [List.length_append]
    omega)

theorem Settled.spanned (settled : Settled more avoided least goes p q) :
    Settled more avoided least Eq (Phrase.spanned p) (Phrase.spanned q) := by
  intro text offset offset'
  unfold Phrase.spanned
  generalize (p ⟨offset, text⟩) = here, (q ⟨offset', text ++ more⟩) = there,
    settled text offset offset' = settles
  obtain ⟨_, here⟩ := here
  obtain ⟨_, there⟩ := there
  simp only at settles
  cases settles with
  | missing => exact .missing
  | found a b taken rest parts enough clean _ =>
      have found := @Settles.found _ more avoided least Eq text offset offset' taken taken taken rest
        parts enough clean rfl
      simpa [parts] using found

/-! ### Characters -/

theorem settled_satisfying (rejects : Stops accepts more) (avoids : accepts avoided = false) :
    Settled more avoided 1 Eq (satisfying accepts) (satisfying accepts) := by
  intro text offset offset'
  cases text with
  | nil =>
      rw [List.nil_append, (fails_satisfying rejects).found]
      exact .missing
  | cons c rest =>
      by_cases accepted : accepts c = true
      · have clean : avoided ∉ [c] := by
          rw [List.mem_singleton]
          rintro rfl
          rw [accepted] at avoids
          contradiction
        have found := @Settles.found _ more avoided 1 Eq (c :: rest) offset offset' c c [c] rest rfl
          (Nat.le_refl 1) clean rfl
        simpa [satisfying, accepted] using found
      · simpa [satisfying, accepted] using Settles.missing

theorem settled_chars {expected : List Char} (rejects : ∀ c ∈ expected, more.head? ≠ some c)
    (avoids : avoided ∉ expected) :
    Settled more avoided expected.length Eq (chars expected) (chars expected) := by
  induction expected with
  | nil => exact settled_pure rfl
  | cons c others ih =>
      rw [List.mem_cons, not_or] at avoids
      rw [List.forall_mem_cons] at rejects
      rw [List.length_cons, Nat.add_comm]
      refine (settled_satisfying ?_ (by simpa using avoids.1)).bind_eq fun _ => ih rejects.2 avoids.2
      intro head isHead
      have differs : head ≠ c := fun same => rejects.1 (same ▸ isHead)
      simpa using differs

theorem settled_run (rejects : Stops accepts more) (avoids : accepts avoided = false) :
    Settled more avoided 0 Eq (run accepts) (run accepts) := by
  intro text offset offset'
  have same := takeWhile_append_of_stops text rejects
  have clean : avoided ∉ text.takeWhile accepts := fun member => by
    rw [List.all_eq_true.mp List.all_takeWhile avoided member] at avoids
    contradiction
  have found := @Settles.found _ more avoided 0 Eq text offset offset' (text.takeWhile accepts) _ _
    (text.dropWhile accepts) List.takeWhile_append_dropWhile.symm (Nat.zero_le _) clean rfl
  simpa only [run, same.1, same.2] using found

theorem settled_run1 (rejects : Stops accepts more) (avoids : accepts avoided = false) :
    Settled more avoided 1 Eq (run1 accepts) (run1 accepts) :=
  (settled_satisfying rejects avoids).bind_eq fun _ => (settled_run rejects avoids).bind_eq fun _ =>
    settled_pure rfl

theorem settled_notAhead (rejects : Stops accepts more) :
    Settled more avoided 0 Eq (notAhead accepts) (notAhead accepts) := by
  intro text offset offset'
  have found := @Settles.found _ more avoided 0 Eq text offset offset' () () [] text rfl
    (Nat.zero_le _) List.not_mem_nil rfl
  cases text with
  | nil =>
      have there := (reads_notAhead rejects).found offset'
      rw [List.nil_append] at there
      rw [List.nil_append, there]
      exact found
  | cons c rest =>
      by_cases accepted : accepts c = true
      · simpa [notAhead, accepted] using Settles.missing
      · simpa [notAhead, accepted] using found

end Settled

theorem Takes.bind_fails {p : Phrase α} {next : α → Phrase β} {text rest : List Char} {holds : α → Prop}
    (takes : Takes p text rest holds) (fails : ∀ a, Fails (next a) rest) : Fails (p >>= next) (text ++ rest) := by
  refine fails_of_found fun offset => ?_
  obtain ⟨a, found, _⟩ := takes.exists_found offset
  rw [found_bind, found, Option.bind_some, (fails a).found]

/-- What is not at the front of a text is not found there. -/
theorem Fails.not_found {p : Phrase α} {cursor after : Cursor} {a : α} (fails : Fails p cursor.rest) :
    (p cursor).found ≠ some (a, after) := fun found =>
  nomatch (fails.found cursor.offset).symm.trans found

/-! ## What a phrase comes before -/

/-- Wherever the phrase is found before a rest of one kind, the text is of another kind. -/
def Leads (before : List Char → Prop) (p : Phrase α) (ending : List Char → Prop) : Prop :=
  ∀ cursor a after, (p cursor).found = some (a, after) → ending after.rest → before cursor.rest

section Leads

variable {before between ending : List Char → Prop} {p q : Phrase α} {next : α → Phrase β}
  {accepts : Char → Bool}

theorem Spells.leads {holds : List Char → α → List Char → Prop} (spells : Spells p holds)
    (implies : ∀ taken a rest, holds taken a rest → ending rest → before (taken ++ rest)) :
    Leads before p ending := by
  intro cursor a after found isEnding
  obtain ⟨taken, parts, _, here⟩ := spells cursor a after found
  rw [parts]
  exact implies taken a after.rest here isEnding

theorem Leads.mono {wider : List Char → Prop} (leads : Leads between p ending)
    (implies : ∀ text, between text → wider text) : Leads wider p ending :=
  fun cursor a after found isEnding => implies _ (leads cursor a after found isEnding)

theorem Leads.narrow {narrower : List Char → Prop} (leads : Leads before p ending)
    (implies : ∀ text, narrower text → ending text) : Leads before p narrower :=
  fun cursor a after found isEnding => leads cursor a after found (implies _ isEnding)

theorem leads_anywhere (all : ∀ text, before text) : Leads before p ending :=
  fun cursor _ _ _ _ => all cursor.rest

theorem leads_ne_nil (fails : Fails p []) : Leads (· ≠ []) p ending := by
  rintro ⟨offset, text⟩ a after found _ rfl
  rw [fails.found] at found
  exact nomatch found

theorem leads_pure {a : α} (implies : ∀ rest, ending rest → before rest) :
    Leads before (pure a) ending := by
  intro cursor b after found isEnding
  obtain ⟨_, rfl⟩ := Prod.mk.inj (Option.some.inj found)
  exact implies _ isEnding

theorem Leads.bind (first : Leads before p between) (second : ∀ a, Leads between (next a) ending) :
    Leads before (p >>= next) ending := by
  intro cursor b after found isEnding
  rw [found_bind, Option.bind_eq_some_iff] at found
  obtain ⟨⟨a, middle⟩, found, last⟩ := found
  exact first cursor a middle found (second a middle b after last isEnding)

/-- What the first phrase takes settles of what kind the text is. -/
theorem Leads.bind_first (first : Leads before p fun _ => True) : Leads before (p >>= next) ending :=
  first.bind fun _ _ _ _ _ _ => trivial

theorem leads_here_bind {next : Nat → Phrase β} (back : ∀ offset, Leads before (next offset) ending) :
    Leads before (here >>= next) ending := by
  intro cursor b after found isEnding
  rw [found_bind] at found
  exact back cursor.offset cursor b after found isEnding

theorem Leads.named (leads : Leads before p ending) : Leads before (named p) ending := by
  simpa only [Leads, found_named] using leads

theorem Leads.orElse (first : Leads before p ending) (second : Leads before q ending) :
    Leads before (p <|> q) ending := by
  intro cursor a after found isEnding
  rw [found_orElse, Option.or_eq_some_iff] at found
  rcases found with found | ⟨_, found⟩
  · exact first cursor a after found isEnding
  · exact second cursor a after found isEnding

theorem Leads.optional (present : Leads before p ending) (missing : ∀ rest, ending rest → before rest) :
    Leads before (Phrase.optional p) ending := by
  intro cursor given after found isEnding
  rw [found_optional] at found
  split at found
  · next a last first =>
    obtain ⟨_, rfl⟩ := Prod.mk.inj (Option.some.inj found)
    exact present cursor a last first isEnding
  · obtain ⟨_, rfl⟩ := Prod.mk.inj (Option.some.inj found)
    exact missing _ isEnding

/-- By induction on how often the phrase is there. -/
theorem Leads.upTo (each : Leads before p before) (ends : ∀ rest, ending rest → before rest)
    (limit : Nat) : Leads before (Phrase.upTo p limit) ending := by
  induction limit with
  | zero => exact leads_pure ends
  | succ limit ih =>
      intro cursor as after found isEnding
      rw [found_upTo_succ] at found
      split at found
      · next a middle first =>
        obtain ⟨⟨others, last⟩, behind, same⟩ := Option.map_eq_some_iff.mp found
        obtain ⟨_, rfl⟩ := Prod.mk.inj same
        exact each cursor a middle first (ih middle others last behind isEnding)
      · obtain ⟨_, rfl⟩ := Prod.mk.inj (Option.some.inj found)
        exact ends _ isEnding

theorem Leads.many (each : Leads before p before) (ends : ∀ rest, ending rest → before rest) :
    Leads before (Phrase.many p) ending :=
  fun cursor => each.upTo ends (cursor.rest.length + 1) cursor

theorem leads_satisfying (here : ∀ c rest, accepts c = true → ending rest → before (c :: rest)) :
    Leads before (satisfying accepts) ending :=
  spells_satisfying.leads fun _ c rest ⟨taken, accepted⟩ isEnding => by
    rw [taken]
    exact here c rest accepted isEnding

theorem leads_char {c : Char} (here : ∀ rest, ending rest → before (c :: rest)) :
    Leads before (char c) ending :=
  leads_satisfying fun d rest same isEnding => by
    rw [beq_iff_eq.mp same]
    exact here rest isEnding

end Leads

/-! ## Phrases that keep what they find -/

/-- A text goes on with `more`. Texts that this is bad for in another way are not admitted; the rest of a
text that is admitted is. -/
structure Continuation where
  more : List Char
  admits : List Char → Prop
  admits_rest : ∀ taken rest, admits (taken ++ rest) → admits rest

/-- What one phrase finds in a text before a rest of some kind, at least so many characters, another finds
in the text that goes on. -/
def Keeps (k : Continuation) (least : Nat) (before : List Char → Prop) (goes : α → α → Prop)
    (p q : Phrase α) : Prop :=
  ∀ cursor a after, k.admits cursor.rest → (p cursor).found = some (a, after) → before after.rest →
    ∃ taken, cursor.rest = taken ++ after.rest ∧ least ≤ taken.length ∧
      Takes q taken (after.rest ++ k.more) (goes a)

section Keeps

variable {k : Continuation} {least first second : Nat} {before between ending : List Char → Prop}
  {goes : α → α → Prop} {goal : β → β → Prop} {p q p' q' : Phrase α} {next other : α → Phrase β}
  {accepts : Char → Bool} {avoided : Char}

theorem Settled.keeps (settled : Settled k.more avoided least goes p q) :
    Keeps k least before goes p q := by
  intro cursor a after _ found _
  obtain ⟨taken, parts, enough, _, takes⟩ := settled.found found
  exact ⟨taken, parts, enough, takes⟩

theorem Keeps.mono {narrower : List Char → Prop} (keeps : Keeps k least before goes p q)
    (implies : ∀ rest, narrower rest → before rest) : Keeps k least narrower goes p q :=
  fun cursor a after admitted found isBefore => keeps cursor a after admitted found (implies _ isBefore)

theorem Keeps.lessen {fewer : Nat} (keeps : Keeps k least before goes p q) (le : fewer ≤ least) :
    Keeps k fewer before goes p q := by
  intro cursor a after admitted found isBefore
  obtain ⟨taken, parts, enough, takes⟩ := keeps cursor a after admitted found isBefore
  exact ⟨taken, parts, Nat.le_trans le enough, takes⟩

theorem Keeps.weaken (keeps : Keeps k least before goes p q) : Keeps k 0 before goes p q :=
  keeps.lessen (Nat.zero_le _)

theorem keeps_pure {a b : α} (related : goes a b) : Keeps k 0 before goes (pure a) (pure b) := by
  intro cursor c after _ found _
  obtain ⟨rfl, rfl⟩ := Prod.mk.inj (Option.some.inj found)
  exact ⟨[], rfl, Nat.zero_le _, takes_pure related⟩

/-- One phrase after another, where what is found of the second is what the first keeps things before. -/
theorem Keeps.bind (front : Keeps k first before goes p q)
    (back : ∀ a b, goes a b → Keeps k second ending goal (next a) (other b))
    (leads : ∀ a, Leads before (next a) ending) :
    Keeps k (first + second) ending goal (p >>= next) (q >>= other) := by
  intro cursor c after admitted found isEnding
  rw [found_bind, Option.bind_eq_some_iff] at found
  obtain ⟨⟨a, middle⟩, found, last⟩ := found
  obtain ⟨taken, parts, enough, takes⟩ :=
    front cursor a middle admitted found (leads a middle c after last isEnding)
  have admittedRest : k.admits middle.rest := k.admits_rest taken _ (parts ▸ admitted)
  obtain ⟨b, _, related⟩ := takes.exists_found 0
  obtain ⟨further, shape, enoughFurther, _⟩ := back a b related middle c after admittedRest last isEnding
  refine ⟨taken ++ further, by rw [parts, shape, List.append_assoc], ?_, ?_⟩
  · rw [List.length_append]
    omega
  rw [shape, List.append_assoc] at takes
  refine takes.bind fun b related => ?_
  obtain ⟨part, same, _, behind⟩ := back a b related middle c after admittedRest last isEnding
  obtain rfl := List.append_cancel_right (shape.symm.trans same)
  exact behind

/-- A first phrase that means the same in both texts and keeps what it finds before anything. -/
theorem Keeps.bind_eq (front : Keeps k first (fun _ => True) Eq p q)
    (back : ∀ a, Keeps k second ending goal (next a) (other a)) :
    Keeps k (first + second) ending goal (p >>= next) (q >>= other) :=
  front.bind (fun a _ same => same ▸ back a) fun _ _ _ _ _ _ => trivial

theorem keeps_here_bind {next other : Nat → Phrase β}
    (back : ∀ offset offset', Keeps k least before goal (next offset) (other offset')) :
    Keeps k least before goal (here >>= next) (here >>= other) := by
  intro cursor b after admitted found isBefore
  rw [found_bind] at found
  obtain ⟨taken, parts, enough, _⟩ := back cursor.offset 0 cursor b after admitted found isBefore
  refine ⟨taken, parts, enough, takes_here_bind fun offset' => ?_⟩
  obtain ⟨part, same, _, takes⟩ := back cursor.offset offset' cursor b after admitted found isBefore
  obtain rfl := List.append_cancel_right (parts.symm.trans same)
  exact takes

/-- The second of two phrases is found where the first is not in the longer text either. -/
theorem Keeps.orElse (front : Keeps k least before goes p q) (back : Keeps k least before goes p' q')
    (skips : ∀ cursor a after, k.admits cursor.rest → (p cursor).found = none →
      (p' cursor).found = some (a, after) → before after.rest → Fails q (cursor.rest ++ k.more)) :
    Keeps k least before goes (p <|> p') (q <|> q') := by
  intro cursor a after admitted found isBefore
  rw [found_orElse, Option.or_eq_some_iff] at found
  rcases found with found | ⟨absent, found⟩
  · obtain ⟨taken, parts, enough, takes⟩ := front cursor a after admitted found isBefore
    exact ⟨taken, parts, enough, takes.orElse⟩
  · have fails := skips cursor a after admitted absent found isBefore
    obtain ⟨taken, parts, enough, takes⟩ := back cursor a after admitted found isBefore
    rw [parts, List.append_assoc] at fails
    exact ⟨taken, parts, enough, fails.orElse_takes takes⟩

/-- A first phrase that is settled needs no more. -/
theorem Settled.orElse_keeps (front : Settled k.more avoided least goes p q)
    (back : Keeps k least before goes p' q') : Keeps k least before goes (p <|> p') (q <|> q') :=
  front.keeps.orElse back fun _ _ _ _ absent _ _ => front.fails absent

theorem Keeps.named (keeps : Keeps k least before goes p q) :
    Keeps k least before goes (named p) (named q) := by
  intro cursor a after admitted found isBefore
  rw [found_named] at found
  obtain ⟨taken, parts, enough, takes⟩ := keeps cursor a after admitted found isBefore
  exact ⟨taken, parts, enough, takes.named⟩

theorem takes_optional {text rest : List Char} {holds : α → Prop} (takes : Takes p text rest holds) :
    Takes (Phrase.optional p) text rest fun given => ∃ a, given = some a ∧ holds a := by
  unfold Takes
  intro offset
  obtain ⟨a, found, here⟩ := takes.exists_found offset
  exact ⟨some a, by rw [found_optional, found], a, rfl, here⟩

theorem Keeps.optional (keeps : Keeps k least between goes p q)
    (ends : ∀ rest, before rest → between rest)
    (skips : ∀ cursor, k.admits cursor.rest → (p cursor).found = none → before cursor.rest →
      Fails q (cursor.rest ++ k.more)) :
    Keeps k 0 before (Option.Rel goes) (Phrase.optional p) (Phrase.optional q) := by
  intro cursor given after admitted found isBefore
  rw [found_optional] at found
  split at found
  · next a last present =>
    obtain ⟨rfl, rfl⟩ := Prod.mk.inj (Option.some.inj found)
    obtain ⟨taken, parts, _, takes⟩ := keeps cursor a last admitted present (ends _ isBefore)
    refine ⟨taken, parts, Nat.zero_le _, (takes_optional takes).mono ?_⟩
    rintro _ ⟨b, rfl, related⟩
    exact .some related
  · next absent =>
    obtain ⟨rfl, rfl⟩ := Prod.mk.inj (Option.some.inj found)
    refine ⟨[], rfl, Nat.zero_le _, ?_⟩
    have reads := (skips cursor admitted absent isBefore).optional
    exact reads.mono fun given none => none ▸ .none

/-- Repeated, a phrase keeps what it finds each time before what it is found in again or before the end. -/
theorem Keeps.upTo (each : Keeps k 1 between goes p q) (leads : Leads between p between)
    (ends : ∀ rest, before rest → between rest)
    (fails : ∀ rest, k.admits rest → before rest → Fails q (rest ++ k.more)) (limit : Nat) (cursor : Cursor)
    {as : List α} {after : Cursor} (admitted : k.admits cursor.rest)
    (found : (Phrase.upTo p limit cursor).found = some (as, after)) (isBefore : before after.rest) :
    ∃ taken, cursor.rest = taken ++ after.rest ∧
      TakesEach q goes (after.rest ++ k.more) taken as := by
  induction limit generalizing cursor as with
  | zero =>
      obtain ⟨rfl, rfl⟩ := Prod.mk.inj (Option.some.inj found)
      exact ⟨[], rfl, .nil (fails _ admitted isBefore)⟩
  | succ limit ih =>
      have isBetween := leads.upTo ends limit
      rw [found_upTo_succ] at found
      split at found
      · next a middle present =>
        obtain ⟨⟨others, last⟩, behind, same⟩ := Option.map_eq_some_iff.mp found
        obtain ⟨rfl, rfl⟩ := Prod.mk.inj same
        obtain ⟨part, parts, some, takes⟩ :=
          each cursor a middle admitted present (isBetween middle others last behind isBefore)
        obtain ⟨taken, shape, takesEach⟩ := ih middle (k.admits_rest part _ (parts ▸ admitted)) behind
        refine ⟨part ++ taken, by rw [parts, shape, List.append_assoc], ?_⟩
        refine .cons (List.length_pos_iff.mp some) ?_ takesEach
        rwa [shape, List.append_assoc] at takes
      · obtain ⟨rfl, rfl⟩ := Prod.mk.inj (Option.some.inj found)
        exact ⟨[], rfl, .nil (fails _ admitted isBefore)⟩

theorem Keeps.many (each : Keeps k 1 between goes p q) (leads : Leads between p between)
    (ends : ∀ rest, before rest → between rest)
    (fails : ∀ rest, k.admits rest → before rest → Fails q (rest ++ k.more)) :
    Keeps k 0 before (List.Forall₂ goes) (Phrase.many p) (Phrase.many q) := by
  intro cursor as after admitted found isBefore
  obtain ⟨taken, parts, takesEach⟩ := each.upTo leads ends fails _ cursor admitted found isBefore
  exact ⟨taken, parts, Nat.zero_le _, takesEach.many⟩

/-! ### Characters -/

theorem keeps_satisfying : Keeps k 1 before Eq (satisfying accepts) (satisfying accepts) := by
  intro cursor c after _ found _
  obtain ⟨taken, parts, _, rfl, accepted⟩ := spells_satisfying cursor c after found
  exact ⟨[c], parts, Nat.le_refl 1, reads_satisfying accepted⟩

theorem keeps_char {c : Char} : Keeps k 1 before Eq (char c) (char c) := keeps_satisfying

/-- A character that may be missing, before what is there. -/
theorem keeps_optional_char {c : Char} : Keeps k 0 (· ≠ []) (Option.Rel Eq) (Phrase.optional (char c))
    (Phrase.optional (char c)) := by
  refine keeps_char.optional (fun _ => id) fun cursor _ absent some => fails_char fun head => ?_
  obtain ⟨offset, text⟩ := cursor
  obtain ⟨d, rest, rfl⟩ := List.exists_cons_of_ne_nil some
  obtain rfl : d = c := Option.some.inj head
  have reads : Reads (char d) [d] rest d := reads_char
  exact nomatch absent.symm.trans (reads.found offset)

theorem Keeps.after_optional_char {c : Char} (keeps : Keeps k least ending goes p q)
    (present : Leads (· ≠ []) p ending) : Keeps k least ending goes (do let _ ← Phrase.optional (char c); p)
      (do let _ ← Phrase.optional (char c); q) := by
  have whole := (keeps_optional_char (c := c)).bind (fun _ _ _ => keeps) fun _ => present
  rwa [Nat.zero_add] at whole

theorem keeps_chars {expected : List Char} :
    Keeps k expected.length before Eq (chars expected) (chars expected) := by
  induction expected with
  | nil => exact keeps_pure rfl
  | cons c others ih =>
      rw [List.length_cons, Nat.add_comm]
      exact Keeps.bind_eq keeps_char fun _ => ih

/-- As many characters of a class as there are, where another character stops them. -/
theorem keeps_run (stops : ∀ rest, before rest → rest ≠ []) :
    Keeps k 0 before Eq (run accepts) (run accepts) := by
  intro cursor read after _ found isBefore
  obtain ⟨taken, parts, _, same, all, stopped⟩ := spells_run cursor read after found
  rw [same]
  refine ⟨taken, parts, Nat.zero_le _, reads_run all fun c head => stopped c ?_⟩
  obtain ⟨d, rest, shape⟩ := List.exists_cons_of_ne_nil (stops _ isBefore)
  rw [shape] at head ⊢
  exact head

theorem keeps_run1 (stops : ∀ rest, before rest → rest ≠ []) :
    Keeps k 1 before Eq (run1 accepts) (run1 accepts) :=
  keeps_satisfying.bind_eq fun _ => (keeps_run stops).bind (fun _ _ same => keeps_pure (same ▸ rfl))
    fun _ => leads_pure fun _ => id

end Keeps

end Haystack.Phrase
