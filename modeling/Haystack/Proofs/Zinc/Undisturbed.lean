import Haystack.Proofs.Outcome
import Haystack.Proofs.Phrase.Continuation
import Haystack.Proofs.Zinc.Choice
import Haystack.Proofs.Zinc.Extension

/-!
Words, numbers and dates in texts that go on.

What comes behind a value in a filter is a blank, a line break or a parenthesis, and not what a display
name or the name of a zone could be. Of such a text these phrases see no more than of its absence.
-/
namespace Haystack.Zinc

open Phrase

variable {more text rest : List Char} {least : Nat} {before : List Char → Prop}

/-! ## Readings -/

/-- A reading that names a value goes with one that names the same. Refusals tell of places, which differ
where something is written before the text. -/
def Carries {α : Type} (here there : Reading α) : Prop := ∀ a, here = .ok a → there = .ok a

section Carries

variable {α β : Type} {here there : Reading α}

theorem carries_refl : Carries here here := fun _ => id

theorem carries_blame {offset offset' : Nat} {outcome : Except Unreadable α} :
    Carries (Reading.blame offset outcome) (Reading.blame offset' outcome) := by
  cases outcome with
  | ok a => exact carries_refl
  | error cause => exact fun _ same => nomatch same

theorem Carries.bind {next other : α → Reading β} (carries : Carries here there)
    (further : ∀ a, Carries (next a) (other a)) : Carries (here >>= next) (there >>= other) := by
  intro b made
  obtain ⟨a, named, last⟩ := Outcome.of_bind made
  rw [carries a named]
  exact further a b last

theorem Carries.map {f : α → β} (carries : Carries here there) :
    Carries (here.map f) (there.map f) := by
  cases here with
  | ok a => exact carries a rfl ▸ carries_refl
  | error refusal => exact fun _ same => nomatch same

theorem carries_requireThree {dialect : Version} {offset offset' : Nat} {feature : String} :
    Carries (requireThree dialect offset feature) (requireThree dialect offset' feature) := by
  unfold requireThree
  split
  · exact fun _ same => nomatch same
  · exact carries_refl

end Carries

/-! ## What may come behind a value -/

/-- The characters that a text goes on with behind a value. -/
def breakers : List Char := [' ', '\t', '\r', '\n', ')']

/-- A text that comes behind a value and is no part of it. -/
structure Breaks (more : List Char) : Prop where
  front : ∀ c ∈ more.head?, c ∈ breakers
  display : (more.dropWhile (· == ' ')).head? ≠ some '"'
  zone : ∀ c rest, more = ' ' :: c :: rest → c.isUpper = false

section Breaks

variable {accepts : Char → Bool}

protected theorem Breaks.stops (breaks : Breaks more) (rejects : breakers.all (fun c => !accepts c) = true) :
    Stops accepts more := fun c head => by
  simpa using List.all_eq_true.mp rejects c (breaks.front c head)

protected theorem Breaks.head?_ne (breaks : Breaks more) {c : Char} (other : c ∉ breakers) :
    more.head? ≠ some c := fun head => other (breaks.front c head)

/-- Behind a text that is not empty the front stays as it is, and else it is none of most characters. -/
protected theorem Breaks.head?_append_ne (breaks : Breaks more) {c : Char} (other : c ∉ breakers)
    (differs : text.head? ≠ some c) : (text ++ more).head? ≠ some c := by
  cases text with
  | nil => exact breaks.head?_ne other
  | cons d text => exact differs

/-- The characters that a settled phrase does not take. -/
def excluded : List Char := '(' :: breakers

/-- A phrase that sees nothing of what comes behind a text. -/
abbrev Undisturbed {α : Type} (more : List Char) (least : Nat) (goes : α → α → Prop) (p : Phrase α) : Prop :=
  Settled more '(' least goes p p

protected theorem Breaks.satisfying (breaks : Breaks more) (rejects : excluded.all (fun c => !accepts c) = true) :
    Undisturbed more 1 Eq (satisfying accepts) := by
  rw [excluded, List.all_cons, Bool.and_eq_true] at rejects
  exact settled_satisfying (breaks.stops rejects.2) (by simpa using rejects.1)

protected theorem Breaks.char (breaks : Breaks more) {c : Char} (other : excluded.all (fun d => !(d == c)) = true) :
    Undisturbed more 1 Eq (char c) :=
  breaks.satisfying other

protected theorem Breaks.run (breaks : Breaks more) (rejects : excluded.all (fun c => !accepts c) = true) :
    Undisturbed more 0 Eq (run accepts) := by
  rw [excluded, List.all_cons, Bool.and_eq_true] at rejects
  exact settled_run (breaks.stops rejects.2) (by simpa using rejects.1)

protected theorem Breaks.run1 (breaks : Breaks more) (rejects : excluded.all (fun c => !accepts c) = true) :
    Undisturbed more 1 Eq (run1 accepts) := by
  rw [excluded, List.all_cons, Bool.and_eq_true] at rejects
  exact settled_run1 (breaks.stops rejects.2) (by simpa using rejects.1)

protected theorem Breaks.word (breaks : Breaks more) {word : String}
    (other : excluded.all (fun c => !word.toList.contains c) = true) :
    Undisturbed more word.toList.length Eq (Phrase.word word) := by
  rw [excluded, List.all_cons, Bool.and_eq_true, List.all_eq_true] at other
  refine settled_chars (fun c inWord => breaks.head?_ne fun isBreaker => ?_) (by simpa using other.1)
  have absent := other.2 c isBreaker
  simp [inWord] at absent

/-- A word that is not in a text does not come about behind it. -/
protected theorem Breaks.fails_word (breaks : Breaks more) {word : String} {cursor : Cursor}
    (other : word.toList.all (fun c => !breakers.contains c) = true)
    (absent : (Phrase.word word cursor).found = none) : Fails (Phrase.word word) (cursor.rest ++ more) := by
  have outside (c : Char) (inWord : c ∈ word.toList) : c ∉ breakers := by
    simpa using List.all_eq_true.mp other c inWord
  have settled : Settled more ' ' word.toList.length Eq (Phrase.word word) (Phrase.word word) :=
    settled_chars (fun c inWord => breaks.head?_ne (outside c inWord)) fun inWord => outside ' ' inWord (by decide)
  exact settled.fails absent

protected theorem Breaks.keyword (breaks : Breaks more) {word : String}
    (other : excluded.all (fun c => !word.toList.contains c) = true) :
    Undisturbed more word.toList.length Eq (keyword word) :=
  (breaks.word other).bind_eq fun _ => settled_notAhead (breaks.stops (by decide))

end Breaks

/-! ## Words, numbers and dates -/

/-- The letters for truth values. -/
def truthLetter : Phrase Value :=
  token ((do keyword "T"; pure (.bool true)) <|> (do keyword "F"; pure (.bool false)))

/-- The name of a zone starts with a capital. -/
theorem fails_zoneName (stops : Stops Char.isUpper text) : Fails zoneName text := by
  refine Fails.token (Fails.spanned (Fails.orElse (Fails.bind (Fails.orElse ?_ ?_))
    (Fails.bind (fails_satisfying stops))))
  · exact fails_word (c := 'U') (by decide) (stops.head?_ne (by decide))
  · exact fails_word (c := 'G') (by decide) (stops.head?_ne (by decide))

section Settled

variable (breaks : Breaks more)
include breaks

protected theorem Breaks.tagName : Undisturbed more 1 Eq tagName :=
  Settled.token ((breaks.satisfying (by decide)).bind_eq fun _ =>
    (breaks.run (by decide)).bind_eq fun _ => settled_pure rfl)

protected theorem Breaks.singleton {word : String} {constant : Value}
    (other : excluded.all (fun c => !word.toList.contains c) = true) :
    Undisturbed more 0 Carries (do let v ← singleton word constant; pure (Except.ok v : Reading Value)) :=
  Settled.weaken ((Settled.token ((breaks.keyword other).bind_eq fun _ => settled_pure rfl)).bind_eq fun _ =>
    settled_pure carries_refl)

protected theorem Breaks.notAvailable {dialect : Version} :
    Undisturbed more 0 Carries (notAvailable dialect) :=
  Settled.weaken (Settled.token (settled_here_bind fun _ _ =>
    (breaks.keyword (by decide)).bind_eq fun _ => settled_pure
      (carries_requireThree.bind fun _ => carries_refl)))

protected theorem Breaks.truthLetter :
    Undisturbed more 0 Carries (do let v ← truthLetter; pure (Except.ok v : Reading Value)) := by
  have letter (word : String) (b : Bool) (other : excluded.all (fun c => !word.toList.contains c) = true) :
      Undisturbed more 0 Eq (do keyword word; pure (Value.bool b)) :=
    ((breaks.keyword other).bind_eq fun _ => settled_pure rfl).weaken
  exact Settled.bind_eq (Settled.token ((letter "T" true (by decide)).orElse (letter "F" false (by decide))))
    fun _ => settled_pure carries_refl

protected theorem Breaks.degrees : Undisturbed more 0 Eq degrees := by
  have decimals : Undisturbed more 2 Eq (do let _ ← char '.'; run1 Char.isDigit) :=
    (breaks.char (by decide)).bind_eq fun _ => breaks.run1 (by decide)
  exact Settled.spanned ((breaks.char (by decide)).optional.bind_eq fun _ =>
    (breaks.run (by decide)).bind_eq fun _ => decimals.optional.bind_eq fun _ => settled_pure rfl)

protected theorem Breaks.digits : Undisturbed more 1 Eq digits :=
  (breaks.satisfying (by decide)).bind_eq fun _ => (breaks.run (by decide)).bind_eq fun _ => settled_pure rfl

protected theorem Breaks.decimal : Undisturbed more 1 Eq decimal := by
  have decimals : Undisturbed more 2 Eq (do let _ ← char '.'; digits) :=
    (breaks.char (by decide)).bind_eq fun _ => breaks.digits
  have exponent : Undisturbed more 2 Eq
      (do
        let _ ← satisfying fun c => c == 'e' || c == 'E'
        let _ ← Phrase.optional (satisfying fun c => c == '+' || c == '-')
        digits) :=
    (breaks.satisfying (by decide)).bind_eq fun _ => (breaks.satisfying (by decide)).optional.bind_eq fun _ =>
      breaks.digits
  exact Settled.token (Settled.spanned ((breaks.char (by decide)).optional.bind_eq fun _ =>
    breaks.digits.bind_eq fun _ => decimals.optional.bind_eq fun _ => exponent.optional.bind_eq fun _ =>
    settled_pure rfl))

protected theorem Breaks.number : Undisturbed more 0 Carries number := by
  have special (text : String) (magnitude : Binary64)
      (other : excluded.all (fun c => !text.toList.contains c) = true) :
      Undisturbed more 0 Eq (do word text; pure magnitude) :=
    ((breaks.word other).bind_eq fun _ => settled_pure rfl).weaken
  have specials : Undisturbed more 0 Eq specialNumber :=
    Settled.token ((special "-INF" _ (by decide)).orElse ((special "INF" _ (by decide)).orElse
      (special "NaN" _ (by decide))))
  have unit : Undisturbed more 1 Eq Zinc.unit :=
    Settled.token ((breaks.run1 (by decide)).bind_eq fun _ => settled_pure rfl)
  exact Settled.named ((specials.bind_eq fun _ => settled_pure carries_refl).orElse
    (Settled.weaken (settled_here_bind fun _ _ => breaks.decimal.bind_eq fun _ => unit.optional.bind_eq fun _ =>
      settled_pure carries_blame)))

protected theorem Breaks.twoDigits : Undisturbed more 2 Eq twoDigits :=
  (breaks.satisfying (by decide)).bind_eq fun _ => (breaks.satisfying (by decide)).bind_eq fun _ =>
    settled_pure rfl

protected theorem Breaks.dateText : Undisturbed more 10 Eq dateText :=
  breaks.twoDigits.bind_eq fun _ => breaks.twoDigits.bind_eq fun _ => (breaks.char (by decide)).bind_eq fun _ =>
    breaks.twoDigits.bind_eq fun _ => (breaks.char (by decide)).bind_eq fun _ => breaks.twoDigits

protected theorem Breaks.timeText : Undisturbed more 5 Eq timeText := by
  have fraction : Undisturbed more 2 Eq (do let _ ← char '.'; run1 Char.isDigit) :=
    (breaks.char (by decide)).bind_eq fun _ => breaks.run1 (by decide)
  have seconds : Undisturbed more 3 Eq
      (do
        let _ ← char ':'
        let _ ← twoDigits
        let _ ← Phrase.optional (do let _ ← char '.'; run1 Char.isDigit)
        pure ()) :=
    (breaks.char (by decide)).bind_eq fun _ => breaks.twoDigits.bind_eq fun _ =>
      fraction.optional.bind_eq fun _ => settled_pure rfl
  exact breaks.twoDigits.bind_eq fun _ => (breaks.char (by decide)).bind_eq fun _ =>
    breaks.twoDigits.bind_eq fun _ => seconds.optional.bind_eq fun _ => settled_pure rfl

protected theorem Breaks.date : Undisturbed more 0 Carries date :=
  Settled.weaken (Settled.token (settled_here_bind fun _ _ => breaks.dateText.spanned.bind_eq fun _ =>
    settled_pure carries_blame))

protected theorem Breaks.time : Undisturbed more 0 Carries time :=
  Settled.weaken (Settled.token (settled_here_bind fun _ _ => breaks.timeText.spanned.bind_eq fun _ =>
    settled_pure carries_blame))

protected theorem Breaks.isoText : Undisturbed more 0 Eq isoText := by
  have shift : Undisturbed more 0 Eq
      (do
        let _ ← satisfying fun c => c == '+' || c == '-'
        let _ ← twoDigits
        let _ ← char ':'
        twoDigits) :=
    Settled.weaken ((breaks.satisfying (by decide)).bind_eq fun _ => breaks.twoDigits.bind_eq fun _ =>
      (breaks.char (by decide)).bind_eq fun _ => breaks.twoDigits)
  have zulu : Undisturbed more 0 Eq (do let _ ← satisfying fun c => c == 'z' || c == 'Z'; pure ()) :=
    Settled.weaken ((breaks.satisfying (by decide)).bind_eq fun _ => settled_pure rfl)
  have offset : Undisturbed more 0 Eq offsetText := zulu.orElse shift
  exact Settled.weaken (Settled.token (Settled.spanned (breaks.dateText.bind_eq fun _ =>
    (breaks.satisfying (by decide)).bind_eq fun _ => breaks.timeText.bind_eq fun _ => offset.optional)))

protected theorem Breaks.zoneName : Undisturbed more 0 Eq zoneName := by
  have hours : Undisturbed more 2 Eq
      (do
        let _ ← satisfying fun c => c == '+' || c == '-'
        run1 Char.isDigit) :=
    (breaks.satisfying (by decide)).bind_eq fun _ => breaks.run1 (by decide)
  have universal : Undisturbed more 0 Eq (word "UTC" <|> word "GMT") :=
    (breaks.word (by decide)).weaken.orElse (breaks.word (by decide)).weaken
  exact Settled.token (Settled.spanned ((universal.bind_eq fun _ => hours.optional.bind_eq fun _ =>
    settled_notAhead (breaks.stops (by decide))).orElse (Settled.weaken ((breaks.satisfying (by decide)).bind_eq
      fun _ => (breaks.run (by decide)).bind_eq fun _ => settled_pure rfl))))

/-- A space and the name of a zone behind it, of which neither the text nor what comes behind has a part
alone. -/
theorem Breaks.zoned : Undisturbed more 1 Eq (do let _ ← char ' '; zoneName) := by
  intro text offset offset'
  cases text with
  | nil =>
      have absent : Fails (do let _ ← char ' '; zoneName) more := by
        cases more with
        | nil => exact Fails.bind (fails_char (by simp))
        | cons c further =>
            by_cases same : c = ' '
            · subst same
              change Fails _ ([' '] ++ further)
              refine Reads.bind_fails reads_char (fails_zoneName ?_)
              cases further with
              | nil => exact stops_nil
              | cons d further => exact stops_cons.mpr (breaks.zone d further rfl)
            · exact Fails.bind (fails_char (by simpa using same))
      rw [List.nil_append, absent.found]
      exact .missing
  | cons c text =>
      rw [found_bind, found_bind]
      by_cases same : c = ' '
      · subst same
        have name := breaks.zoneName text (offset + 1) (offset' + 1)
        have space : ' ' :: text = [' '] ++ text := rfl
        exact name.after space (Nat.le_refl 1) (by decide)
      · have absent (tail : List Char) : Fails (char ' ') (c :: tail) := fails_char (by simpa using same)
        rw [(absent text).found, List.cons_append, (absent _).found]
        exact .missing

theorem Breaks.dateTime : Undisturbed more 0 Carries dateTime :=
  Settled.named (settled_here_bind fun _ _ => breaks.isoText.bind_eq fun _ => breaks.zoned.optional.bind_eq fun _ =>
    settled_pure carries_blame)

end Settled

end Haystack.Zinc
