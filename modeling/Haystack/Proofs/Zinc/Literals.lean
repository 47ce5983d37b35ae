import Haystack.Proofs.Calendar.Readings
import Haystack.Proofs.Phrase.Spelling
import Haystack.Proofs.Zinc.Number

/-!
How the phrases of literals are spelled, whatever text they stand in.

Dates and times have their digits and separators in their places. A number takes all digits and
underscores that it can, so that its unit does not start with one.
-/
namespace Haystack.Zinc

open Phrase

/-! ## Dates and times -/

theorem spells_twoDigits : Spells twoDigits fun taken _ _ => ∃ a b, AllDigits [a, b] ∧ taken = [a, b] := by
  refine spells_satisfying.bind fun _ a => spells_satisfying.bind fun _ b => spells_pure ?_
  rintro rest ⟨rfl, isDigit⟩ ⟨rfl, isDigit'⟩
  exact ⟨a, b, by simp [AllDigits, isDigit, isDigit'], rfl⟩

theorem spells_dateText : Spells dateText fun taken _ _ => Date.IsText taken := by
  refine spells_twoDigits.bind fun _ _ => spells_twoDigits.bind fun _ _ => (spells_char '-').bind fun _ _ =>
    spells_twoDigits.bind fun _ _ => (spells_char '-').bind fun _ _ => spells_twoDigits.mono ?_
  rintro taken _ rest ⟨g, h, _, rfl⟩ rfl ⟨e, f, _, rfl⟩ rfl ⟨c, d, last, rfl⟩ ⟨a, b, first, rfl⟩
  exact ⟨a, b, c, d, e, f, g, h, allDigits_append first last, rfl⟩

/-- Seconds after a colon, with decimals perhaps. -/
def secondsText : Phrase Unit := do
  let _ ← char ':'
  twoDigits
  let _ ← Phrase.optional do
    let _ ← char '.'
    run1 Char.isDigit

theorem spells_secondsText : Spells secondsText fun taken _ _ =>
    ∃ a b fraction, AllDigits [a, b] ∧ TimeOfDay.IsFraction fraction ∧ taken = ':' :: a :: b :: fraction := by
  have decimals : Spells (Phrase.optional do
      let _ ← char '.'
      run1 Char.isDigit) fun taken _ _ => TimeOfDay.IsFraction taken := by
    have point : Spells (do let _ ← char '.'; run1 Char.isDigit) fun taken _ _ => TimeOfDay.IsFraction taken := by
      refine (spells_char '.').bind fun _ _ => spells_run1.mono ?_
      rintro taken _ rest ⟨_, nonempty, digits, _⟩ rfl
      exact .inr ⟨taken, nonempty, digits, rfl⟩
    exact point.optional (fun _ _ _ here => here) fun _ => .inl rfl
  refine (spells_char ':').bind fun _ _ => spells_twoDigits.bind fun _ _ =>
    decimals.bind fun fraction _ => spells_pure ?_
  rintro rest isFraction ⟨a, b, digits, rfl⟩ rfl
  exact ⟨a, b, fraction, digits, isFraction, by simp⟩

theorem isText_of_minutes {a b c d : Char} (first : AllDigits [a, b]) (last : AllDigits [c, d]) :
    TimeOfDay.IsText [a, b, ':', c, d] where
  size := Nat.le_refl 5
  chars := by
    simp only [AllDigits, List.mem_cons, List.not_mem_nil, or_false, forall_eq_or_imp, forall_eq] at *
    exact ⟨.inl first.1, .inl first.2, .inr (.inl trivial), .inl last.1, .inl last.2⟩
  ends := ⟨d, rfl, last d (by simp)⟩
  decimals := fun _ member => nomatch member

theorem isText_of_seconds {a b c d e f : Char} {fraction : List Char} (first : AllDigits [a, b])
    (middle : AllDigits [c, d]) (last : AllDigits [e, f]) (isFraction : TimeOfDay.IsFraction fraction) :
    TimeOfDay.IsText ([a, b, ':', c, d, ':', e, f] ++ fraction) where
  size := by simp
  chars := by
    intro x member
    simp only [AllDigits, List.mem_cons, List.not_mem_nil, or_false, forall_eq_or_imp, forall_eq,
      List.mem_append] at *
    rcases member with (rfl | rfl | rfl | rfl | rfl | rfl | rfl | rfl) | inFraction
    · exact .inl first.1
    · exact .inl first.2
    · exact .inr (.inl rfl)
    · exact .inl middle.1
    · exact .inl middle.2
    · exact .inr (.inl rfl)
    · exact .inl last.1
    · exact .inl last.2
    · rcases isFraction with rfl | ⟨digits, _, all, rfl⟩
      · exact (List.not_mem_nil inFraction).elim
      · rcases List.mem_cons.mp inFraction with rfl | inDigits
        · exact .inr (.inr rfl)
        · exact .inl (all x inDigits)
  ends := by
    rcases isFraction with rfl | ⟨digits, nonempty, all, rfl⟩
    · exact ⟨f, rfl, last f (by simp)⟩
    · refine ⟨digits.getLast nonempty, ?_, all _ (List.getLast_mem nonempty)⟩
      simp [List.getLast?_cons, List.getLast?_eq_some_getLast nonempty]
  decimals := by
    rcases isFraction with rfl | ⟨digits, _, all, rfl⟩
    · exact fun _ member => (List.not_mem_nil member).elim
    · exact all

theorem spells_timeText : Spells timeText fun taken _ _ => TimeOfDay.IsText taken := by
  have seconds : Spells (Phrase.optional secondsText) fun taken _ _ => taken = [] ∨
      ∃ a b fraction, AllDigits [a, b] ∧ TimeOfDay.IsFraction fraction ∧ taken = ':' :: a :: b :: fraction :=
    spells_secondsText.optional (fun _ _ _ here => .inr here) fun _ => .inl rfl
  refine spells_twoDigits.bind fun _ _ => (spells_char ':').bind fun _ _ =>
    spells_twoDigits.bind fun _ _ => seconds.bind fun _ _ => spells_pure ?_
  rintro rest isSeconds ⟨c, d, last, rfl⟩ rfl ⟨a, b, first, rfl⟩
  rcases isSeconds with rfl | ⟨e, f, fraction, digits, isFraction, rfl⟩
  · exact isText_of_minutes first last
  · simpa using isText_of_seconds first last digits isFraction

theorem spells_offsetText : Spells offsetText fun taken _ _ => DateTime.IsOffsetText taken := by
  refine Spells.orElse (spells_satisfying.bind fun _ c => spells_pure ?_)
    (spells_satisfying.bind fun _ sign => spells_twoDigits.bind fun _ _ => (spells_char ':').bind fun _ _ =>
      spells_twoDigits.mono ?_)
  · rintro rest ⟨rfl, isZulu⟩
    exact .inr (.inl ⟨c, by simpa using isZulu, rfl⟩)
  · rintro taken _ rest ⟨c, d, digits, rfl⟩ rfl ⟨a, b, _, rfl⟩ ⟨rfl, isSign⟩
    exact .inr (.inr ⟨sign, a, b, c, d, by simpa using isSign, digits d (by simp), rfl⟩)

theorem spells_isoText : Spells isoText fun taken read _ => read = taken ∧ DateTime.IsText taken := by
  have offset : Spells (Phrase.optional offsetText) fun taken _ _ => DateTime.IsOffsetText taken :=
    spells_offsetText.optional (fun _ _ _ here => here) fun _ => .inl rfl
  refine Spells.token (Spells.spanned ?_)
  refine spells_dateText.bind fun date _ => spells_satisfying.bind fun _ letter =>
    spells_timeText.bind fun time _ => offset.mono ?_
  rintro offset _ rest isOffset isTime ⟨rfl, isLetter⟩ isDate
  exact ⟨date, letter, time, offset, isDate, by simpa using isLetter, isTime, isOffset, by simp⟩

/-! ## Numbers -/

/-- Whether no digit and no underscore is left. -/
abbrev EndsDigits (rest : List Char) : Prop := Stops (fun c => c.isDigit || c == '_') rest

theorem spells_digits : Spells Zinc.digits fun _ _ rest => EndsDigits rest :=
  spells_satisfying.bind fun _ _ => spells_run.bind fun _ _ => spells_pure fun _ ends _ => by
    simpa using ends.2.2

theorem spells_decimal : Spells decimal fun _ _ rest => EndsDigits rest := by
  have decimals : Spells (Phrase.optional do
      let _ ← char '.'
      Zinc.digits) fun taken _ rest => taken = [] ∨ EndsDigits rest :=
    Spells.unless_missing ((spells_char '.').bind fun _ _ => spells_digits.mono fun _ _ _ ends _ => ends)
  have exponent : Spells (Phrase.optional exponent) fun taken _ rest => taken = [] ∨ EndsDigits rest :=
    Spells.unless_missing (spells_satisfying.bind fun _ _ => spells_satisfying.anyway.bind fun _ _ =>
      spells_digits.mono fun _ _ _ ends _ _ => ends)
  refine Spells.token ((@Spells.spanned _ _ (fun _ rest => EndsDigits rest) ?_).mono
    fun _ _ _ here => here.2)
  refine (spells_char '-').anyway.bind fun _ _ => spells_digits.bind fun _ _ =>
    decimals.bind fun fraction _ => exponent.bind fun power _ => spells_pure ?_
  rintro rest (rfl | ends) (rfl | before) first _
  · simpa using first
  · simpa using before
  · simpa using ends
  · simpa using ends

theorem spells_unit : Spells Zinc.unit fun taken read rest => EndsDigits (taken ++ rest) → IsUnit read := by
  refine Spells.token (spells_run1.bind fun _ _ => spells_pure ?_)
  rintro rest ⟨rfl, nonempty, chars, _⟩ ends
  obtain ⟨first, others, shape⟩ := List.exists_cons_of_ne_nil nonempty
  refine ⟨?_, by simpa using chars, ?_⟩
  · rw [Ne, ← String.toList_eq_nil_iff, String.toList_ofList]
    exact nonempty
  · rw [String.toList_ofList, shape]
    rw [shape, List.append_nil, List.cons_append, EndsDigits, stops_cons] at ends
    intro head
    rw [Option.some.inj head] at ends
    exact absurd ends (by decide)

end Haystack.Zinc
