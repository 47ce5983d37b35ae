import Haystack.Csv.Cell
import Haystack.Proofs.Grid.Reading
import Haystack.Proofs.Text.Pieces
import Haystack.Proofs.Zinc.RoundTrip

/-!
Cells that are read as what they were written for.

The reader tries the forms that only cells have before it takes a cell for Zinc. None of them is the
Zinc text of a value of another kind: an empty text, the check mark and the words for truth values are
no Zinc at all, and what starts with `@` is a reference there too.
-/
namespace Haystack.Zinc

open Phrase

/-- After the sign of a reference nothing else is looked for. -/
theorem exists_found_reference (offset : Nat) (rest : List Char) : ∃ meaning after,
    (reference ⟨offset, '@' :: rest⟩).found = some (meaning, after) ∧
      ∀ back, meaning = .ok back → ∃ r, back = .ref r := by
  have front : (char '@' ⟨offset, '@' :: rest⟩).found = some ('@', ⟨offset + 1, rest⟩) := rfl
  rw [reference, found_named, found_bind, front, Option.bind_some, found_bind]
  simp only [run, Option.bind_some]
  rw [found_bind]
  simp only [Phrase.optional]
  split
  · next display after _ =>
    refine ⟨_, _, rfl, fun back same => ?_⟩
    cases display with
    | error refusal => cases same
    | ok text => exact ⟨_, (Except.ok.inj same).symm⟩
  · exact ⟨_, _, rfl, fun back same => ⟨_, (Except.ok.inj same).symm⟩⟩

theorem isRef_of_readValue {text : String} {version : Version} {rest : List Char} {back : Value}
    (read : readValue text version = .ok back) (front : text.toList = '@' :: rest) :
    ∃ r, back = .ref r := by
  obtain ⟨after, found⟩ := exists_found_of_readAll (readWhole_ok_iff.mp read)
  obtain ⟨meaning, afterMeaning, isMeaning, onlyRef⟩ := exists_found_reference 0 rest
  rw [front, Cursor.start, value, valueWithin, valueAround_eq, found_orElse, isMeaning, Option.some_or,
    Option.some.injEq, Prod.mk.injEq] at found
  exact onlyRef back found.1

end Haystack.Zinc

namespace Haystack.Csv

open Phrase
open Zinc (Representable)

variable {value : Value} {version : Version}

/-- The cells that only spreadsheets have, apart from references. -/
def words : List String := ["", checkMark, "true", "false"]

theorem readCell?_of_not_word {text : String} (noWord : text ∉ words) : readCell? text =
    match text.toList with
    | '@' :: rest => some (.ref (referenceOf rest))
    | _ => match Zinc.readValue text .three with
      | .ok value => some value
      | .error _ => some (.str text) := by
  simp only [words, List.mem_cons, List.not_mem_nil, or_false, not_or] at noWord
  obtain ⟨nonempty, noMark, noTrue, noFalse⟩ := noWord
  have shown : text.isEmpty ≠ true := by simpa using nonempty
  exact (if_neg shown).trans ((if_neg noMark).trans ((if_neg noTrue).trans (if_neg noFalse)))

/-! ## Cells in Zinc notation -/

theorem not_word_of_readValue {text : String} {back : Value}
    (read : Zinc.readValue text .three = .ok back) : text ∉ words := by
  have refused : ∀ text ∈ words, (Zinc.readValue text .three).toOption.isNone = true := by
    decide +kernel
  intro isWord
  have none := refused text isWord
  rw [read] at none
  exact nomatch none

/-- A cell in Zinc notation is read as such, unless it is a reference. -/
theorem readCell?_of_readValue {text : String} {back : Value}
    (read : Zinc.readValue text .three = .ok back) (noRef : ∀ r, back ≠ .ref r) :
    readCell? text = some back := by
  rw [readCell?_of_not_word (not_word_of_readValue read)]
  split
  · next rest front =>
    obtain ⟨r, rfl⟩ := Zinc.isRef_of_readValue read front
    exact absurd rfl (noRef r)
  · rw [read]

theorem exists_readCell?_of_readsBack (readsBack : Zinc.ReadsBack value)
    (atLeast : version.IsAtLeastThree) (noRef : ∀ r, value ≠ .ref r) :
    ∃ text back, Zinc.writeValue value version = .ok text ∧ readCell? text = some back ∧
      Value.near back value = true := by
  obtain ⟨text, back, written, near, readable⟩ := readsBack version atLeast
  have read : Zinc.readValue text .three = .ok back := Zinc.readValue_of_readable readable (by decide)
  refine ⟨text, back, written, readCell?_of_readValue read ?_, near⟩
  rintro r rfl
  cases value with
  | ref other => exact noRef other rfl
  | _ => simp [Value.near, Value.sameLeaf] at near

/-! ## Texts -/

theorem readCell?_quote (s : String) : readCell? (Zinc.quote s) = some (.str s) := by
  have readable : Zinc.Readable .three (Zinc.quote s) (.str s) :=
    Zinc.readable_of_reads fun _ _ _ => Zinc.reads_value_str s
  exact readCell?_of_readValue (Zinc.readValue_of_readable readable (by decide))
    fun _ => Value.noConfusion

/-- A text comes back whatever stands in it: it is quoted wherever it would be read as anything else. -/
theorem readCell?_str (s : String) :
    readCell? (if isAmbiguous s then Zinc.quote s else s) = some (.str s) := by
  by_cases ambiguous : isAmbiguous s = true
  · rw [if_pos ambiguous, readCell?_quote]
  -- A text that is not ambiguous has been read as itself already.
  · rw [if_neg ambiguous]
    unfold isAmbiguous at ambiguous
    split at ambiguous
    · exact absurd rfl ambiguous
    · next back read =>
      rw [read]
      cases back with
      | str other =>
          have same : other = s := by simpa [Value.same, Value.sameLeaf] using ambiguous
          rw [same]
      | _ => simp [Value.same, Value.sameLeaf] at ambiguous

/-! ## References -/

theorem readCell?_of_sign {text : String} {rest : List Char} (front : text.toList = '@' :: rest) :
    readCell? text = some (.ref (referenceOf rest)) := by
  have noWord : text ∉ words := by
    have otherFront : ∀ word ∈ words, word.toList.head? ≠ some '@' := by decide
    intro isWord
    exact otherFront text isWord (by rw [front]; rfl)
  rw [readCell?_of_not_word noWord, front]
  rfl

/-- A name has no blank in it, so that the display name is cut off where it starts. -/
theorem readCell?_referenceText {r : Ref} (chars : r.name.toList.all Zinc.isRefChar = true) :
    readCell? (referenceText r) = some (.ref r) := by
  have clean : ∀ c ∈ r.name.toList, (c == ' ') = false := by
    intro c member
    by_contra blank
    obtain rfl : c = ' ' := by simpa using blank
    exact absurd (List.all_eq_true.mp chars ' ' member) (by decide)
  obtain ⟨name, display⟩ := r
  cases display with
  | none =>
      have front : (referenceText ⟨name, none⟩).toList = '@' :: name.toList := by simp [referenceText]
      rw [readCell?_of_sign front, referenceOf, Text.cutFirst?_clean clean]
      simp
  | some display =>
      have front : (referenceText ⟨name, some display⟩).toList =
          '@' :: (name.toList ++ ' ' :: display.toList) := by simp [referenceText]
      rw [readCell?_of_sign front, referenceOf, Text.cutFirst?_append_cons clean (by decide)]
      simp

/-! ## Moments -/

/-- A moment needs no zone to be read at the same microsecond. -/
theorem exists_readCell?_moment {moment : DateTime} (isMoment : Zinc.IsMoment moment) :
    ∃ back, readCell? (moment.rfc3339 false) = some back ∧
      Value.near back (.dateTime moment) = true := by
  have writable := isMoment.isWritable
  obtain ⟨read, isRead, same⟩ := DateTime.read_rfc3339 writable false none
  have reads {parts : Phrase (Zinc.Reading Value)} :
      Reads (Zinc.valueAround parts .three) (moment.rfc3339 false).toList [] (.ok (.dateTime read)) := by
    refine (Zinc.passes_unmarked_of_moment writable).takes (Takes.orElse ?_)
    refine Takes.named (takes_here_bind fun offset => Reads.last (Zinc.reads_isoText writable false) ?_)
    refine Reads.skip (Fails.optional (Fails.bind (fails_char (by simp)))) ?_
    rw [Option.mapM_none]
    simp only [pure_bind, isRead]
    exact reads_pure
  have whole : Zinc.readValue (moment.rfc3339 false) .three = .ok (.dateTime read) :=
    Zinc.readValue_of_reads fun _ => reads
  refine ⟨.dateTime read, readCell?_of_readValue whole fun _ => Value.noConfusion, ?_⟩
  simp [Value.near, same isMoment.minutes]

/-! ## All values -/

/-- A value that can be written has a cell that is read as one near to it. -/
theorem exists_readCell? (representable : value.Throughout Representable)
    (atLeast : version.IsAtLeastThree) :
    ∃ text back, writeValue value version = .ok text ∧ readCell? text = some back ∧
      Value.near back value = true := by
  have readsBack := Zinc.readsBack_of_throughout representable
  cases value with
  | marker => exact ⟨checkMark, .marker, rfl, rfl, rfl⟩
  | bool b => exact ⟨_, .bool b, rfl, by cases b <;> rfl, Zinc.near_refl_of_leaf trivial⟩
  | str s => exact ⟨_, .str s, rfl, readCell?_str s, Zinc.near_refl_of_leaf trivial⟩
  | ref r => exact ⟨_, .ref r, rfl, readCell?_referenceText representable.here, Zinc.near_refl_of_leaf trivial⟩
  | dateTime moment =>
      obtain ⟨back, read, near⟩ := exists_readCell?_moment representable.here
      exact ⟨_, back, rfl, read, near⟩
  | _ => exact exists_readCell?_of_readsBack readsBack atLeast fun _ => Value.noConfusion

end Haystack.Csv
