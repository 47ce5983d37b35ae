import Haystack.Csv.Record
import Haystack.Proofs.Text.Pieces

/-!
Reading records that were written.

From the start of a field the reader takes the text of a field up to a stage in which the next comma
or line feed ends it. A record starts like a field unless its line is empty, and no line is.
-/
namespace Haystack.Csv

open Progress

/-- The stages in which a comma or a line feed ends a field. -/
def Stage.EndsFields (stage : Stage) : Prop :=
  stage = .fieldStart ∨ stage = .bare ∨ stage = .afterQuote

variable {stage : Stage} {records : List (List String)} {fields : List String} {field text : List Char}

theorem step_comma (ends : stage.EndsFields) :
    step ⟨stage, records, fields, field⟩ ',' =
      ⟨.fieldStart, records, String.ofList field.reverse :: fields, []⟩ := by
  rcases ends with rfl | rfl | rfl <;> rfl

theorem step_feed (ends : stage.EndsFields) :
    step ⟨stage, records, fields, field⟩ '\n' =
      ⟨.recordStart, (String.ofList field.reverse :: fields).reverse :: records, [], []⟩ := by
  rcases ends with rfl | rfl | rfl <;> rfl

/-! ## Fields -/

theorem unquoted_plain {p : Progress} {c : Char} (plain : needsQuotes [c] = false) :
    p.unquoted c = p.push .bare c := by
  simp only [needsQuotes, List.any_cons, List.any_nil, Bool.or_false, Bool.or_eq_false_iff,
    beq_eq_false_iff_ne] at plain
  rw [unquoted, if_neg plain.1.1.1, if_neg (by simp [plain.1.2, plain.2])]

theorem needsQuotes_cons {c : Char} {rest : List Char} :
    needsQuotes (c :: rest) = (needsQuotes [c] || needsQuotes rest) := by
  simp [needsQuotes]

theorem foldl_bare (plain : needsQuotes text = false) :
    text.foldl step ⟨.bare, records, fields, field⟩ =
      ⟨.bare, records, fields, text.reverse ++ field⟩ := by
  induction text generalizing field with
  | nil => rfl
  | cons c rest ih =>
      rw [needsQuotes_cons, Bool.or_eq_false_iff] at plain
      have first : step ⟨.bare, records, fields, field⟩ c = ⟨.bare, records, fields, c :: field⟩ :=
        unquoted_plain plain.1
      rw [List.foldl_cons, first, ih plain.2]
      simp

theorem foldl_doubled (text : List Char) :
    (text.flatMap fun c => if c = '"' then ['"', '"'] else [c]).foldl step
        ⟨.quoted, records, fields, field⟩ = ⟨.quoted, records, fields, text.reverse ++ field⟩ := by
  induction text generalizing field with
  | nil => rfl
  | cons c rest ih =>
      have first : (if c = '"' then ['"', '"'] else [c]).foldl step
          ⟨.quoted, records, fields, field⟩ = ⟨.quoted, records, fields, c :: field⟩ := by
        by_cases isQuote : c = '"'
        · rw [if_pos isQuote, isQuote]
          rfl
        · rw [if_neg isQuote]
          simp [step, isQuote, push]
      rw [List.flatMap_cons, List.foldl_append, first, ih]
      simp

/-- A field is taken whole, up to a stage in which a comma or a line feed ends it. -/
theorem exists_foldl_writeField (written : String) :
    ∃ stage : Stage, stage.EndsFields ∧
      (writeField written).toList.foldl step ⟨.fieldStart, records, fields, []⟩ =
        ⟨stage, records, fields, written.toList.reverse⟩ := by
  unfold writeField
  by_cases quotes : needsQuotes written.toList = true
  · refine ⟨.afterQuote, .inr (.inr rfl), ?_⟩
    have opened : step ⟨.fieldStart, records, fields, []⟩ '"' = ⟨.quoted, records, fields, []⟩ := rfl
    rw [if_pos quotes, String.toList_ofList, quoteField, List.cons_append, List.foldl_cons, opened,
      List.foldl_append, foldl_doubled, List.append_nil]
    rfl
  · rw [if_neg quotes]
    rw [Bool.not_eq_true] at quotes
    cases shape : written.toList with
    | nil => exact ⟨.fieldStart, .inl rfl, rfl⟩
    | cons c rest =>
        rw [shape, needsQuotes_cons, Bool.or_eq_false_iff] at quotes
        have noQuote : c ≠ '"' := by
          rintro rfl
          exact absurd quotes.1 (by decide)
        have first : step ⟨.fieldStart, records, fields, []⟩ c = ⟨.bare, records, fields, [c]⟩ := by
          rw [step, if_neg noQuote, unquoted_plain quotes.1]
          rfl
        refine ⟨.bare, .inr (.inl rfl), ?_⟩
        rw [List.foldl_cons, first, foldl_bare quotes.2, List.reverse_cons]

/-! ## Records -/

theorem foldl_fields (first : String) (others : List String) :
    ((String.intercalate "," ((first :: others).map writeField)).toList ++ ['\n']).foldl step
        ⟨.fieldStart, records, fields, []⟩ =
      ⟨.recordStart, (fields.reverse ++ first :: others) :: records, [], []⟩ := by
  rw [List.map_cons, show "," = String.singleton ',' from rfl, Text.toList_intercalate_char,
    List.append_assoc, List.foldl_append]
  induction others generalizing first fields with
  | nil =>
      obtain ⟨stage, ends, taken⟩ := @exists_foldl_writeField records fields first
      rw [taken, List.map_nil, List.flatMap_nil, List.nil_append, List.foldl_cons, step_feed ends]
      simp
  | cons second others ih =>
      obtain ⟨stage, ends, taken⟩ := @exists_foldl_writeField records fields first
      have rest := @ih (first :: fields) second
      rw [taken, List.map_cons, List.flatMap_cons, List.append_assoc, List.cons_append,
        List.foldl_cons, step_comma ends, List.reverse_reverse, String.ofList_toList,
        List.foldl_append, rest]
      simp

/-- A line that is not empty is read as if a field started. -/
theorem foldl_recordStart {c : Char} {rest : List Char} (noBreak : c ≠ '\n' ∧ c ≠ '\r') :
    (c :: rest).foldl step ⟨.recordStart, records, [], []⟩ =
      (c :: rest).foldl step ⟨.fieldStart, records, [], []⟩ := by
  have same : step ⟨.recordStart, records, [], []⟩ c = step ⟨.fieldStart, records, [], []⟩ c := by
    simp only [step, noBreak.1, noBreak.2, or_false, if_false]
    by_cases isQuote : c = '"'
    · rw [if_pos isQuote, if_pos isQuote]
    · rw [if_neg isQuote, if_neg isQuote]
      unfold unquoted
      by_cases isComma : c = ','
      · rw [if_pos isComma, if_pos isComma]
        rfl
      · simp only [noBreak.1, noBreak.2, or_false, if_false]
        rfl
  rw [List.foldl_cons, List.foldl_cons, same]

/-- What a field is written as starts with no line break. -/
theorem noBreak_of_writeField {written : String} {c : Char}
    (head : (writeField written).toList.head? = some c) : c ≠ '\n' ∧ c ≠ '\r' := by
  unfold writeField at head
  split at head
  · rw [String.toList_ofList] at head
    obtain rfl := Option.some.inj head
    decide
  · next plain =>
    rw [Bool.not_eq_true, needsQuotes, List.any_eq_false] at plain
    have here := plain c (List.mem_of_mem_head? head)
    simp only [Bool.or_eq_true, beq_iff_eq, not_or] at here
    exact ⟨here.1.2, here.2⟩

/-- The line of a record that is not written as a pair of quotes. -/
theorem exists_line {first : String} {others : List String} (notEmpty : first :: others ≠ [""]) :
    ∃ c rest, (String.intercalate "," ((first :: others).map writeField)).toList = c :: rest ∧
      c ≠ '\n' ∧ c ≠ '\r' := by
  rw [List.map_cons, show "," = String.singleton ',' from rfl, Text.toList_intercalate_char]
  cases shape : (writeField first).toList with
  | cons c rest =>
      exact ⟨c, _, rfl, noBreak_of_writeField (by rw [shape]; rfl)⟩
  | nil =>
      -- The line starts with a comma, since one empty field alone is excluded.
      cases others with
      | cons second others => exact ⟨',', _, rfl, by decide⟩
      | nil =>
          obtain ⟨stage, _, taken⟩ := @exists_foldl_writeField [] [] first
          rw [shape] at taken
          have none : first.toList.reverse = [] := (congrArg Progress.field taken).symm
          rw [List.reverse_eq_nil_iff, String.toList_eq_nil_iff] at none
          exact absurd (by rw [none]) notEmpty

theorem foldl_writeRecord {record : List String} (nonempty : record ≠ []) :
    (writeRecord record).toList.foldl step ⟨.recordStart, records, [], []⟩ =
      ⟨.recordStart, record :: records, [], []⟩ := by
  obtain ⟨first, others, rfl⟩ := List.exists_cons_of_ne_nil nonempty
  by_cases empty : first :: others = [""]
  · rw [empty]
    rfl
  · obtain ⟨c, rest, shape, noBreak⟩ := exists_line empty
    rw [writeRecord, if_neg (by simpa using empty), String.toList_append, shape,
      show "\n".toList = ['\n'] from rfl, List.cons_append, foldl_recordStart noBreak,
      ← List.cons_append, ← shape, foldl_fields]
    rfl

/-- Records that were written are read as they were, unless a mark stands in front of them. -/
theorem readRecords_writeRecord {written : List (List String)} (nonempty : ∀ record ∈ written, record ≠ [])
    (noMark : (String.join (written.map writeRecord)).toList.head? ≠ some '\uFEFF') :
    readRecords (String.join (written.map writeRecord)).toList = written := by
  have unmarked : Text.Utf8.withoutMark (String.join (written.map writeRecord)).toList =
      (String.join (written.map writeRecord)).toList := by
    unfold Text.Utf8.withoutMark
    split
    · next shape => exact absurd (by rw [shape]; rfl) noMark
    · rfl
  have run (records : List (List String)) :
      (String.join (written.map writeRecord)).toList.foldl step ⟨.recordStart, records, [], []⟩ =
        ⟨.recordStart, written.reverse ++ records, [], []⟩ := by
    clear noMark unmarked
    rw [String.toList_join, List.flatMap_map]
    induction written generalizing records with
    | nil => rfl
    | cons record others ih =>
        rw [List.forall_mem_cons] at nonempty
        rw [List.flatMap_cons, List.foldl_append, foldl_writeRecord nonempty.1, ih nonempty.2]
        simp
  rw [readRecords, unmarked, start, run []]
  simp [finish]

end Haystack.Csv
