import Haystack.Proofs.Zinc.Scalar

/-!
The phrase that reads a value, chosen by the front of the text.

The phrases are tried in a fixed order. A text with a mark of its own is read by the phrase for that
mark; what has none goes past them, then past dates, times and numbers, and then past the words.
-/
namespace Haystack.Zinc

open Phrase

/-! ## The order of the phrases -/

section Order

variable (value : Phrase (Reading Value)) (dialect : Version)

def collections : Phrase (Reading Value) :=
  list dialect value <|> dict dialect value <|> innerGrid value dialect

/-- The words for single values, and collections after them. -/
def words : Phrase (Reading Value) :=
  notAvailable dialect <|>
    (do let v ← singleton "N" .null; pure (.ok v)) <|>
    (do let v ← singleton "M" .marker; pure (.ok v)) <|>
    (do let v ← singleton "R" .remove; pure (.ok v)) <|>
    (do
      let v ← token ((do keyword "T"; pure (.bool true)) <|> (do keyword "F"; pure (.bool false)))
      pure (.ok v)) <|>
    collections value dialect

/-- What starts with digits, and the words after it. -/
def unmarked : Phrase (Reading Value) :=
  dateTime <|> date <|> time <|> number <|> words value dialect

theorem valueAround_eq : valueAround value dialect =
    (reference <|> (do let text ← quoted; pure (text.map .str)) <|> uri <|> bin <|> coordinate <|>
      encoded <|> unmarked value dialect) := rfl

end Order

variable {value : Phrase (Reading Value)} {dialect : Version} {text rest : List Char} {c : Char}
  {holds : Reading Value → Prop}

/-! ## Past the phrases with marks -/

/-- The characters that set off quoted values, and those that the words before parentheses start
with. -/
def isMark (c : Char) : Bool := c == '@' || c == '"' || c == '\x60' || c == 'B' || c == 'C'

theorem fails_str (differs : text.head? ≠ some '"') :
    Fails (do let text ← quoted; pure (text.map Value.str)) text :=
  Fails.bind (fails_quoted differs)

theorem fails_bin_of_head (differs : text.head? ≠ some 'B') : Fails bin text :=
  Fails.named (Fails.bind (fails_word (by decide) differs))

theorem fails_coordinate_of_head (differs : text.head? ≠ some 'C') : Fails coordinate text :=
  Fails.named (fails_here_bind fun _ => Fails.bind (fails_word (by decide) differs))

theorem passes_unmarked (stops : Stops isMark text) (noWord : Fails encoded text) :
    Passes (valueAround value dialect) (unmarked value dialect) text := by
  rw [valueAround_eq]
  refine (fails_reference (stops.head?_ne (by decide))).passes.trans ?_
  refine (fails_str (stops.head?_ne (by decide))).passes.trans ?_
  refine (fails_uri (stops.head?_ne (by decide))).passes.trans ?_
  refine (fails_bin_of_head (stops.head?_ne (by decide))).passes.trans ?_
  refine (fails_coordinate_of_head (stops.head?_ne (by decide))).passes.trans ?_
  exact noWord.passes

/-! ## Past dates, times and numbers -/

/-- The characters that a number starts with, apart from the word for what is not a number. -/
def isNumberStart (c : Char) : Bool := c.isDigit || c == '-' || c == 'I'

theorem fails_decimal (stops : Stops isNumberStart text) : Fails decimal text := by
  refine Fails.token (Fails.spanned ?_)
  refine Reads.skip_fails (Fails.optional (fails_char (stops.head?_ne (by decide)))) ?_
  refine Fails.bind (fails_digits fun d head => ?_)
  have rejected := stops d head
  simp only [isNumberStart, Bool.or_eq_false_iff] at rejected
  exact rejected.1.1

theorem fails_number (stops : Stops isNumberStart text) (noWord : Fails (word "NaN") text) :
    Fails number text := by
  refine Fails.named (Fails.orElse (Fails.bind (Fails.token ?_)) ?_)
  · refine Fails.orElse (Fails.bind (fails_word (c := '-') (by decide) ?_)) ?_
    · exact stops.head?_ne (by decide)
    refine Fails.orElse (Fails.bind (fails_word (c := 'I') (by decide) ?_)) (Fails.bind noWord)
    exact stops.head?_ne (by decide)
  · exact fails_here_bind fun _ => Fails.bind (fails_decimal stops)

theorem passes_words (stops : Stops isNumberStart text) (noWord : Fails (word "NaN") text) :
    Passes (unmarked value dialect) (words value dialect) text := by
  have noDigit : Stops Char.isDigit text := fun d head => by
    have rejected := stops d head
    simp only [isNumberStart, Bool.or_eq_false_iff] at rejected
    exact rejected.1.1
  refine (fails_dateTime (fails_isoText_of_date (fails_twoDigits_bind noDigit))).passes.trans ?_
  refine (fails_date (fails_twoDigits_bind noDigit)).passes.trans ?_
  refine (fails_time (fails_twoDigits_bind noDigit)).passes.trans ?_
  exact (fails_number stops noWord).passes

/-! ## Past words -/

theorem fails_keyword {word : String} (front : word.toList.head? = some c)
    (differs : text.head? ≠ some c) : Fails (keyword word) text :=
  Fails.bind (fails_word front differs)

theorem fails_notAvailable (fails : Fails (keyword "NA") text) : Fails (notAvailable dialect) text :=
  Fails.token (fails_here_bind fun _ => Fails.bind fails)

theorem fails_singleton {word : String} {constant : Value} (front : word.toList.head? = some c)
    (differs : text.head? ≠ some c) :
    Fails (do let v ← singleton word constant; pure (Except.ok v : Reading Value)) text :=
  Fails.bind (Fails.token (Fails.bind (fails_keyword front differs)))

/-- The characters that values without parts start with. -/
def isLeafStart (c : Char) : Bool :=
  isIdChar c || c == '-' || c == '@' || c == '"' || c == '`'

theorem passes_collections (stops : Stops isLeafStart text) :
    Passes (valueAround value dialect) (collections value dialect) text := by
  have noMark : Stops isMark text := stops.mono fun c isMark => by
    simp only [Zinc.isMark, Bool.or_eq_true, beq_iff_eq] at isMark
    rcases isMark with (((rfl | rfl) | rfl) | rfl) | rfl <;> decide
  have noNumber : Stops isNumberStart text := stops.mono fun c isNumber => by
    simp only [isNumberStart, Bool.or_eq_true, beq_iff_eq] at isNumber
    rcases isNumber with (isDigit | rfl) | rfl
    · simp [isLeafStart, isIdChar, Char.isAlphanum, isDigit]
    · decide
    · decide
  have noWord : Stops isIdChar text := stops.mono fun c isWord => by simp [isLeafStart, isWord]
  have noNaN : Fails (word "NaN") text := fails_word (c := 'N') (by decide) (stops.head?_ne (by decide))
  have noEncoding : Fails encoded text :=
    Fails.named (fails_here_bind fun _ => Fails.bind (Fails.token (fails_run1 noWord)))
  refine (passes_unmarked noMark noEncoding).trans ((passes_words noNumber noNaN).trans ?_)
  have absent {word : String} {c : Char} {constant : Value} (front : word.toList.head? = some c)
      (isLeaf : isLeafStart c = true) :
      Fails (do let v ← singleton word constant; pure (Except.ok v : Reading Value)) text :=
    fails_singleton front (stops.head?_ne isLeaf)
  refine (fails_notAvailable (fails_keyword (c := 'N') (by decide) ?_)).passes.trans ?_
  · exact stops.head?_ne (by decide)
  refine (absent (c := 'N') (by decide) (by decide)).passes.trans ?_
  refine (absent (c := 'M') (by decide) (by decide)).passes.trans ?_
  refine (absent (c := 'R') (by decide) (by decide)).passes.trans ?_
  refine (Fails.bind (Fails.token (Fails.orElse (Fails.bind ?_) (Fails.bind ?_)))).passes
  · exact fails_keyword (c := 'T') (by decide) (stops.head?_ne (by decide))
  · exact fails_keyword (c := 'F') (by decide) (stops.head?_ne (by decide))

/-- No value is where none of their first characters is. -/
theorem fails_valueAround (stops : Stops isValueStart text) :
    Fails (valueAround value dialect) text := by
  have noLeaf : Stops isLeafStart text := stops.mono fun c isLeaf => by
    simp only [isLeafStart, Bool.or_eq_true] at isLeaf
    simp only [isValueStart, Bool.or_eq_true]
    tauto
  refine (passes_collections noLeaf).fails (Fails.orElse ?_ (Fails.orElse ?_ ?_))
  · exact Fails.named (fails_here_bind fun _ => Fails.bind (fails_char (stops.head?_ne (by decide))))
  · exact Fails.named (fails_here_bind fun _ => Fails.bind (fails_char (stops.head?_ne (by decide))))
  · exact Fails.named (fails_here_bind fun _ =>
      Fails.bind (fails_word (c := '<') (by decide) (stops.head?_ne (by decide))))

/-! ## Words -/

theorem passes_words_of_word {others : List Char} (isWord : (c :: others).all isIdChar = true)
    (noMark : isMark c = false) (noNumber : isNumberStart c = false)
    (noNaN : (others ++ rest).head? ≠ some 'a') (follows : Follows rest) :
    Passes (valueAround value dialect) (words value dialect) (c :: others ++ rest) := by
  have noEncoding : Fails encoded (c :: others ++ rest) :=
    fails_encoded_of_absent (fun member => absurd (List.all_eq_true.mp isWord '(' member) (by decide)) follows
  have noWord : Fails (word "NaN") (c :: others ++ rest) := by
    rw [Phrase.word, show "NaN".toList = ['N', 'a', 'N'] by decide]
    by_cases same : c = 'N'
    · subst same
      change Fails _ (['N'] ++ (others ++ rest))
      exact Reads.bind_fails reads_char (fails_chars_cons noNaN)
    · exact fails_chars_cons fun head => same (Option.some.inj head)
  exact (passes_unmarked (stops_cons.mpr noMark) noEncoding).trans
    (passes_words (stops_cons.mpr noNumber) noWord)

section Words

variable (follows : Follows rest)

include follows

theorem reads_na (dialect3 : compare dialect .three ≠ .lt) :
    Reads (valueAround value dialect) "NA".toList rest (.ok .na) := by
  rw [show "NA".toList = ['N', 'A'] by decide]
  refine (passes_words_of_word (by decide) rfl rfl (by simp) follows).takes (Takes.orElse ?_)
  refine Takes.token (takes_here_bind fun offset => ?_)
  refine Reads.last (reads_keyword "NA" (follows.stops_of_all (by decide))) ?_
  rw [requireThree, if_neg (by simpa using dialect3)]
  exact reads_pure

theorem reads_null : Reads (valueAround value dialect) "N".toList rest (.ok .null) := by
  rw [show "N".toList = ['N'] by decide]
  refine (passes_words_of_word (by decide) rfl rfl ?_ follows).takes ?_
  · exact follows.head?_ne (by decide) (by decide)
  refine Fails.orElse_takes (fails_notAvailable (Fails.bind ?_)) (Takes.orElse ?_)
  · rw [Phrase.word, show "NA".toList = ['N', 'A'] by decide]
    exact Reads.bind_fails reads_char (fails_chars_cons (follows.head?_ne (by decide) (by decide)))
  · exact Reads.last (reads_singleton "N" .null (follows.stops_of_all (by decide))) reads_pure

theorem reads_marker : Reads (valueAround value dialect) "M".toList rest (.ok .marker) := by
  rw [show "M".toList = ['M'] by decide]
  refine (passes_words_of_word (by decide) rfl rfl ?_ follows).takes ?_
  · exact follows.head?_ne (by decide) (by decide)
  refine Fails.orElse_takes (fails_notAvailable (fails_keyword (c := 'N') (by decide) (by simp))) ?_
  refine Fails.orElse_takes (fails_singleton (c := 'N') (by decide) (by simp)) (Takes.orElse ?_)
  exact Reads.last (reads_singleton "M" .marker (follows.stops_of_all (by decide))) reads_pure

theorem reads_remove : Reads (valueAround value dialect) "R".toList rest (.ok .remove) := by
  rw [show "R".toList = ['R'] by decide]
  refine (passes_words_of_word (by decide) rfl rfl ?_ follows).takes ?_
  · exact follows.head?_ne (by decide) (by decide)
  refine Fails.orElse_takes (fails_notAvailable (fails_keyword (c := 'N') (by decide) (by simp))) ?_
  refine Fails.orElse_takes (fails_singleton (c := 'N') (by decide) (by simp)) ?_
  refine Fails.orElse_takes (fails_singleton (c := 'M') (by decide) (by simp)) (Takes.orElse ?_)
  exact Reads.last (reads_singleton "R" .remove (follows.stops_of_all (by decide))) reads_pure

theorem reads_bool (b : Bool) :
    Reads (valueAround value dialect) (if b then "T" else "F").toList rest (.ok (.bool b)) := by
  have stops : Stops isIdChar rest := follows.stops_of_all (by decide)
  have letter : (if b then "T" else "F").toList = [if b then 'T' else 'F'] := by
    cases b <;> decide
  have reads : Reads (token ((do keyword "T"; pure (Value.bool true)) <|>
      (do keyword "F"; pure (.bool false)))) (if b then "T" else "F").toList rest (.bool b) := by
    refine Takes.token ?_
    cases b with
    | true => exact Takes.orElse (Reads.last (reads_keyword "T" stops) reads_pure)
    | false =>
        refine Fails.orElse_takes (Fails.bind (fails_keyword (c := 'T') (by decide) (by simp))) ?_
        exact Reads.last (reads_keyword "F" stops) reads_pure
  rw [letter] at reads ⊢
  refine (passes_words_of_word ?_ ?_ ?_ ?_ follows).takes ?_
  · cases b <;> decide
  · cases b <;> rfl
  · cases b <;> rfl
  · exact follows.head?_ne (by decide) (by decide)
  have other {d : Char} (differs : d ≠ 'T' ∧ d ≠ 'F') :
      ([if b then 'T' else 'F'] ++ rest).head? ≠ some d := by
    intro head
    obtain rfl := Option.some.inj head
    cases b <;> simp at differs
  refine Fails.orElse_takes (fails_notAvailable (fails_keyword (c := 'N') (by decide) ?_)) ?_
  · exact other (by decide)
  refine Fails.orElse_takes (fails_singleton (c := 'N') (by decide) (other (by decide))) ?_
  refine Fails.orElse_takes (fails_singleton (c := 'M') (by decide) (other (by decide))) ?_
  refine Fails.orElse_takes (fails_singleton (c := 'R') (by decide) (other (by decide))) ?_
  exact Takes.orElse (Reads.last reads reads_pure)

end Words

/-! ## Values with marks -/

theorem reads_value_ref {r : Ref} (chars : r.name.toList.all isRefChar = true)
    (follows : Follows rest) :
    Reads (valueAround value dialect) (referenceText r).toList rest (.ok (.ref r)) :=
  Takes.orElse (reads_reference chars follows)

theorem reads_value_str (s : String) :
    Reads (valueAround value dialect) (quote s).toList rest (.ok (.str s)) := by
  refine Fails.orElse_takes (fails_reference ?_) (Takes.orElse ?_)
  · rw [quote_toList]
    simp
  · exact Reads.last (reads_quoted s rest) reads_pure

theorem reads_value_uri (s : String) :
    Reads (valueAround value dialect) (quoteUri s).toList rest (.ok (.uri s)) := by
  have head : ((quoteUri s).toList ++ rest).head? = some '\x60' := by
    rw [quoteUri_toList]
    rfl
  refine Fails.orElse_takes (fails_reference (by rw [head]; decide)) ?_
  refine Fails.orElse_takes (fails_str (by rw [head]; decide)) ?_
  exact Takes.orElse (reads_uri s rest)

/-- Past the phrases whose marks are single characters. -/
theorem passes_marks (stops : Stops (fun c => c == '@' || c == '"' || c == '\x60') text) :
    Passes (valueAround value dialect)
      (bin <|> coordinate <|> encoded <|> unmarked value dialect) text := by
  rw [valueAround_eq]
  refine (fails_reference (stops.head?_ne (by decide))).passes.trans ?_
  refine (fails_str (stops.head?_ne (by decide))).passes.trans ?_
  exact (fails_uri (stops.head?_ne (by decide))).passes

theorem reads_value_bin (mime : String) {version : Version}
    (atLeast : compare version .three ≠ .lt) :
    Reads (valueAround value dialect) (binText mime version).toList rest (.ok (.bin mime)) := by
  have head : ((binText mime version).toList ++ rest).head? = some 'B' := by
    rw [binText, if_pos (by simpa using atLeast)]
    simp
  refine (passes_marks fun c isHead => ?_).takes (Takes.orElse (reads_bin mime atLeast))
  rw [head] at isHead
  obtain rfl := Option.some.inj isHead
  rfl

theorem reads_value_coord {place : Coordinate} {latitude longitude : Binary64}
    (finite : place.latitude.isFinite = true ∧ place.longitude.isFinite = true)
    (isLatitude : Decimal.read (degreesText place.latitude).toList = .ok latitude)
    (isLongitude : Decimal.read (degreesText place.longitude).toList = .ok longitude) :
    Reads (valueAround value dialect) (coordinateText place).toList rest
      (.ok (.coord ⟨latitude, longitude⟩)) := by
  have head : ((coordinateText place).toList ++ rest).head? = some 'C' := by simp [coordinateText]
  refine (passes_marks fun c isHead => ?_).takes (Fails.orElse_takes (fails_bin_of_head ?_)
    (Takes.orElse (reads_coordinate finite isLatitude isLongitude)))
  · rw [head] at isHead
    obtain rfl := Option.some.inj isHead
    rfl
  · rw [head]
    decide

/-- The word before a parenthesis is told by what it is. -/
theorem eq_of_parenthesised {first word : List Char} (firstWord : ∀ c ∈ first, isIdChar c = true)
    (isWord : ∀ c ∈ word, isIdChar c = true) (shared : first ++ ['('] <+: word ++ '(' :: rest) :
    first = word := by
  obtain ⟨more, same⟩ := shared
  have cut {front tail : List Char} (all : ∀ c ∈ front, isIdChar c = true) :
      (front ++ '(' :: tail).takeWhile isIdChar = front := by
    rw [List.takeWhile_append_of_pos all, List.takeWhile_cons_of_neg (by decide), List.append_nil]
  rw [List.append_assoc] at same
  have fronts := congrArg (List.takeWhile isIdChar) same
  rwa [cut isWord, show ['('] ++ more = '(' :: more from rfl, cut firstWord] at fronts

theorem fails_word_of_encoding {expected word : String} (first : List Char)
    (isExpected : expected.toList = first ++ ['(']) (firstWord : first.all isIdChar = true)
    (isWord : word.toList.all isIdChar = true) (differs : word.toList ≠ first) :
    Fails (Phrase.word expected) (word.toList ++ '(' :: '"' :: rest) := by
  rw [List.all_eq_true] at firstWord isWord
  rw [Phrase.word, isExpected]
  have shape : word.toList ++ '(' :: '"' :: rest = (word.toList ++ ['(']) ++ '"' :: rest := by simp
  have accepted : ∀ c ∈ first ++ ['('], (isIdChar c || c == '(') = true := by
    intro c member
    rcases List.mem_append.mp member with inFirst | isLast
    · simp [firstWord c inFirst]
    · simp [List.mem_singleton.mp isLast]
  rw [shape]
  exact fails_chars (List.all_eq_true.mpr accepted) (stops_cons.mpr (by decide)) fun shared =>
    differs (eq_of_parenthesised firstWord isWord shared).symm

theorem reads_degrees_nil (noDigit : Stops Char.isDigit rest)
    (noSign : Stops (fun c => c == '-' || c == '.') rest) : Reads degrees [] rest [] := by
  refine Reads.spanned (a := ()) (Reads.skip (Fails.optional (fails_char ?_)) ?_)
  · exact noSign.head?_ne (by decide)
  refine Reads.skip (reads_run_nil noDigit) (Reads.skip (Fails.optional (Fails.bind ?_)) reads_pure)
  exact fails_char (noSign.head?_ne (by decide))

/-- Encoded bytes may have an encoding that starts like a coordinate, but no angle follows it. -/
theorem reads_value_xstr {x : XStr} {payload : String} (word : x.encoding.toList.all isIdChar = true)
    (nonempty : x.encoding ≠ "") (noBin : x.encoding ≠ "Bin")
    (made : XStr.ofText x.encoding payload = .ok x) :
    Reads (valueAround value dialect) (encodedText x).toList rest (.ok (.xstr x)) := by
  have shape : (encodedText x).toList ++ rest =
      x.encoding.toList ++ '(' :: '"' :: (quoteBody x.text.toList ++ '"' :: ')' :: rest) := by
    simp [encodedText, quote_toList]
  have chars : x.encoding.toList ≠ [] := fun none => nonempty (String.toList_eq_nil_iff.mp none)
  have noMark : Stops (fun c => c == '@' || c == '"' || c == '\x60') ((encodedText x).toList ++ rest) := by
    obtain ⟨first, others, front⟩ := List.exists_cons_of_ne_nil chars
    have isId : isIdChar first = true := List.all_eq_true.mp word first (by simp [front])
    rw [shape, front, List.cons_append, stops_cons]
    by_contra isMark
    simp only [Bool.not_eq_false, Bool.or_eq_true, beq_iff_eq] at isMark
    rcases isMark with (rfl | rfl) | rfl <;> exact absurd isId (by decide)
  refine (passes_marks noMark).takes (Fails.orElse_takes ?_ (Fails.orElse_takes ?_
    (Takes.orElse (reads_encoded word nonempty made))))
  · rw [shape]
    refine Fails.named (Fails.bind (fails_word_of_encoding ['B', 'i', 'n'] (by decide)
      (by decide) word fun same => noBin ?_))
    exact String.toList_inj.mp same
  · rw [shape]
    refine Fails.named (fails_here_bind fun offset => ?_)
    by_cases same : x.encoding.toList = ['C']
    · rw [same, Phrase.word, show "C(".toList = ['C', '('] by decide]
      change Fails _ (['C', '('] ++ '"' :: _)
      refine Reads.bind_fails reads_chars ?_
      refine Reads.skip_fails (reads_spaces_nil (stops_cons.mpr (by decide))) ?_
      refine Reads.skip_fails (reads_degrees_nil (by simp) (by simp)) ?_
      refine Reads.skip_fails (reads_spaces_nil (stops_cons.mpr (by decide))) ?_
      exact Fails.bind (fails_char (by simp))
    · exact Fails.bind (fails_word_of_encoding ['C'] (by decide) (by decide) word same)

/-! ## Values that start with digits -/

theorem isMark_of_isDigit (isDigit : c.isDigit = true) : isMark c = false := by
  by_contra mark
  simp only [isMark, Bool.not_eq_false, Bool.or_eq_true, beq_iff_eq] at mark
  rcases mark with (((rfl | rfl) | rfl) | rfl) | rfl <;> exact absurd isDigit (by decide)

/-- Digits before a hyphen or a colon start a date, a time or a moment. -/
theorem passes_unmarked_of_digits {digits more : List Char} (nonempty : digits ≠ [])
    (all : AllDigits digits) (separates : c = '-' ∨ c = ':') :
    Passes (valueAround value dialect) (unmarked value dialect) (digits ++ c :: more) := by
  refine passes_unmarked ?_ (fails_encoded_of_front (fun d member => ?_) ?_ ?_)
  · obtain ⟨first, others, rfl⟩ := List.exists_cons_of_ne_nil nonempty
    exact stops_cons.mpr (isMark_of_isDigit (all first (by simp)))
  · simp [isIdChar, Char.isAlphanum, all d member]
  · rcases separates with rfl | rfl <;> decide
  · rcases separates with rfl | rfl <;> decide

theorem reads_value_date {d : Date} (valid : d.isValid = true) (short : d.HasFourDigits)
    (follows : Follows rest) :
    Reads (valueAround value dialect) d.text.toList rest (.ok (.date d)) := by
  obtain ⟨year, month, day, shape, ⟨a, b, e, f, rfl⟩, _, _, yearDigits, _⟩ :=
    Date.exists_text valid short
  have passes : Passes (valueAround value dialect) (unmarked value dialect) (d.text.toList ++ rest) := by
    rw [shape, List.append_assoc]
    exact passes_unmarked_of_digits (by simp) yearDigits (.inl rfl)
  refine passes.takes (Fails.orElse_takes ?_ (Takes.orElse (reads_date valid short)))
  exact fails_dateTime_of_date valid short (follows.stops_of_all (by decide))

theorem reads_value_time {t : TimeOfDay} (inDay : t.InDay) (proper : t.IsProper)
    (follows : Follows rest) :
    Reads (valueAround value dialect) t.text.toList rest (.ok (.time t)) := by
  obtain ⟨hour, minute, second, fraction, shape, ⟨a, b, rfl⟩, _, _, hourDigits, _⟩ :=
    TimeOfDay.exists_text inDay
  have passes : Passes (valueAround value dialect) (unmarked value dialect) (t.text.toList ++ rest) := by
    rw [shape, List.append_assoc]
    exact passes_unmarked_of_digits (by simp) hourDigits (.inr rfl)
  have noDate : Fails dateText (t.text.toList ++ rest) := fails_dateText_of_time inDay
  refine passes.takes (Fails.orElse_takes (fails_dateTime (fails_isoText_of_date noDate)) ?_)
  refine Fails.orElse_takes (fails_date noDate) (Takes.orElse (reads_time inDay proper ?_))
  exact follows.stops_of_all (by decide)

theorem passes_unmarked_of_moment {moment : DateTime} (writable : moment.IsWritable) {zulu : Bool} :
    Passes (valueAround value dialect) (unmarked value dialect)
      ((moment.rfc3339 zulu).toList ++ rest) := by
  obtain ⟨year, month, day, shape, ⟨a, b, e, f, rfl⟩, _, _, yearDigits, _⟩ :=
    Date.exists_text DateTime.isValid_clock_date writable.year
  rw [DateTime.toList_rfc3339, DateTime.clockText, shape]
  simp only [List.append_assoc]
  exact passes_unmarked_of_digits (by simp) yearDigits (.inl rfl)

theorem exists_reads_value_dateTime {moment : DateTime} (writable : moment.IsWritable)
    (known : moment.zone.IsKnown) : ∃ read : DateTime,
      (moment.offset % 60 = 0 → read.microseconds = moment.microseconds) ∧
      ∀ (value : Phrase (Reading Value)) (dialect : Version) (rest : List Char), Follows rest →
        Reads (valueAround value dialect) (dateTimeText moment).toList rest (.ok (.dateTime read)) := by
  obtain ⟨read, same, reads⟩ := exists_reads_dateTime writable known
  refine ⟨read, same, fun value dialect rest follows => ?_⟩
  have passes : Passes (valueAround value dialect) (unmarked value dialect)
      ((dateTimeText moment).toList ++ rest) := by
    rw [dateTimeText, String.toList_append, String.toList_append, List.append_assoc, List.append_assoc]
    exact passes_unmarked_of_moment writable
  exact passes.takes (Takes.orElse (reads rest (follows.stops_of_all (by decide))))

/-- What the phrase for numbers reads, and those before it do not. -/
theorem reads_value_of_number {n : Number} (noMark : Stops isMark (text ++ rest))
    (noParenthesis : '(' ∉ text)
    (noClock : Fails dateText (text ++ rest) ∧ Fails timeText (text ++ rest)) (follows : Follows rest)
    (reads : Reads number text rest (.ok (.number n))) :
    Reads (valueAround value dialect) text rest (.ok (.number n)) := by
  obtain ⟨noDate, noTime⟩ := noClock
  have passes : Passes (valueAround value dialect) (unmarked value dialect) (text ++ rest) :=
    passes_unmarked noMark (fails_encoded_of_absent noParenthesis follows)
  refine passes.takes (Fails.orElse_takes (fails_dateTime (fails_isoText_of_date noDate)) ?_)
  refine Fails.orElse_takes (fails_date noDate) (Fails.orElse_takes (fails_time noTime) ?_)
  exact Takes.orElse reads

theorem reads_value_number {n : Number} (writable : IsWritable n) (follows : Follows rest) :
    Reads (valueAround value dialect) (numberText n).toList rest (.ok (.number n)) := by
  obtain ⟨first, others, shape, isFirst, noParenthesis⟩ := exists_numberText writable
  refine reads_value_of_number ?_ noParenthesis (fails_clock_of_number writable follows) follows
    (reads_number writable follows)
  rw [shape, List.cons_append, stops_cons]
  rcases isFirst with isDigit | isOther
  · exact isMark_of_isDigit isDigit
  · simp only [List.mem_cons, List.not_mem_nil, or_false] at isOther
    rcases isOther with rfl | rfl | rfl <;> rfl

end Haystack.Zinc
