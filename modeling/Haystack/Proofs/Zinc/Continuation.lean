import Haystack.Proofs.Zinc.Denoted
import Haystack.Proofs.Zinc.Undisturbed

/-!
Quoted values in texts that go on, and the choice between values.

A quotation mark closes a text wherever that goes on to. Only where one stands bare in a MIME type can
the text behind it be taken for a part of the value, so that is a condition on the text.
-/
namespace Haystack.Zinc

open Phrase

variable {more text rest : List Char} {ending : List Char → Prop} {value longer : Phrase (Reading Value)}
  {dialect : Version}

/-! ## Quoted texts -/

section Quoted

variable {unit? : List Char → Option Nat} {mark : Char} {taken rest other : List Char}

theorem startsUnicodeEscape_before (noDigit : isHexDigit mark = false) (noLetter : mark ≠ 'u' ∧ mark ≠ 'U')
    (body rest other : List Char) :
    startsUnicodeEscape (body ++ mark :: rest) = startsUnicodeEscape (body ++ mark :: other) := by
  have absent (tail : List Char) : startsUnicodeEscape (mark :: tail) = false := by
    rcases tail with _ | ⟨a, _ | ⟨b, _ | ⟨c, _ | ⟨d, tail⟩⟩⟩⟩ <;> simp [startsUnicodeEscape, noLetter]
  rcases body with _ | ⟨u, _ | ⟨a, _ | ⟨b, _ | ⟨c, _ | ⟨d, body⟩⟩⟩⟩⟩
  case nil => rw [List.nil_append, List.nil_append, absent, absent]
  case cons.cons.cons.cons.cons => rfl
  all_goals
    rcases rest with _ | ⟨_, _ | ⟨_, _ | ⟨_, rest⟩⟩⟩ <;> rcases other with _ | ⟨_, _ | ⟨_, _ | ⟨_, other⟩⟩⟩ <;>
      simp [startsUnicodeEscape, noDigit]

/-- Units that are told from what stands before a closing mark. -/
structure EndsUnits (unit? : List Char → Option Nat) (mark : Char) : Prop where
  closes : ∀ rest, unit? (mark :: rest) = none
  same : ∀ c body rest other, unit? (c :: (body ++ mark :: rest)) = unit? (c :: (body ++ mark :: other))

theorem endsUnits_string : EndsUnits stringUnit? '"' where
  closes rest := rfl
  same c body rest other := by
    have escape : startsUnicodeEscape (body ++ '"' :: rest) = startsUnicodeEscape (body ++ '"' :: other) :=
      startsUnicodeEscape_before (by decide) (by decide) body rest other
    simp only [stringUnit?, escape]
    cases body <;> rfl

theorem endsUnits_uri : EndsUnits uriUnit? '\x60' where
  closes rest := rfl
  same c body rest other := by
    have escape : startsUnicodeEscape (body ++ '\x60' :: rest) = startsUnicodeEscape (body ++ '\x60' :: other) :=
      startsUnicodeEscape_before (by decide) (by decide) body rest other
    simp only [uriUnit?, escape]
    cases body <;> rfl

/-- The units before a closing mark are measured the same, whatever comes after it. -/
theorem EndsUnits.unitsLength_eq (ends : EndsUnits unit? mark) {skip : Nat}
    (measured : unitsLength unit? skip (taken ++ mark :: rest) = taken.length) :
    unitsLength unit? skip (taken ++ mark :: other) = taken.length := by
  induction taken generalizing skip with
  | nil =>
      cases skip with
      | zero => simp [unitsLength, ends.closes]
      | succ skip => simp [unitsLength] at measured
  | cons c taken ih =>
      rw [List.cons_append] at measured ⊢
      cases skip with
      | succ skip =>
          rw [unitsLength, List.length_cons, Nat.add_right_cancel_iff] at measured
          rw [unitsLength, List.length_cons, ih measured]
      | zero =>
          rw [unitsLength, ends.same c taken rest other] at measured
          rw [unitsLength]
          cases isUnit : unit? (c :: (taken ++ mark :: other)) with
          | none => simp [isUnit] at measured
          | some size =>
              simp only [isUnit, List.length_cons, Nat.add_right_cancel_iff] at measured
              simp only [List.length_cons, ih measured]

/-- What is between a mark and the next one that closes it stays the same. -/
theorem keeps_closed {β : Type} {k : Continuation} {goal : β → β → Prop} {next others : List Char → Phrase β}
    (ends : EndsUnits unit? mark) (back : ∀ body, Keeps k 0 ending goal (next body) (others body)) :
    Keeps k 0 ending goal
      (do let body ← Phrase.take (unitsLength unit? 0); let _ ← char mark; next body)
      (do let body ← Phrase.take (unitsLength unit? 0); let _ ← char mark; others body) := by
  intro cursor b after admitted found isEnding
  obtain ⟨offset, text⟩ := cursor
  simp only [found_bind, Option.bind_eq_some_iff, Prod.exists] at found
  obtain ⟨body, middle, isBody, _, last, isMark, found⟩ := found
  obtain ⟨rfl, rfl⟩ := Prod.mk.inj (Option.some.inj isBody)
  obtain ⟨_, parts, _, rfl⟩ := spells_char mark _ _ _ isMark
  have size : (text.take (unitsLength unit? 0 text)).length = unitsLength unit? 0 text := by
    refine List.length_take_of_le (Nat.le_of_lt (Nat.lt_of_not_le fun beyond => ?_))
    exact absurd ((List.drop_eq_nil_of_le beyond).symm.trans parts) (by simp)
  obtain ⟨body, isBody⟩ : ∃ body, body = text.take (unitsLength unit? 0 text) := ⟨_, rfl⟩
  have shape : text = body ++ mark :: last.rest := by
    rw [isBody, ← List.singleton_append, ← parts, List.take_append_drop]
  rw [← isBody] at size found
  have measured : unitsLength unit? 0 (body ++ mark :: last.rest) = body.length := by rw [← shape, size]
  have admittedRest : k.admits last.rest :=
    k.admits_rest (body ++ [mark]) _ (by simpa [← shape] using admitted)
  obtain ⟨taken, rests, _, takes⟩ := back body last b after admittedRest found isEnding
  refine ⟨body ++ ([mark] ++ taken), by simp [shape, rests], Nat.zero_le _, ?_⟩
  refine Reads.bind (reads_take ?_) (Reads.bind reads_char takes)
  rw [rests] at measured
  have longer : unitsLength unit? 0 (body ++ mark :: (taken ++ (after.rest ++ k.more))) = body.length :=
    ends.unitsLength_eq measured
  simpa using longer

end Quoted

/-! ## Where a text goes on -/

/-- Whether a quotation mark closes what stands before it. -/
def isClosed (body : List Char) : Bool := (body.drop (unitsLength stringUnit? 0 body)).head? == some '"'

/-- Each quotation mark that a MIME type in the text starts with is closed in the text, if it is closed in
the text with what comes behind it. -/
def Closes (more text : List Char) : Prop :=
  ∀ front mime rest, text = front ++ "Bin(\"".toList ++ mime ++ ')' :: rest → mime.all isMimeChar = true →
    isClosed (mime ++ ')' :: rest ++ more) = true → isClosed (mime ++ ')' :: rest) = true

/-- Going on with a text, where that does not close a quotation mark in a MIME type. -/
def onward (more : List Char) : Continuation where
  more := more
  admits := Closes more
  admits_rest taken rest closes := by
    intro front mime others parts
    refine closes (taken ++ front) mime others ?_
    rw [parts]
    simp only [List.append_assoc]

/-- A mark is closed where the units behind it are measured up to another. -/
theorem isClosed_iff {body : List Char} : isClosed body = true ↔
    ∃ taken rest, body = taken ++ '"' :: rest ∧ unitsLength stringUnit? 0 body = taken.length := by
  rw [isClosed, beq_iff_eq]
  constructor
  · intro head
    obtain ⟨rest, shape⟩ := List.head?_eq_some_iff.mp head
    have within : unitsLength stringUnit? 0 body ≤ body.length := by
      refine Nat.le_of_lt (Nat.lt_of_not_le fun beyond => ?_)
      exact absurd ((List.drop_eq_nil_of_le beyond).symm.trans shape) (by simp)
    refine ⟨body.take (unitsLength stringUnit? 0 body), rest, ?_, (List.length_take_of_le within).symm⟩
    rw [← shape, List.take_append_drop]
  · rintro ⟨taken, rest, shape, size⟩
    rw [size, shape, List.drop_left]
    rfl

theorem isClosed_of_append {body : List Char} {c : Char} (other : c ≠ '"') (closed : isClosed (body ++ [c]) = true) :
    isClosed body = true := by
  obtain ⟨taken, rest, shape, size⟩ := isClosed_iff.mp closed
  rcases List.eq_nil_or_concat rest with rfl | ⟨others, last, rfl⟩
  · exact absurd (List.cons.inj (List.append_inj_right' shape rfl)).1 other
  · have whole : body ++ [c] = (taken ++ '"' :: others) ++ [last] := shape.trans (by simp)
    have parts : body = taken ++ '"' :: others := List.append_inj_left' whole rfl
    refine isClosed_iff.mpr ⟨taken, others, parts, ?_⟩
    rw [shape] at size
    rw [parts]
    exact endsUnits_string.unitsLength_eq size

/-- What closes no mark in a text in parentheses closes none in it together with the parenthesis. -/
theorem Closes.inside {tail inner : List Char} (closes : Closes tail ('(' :: (inner ++ [')']))) :
    Closes (')' :: tail) inner := by
  intro front mime rest parts all closed
  refine isClosed_of_append (c := ')') (by decide) ?_
  have within := closes ('(' :: front) mime (rest ++ [')']) (by simp [parts]) all
  simp only [List.append_assoc, List.cons_append, List.nil_append] at within closed ⊢
  exact within closed

theorem closes_nil : Closes [] text := fun _ _ _ _ _ closed => by simpa using closed

/-- Nothing is open in a text without such types. -/
theorem closes_of_no_mark (none : ¬ "Bin(\"".toList <:+: text) : Closes more text := fun front mime rest parts => by
  refine absurd ⟨front, mime ++ ')' :: rest, ?_⟩ none
  rw [parts]
  simp

/-- A text does not start with a quoted text in parentheses, nor with such a text after letters and digits. -/
def Unquoted (text : List Char) : Prop := ¬ ['(', '"'] <+: text.dropWhile isIdChar

/-- What may be left of a text behind a value. -/
structure Apart (rest : List Char) : Prop where
  unquoted : Unquoted rest
  display : (rest.dropWhile (· == ' ')).head? ≠ some '"'

theorem unquoted_append {taken : List Char} (clean : '(' ∉ taken) (unquoted : Unquoted rest) :
    Unquoted (taken ++ rest) := by
  induction taken with
  | nil => exact unquoted
  | cons c taken ih =>
      rw [List.mem_cons, not_or] at clean
      rw [Unquoted, List.cons_append]
      by_cases isWord : isIdChar c = true
      · rw [List.dropWhile_cons_of_pos isWord]
        exact ih clean.2
      · rw [List.dropWhile_cons_of_neg isWord]
        exact fun quoted => clean.1 (List.cons_prefix_cons.mp quoted).1

theorem Undisturbed.leads {α : Type} {least : Nat} {goes : α → α → Prop} {p : Phrase α}
    (undisturbed : Undisturbed more least goes p) : Leads Unquoted p Apart := by
  intro cursor a after found apart
  obtain ⟨taken, parts, _, clean, _⟩ := Settled.found undisturbed found
  rw [parts]
  exact unquoted_append clean apart.unquoted

/-! ## Values with marks -/

section Marks

theorem keeps_spaces {k : Continuation} (stops : ∀ rest, ending rest → rest ≠ []) :
    Keeps k 0 ending Eq spaces spaces :=
  (keeps_run stops).bind (fun _ _ _ => keeps_pure rfl) fun _ => leads_pure fun _ => id

/-- Spaces before what has to be there. -/
theorem Keeps.after_spaces {β : Type} {k : Continuation} {least : Nat} {goal : β → β → Prop} {p q : Phrase β}
    (keeps : Keeps k least ending goal p q) (present : Leads (· ≠ []) p ending) :
    Keeps k least ending goal (do spaces; p) (do spaces; q) := by
  have whole := (keeps_spaces fun _ => id).bind (fun _ _ _ => keeps) fun _ => present
  rwa [Nat.zero_add] at whole

theorem keeps_quoted {k : Continuation} : Keeps k 0 ending Carries quoted quoted :=
  Keeps.weaken (Keeps.named (keeps_here_bind fun _ _ => keeps_char.bind_eq fun _ =>
    keeps_closed endsUnits_string fun _ => keeps_pure carries_blame))

theorem keeps_str {k : Continuation} : Keeps k 0 ending Carries
    (do let text ← quoted; pure (text.map Value.str)) (do let text ← quoted; pure (text.map Value.str)) :=
  keeps_quoted.bind (fun _ _ carries => keeps_pure carries.map) fun _ => leads_anywhere fun _ => trivial

theorem keeps_uri {k : Continuation} : Keeps k 0 ending Carries uri uri :=
  Keeps.weaken (Keeps.named (keeps_here_bind fun _ _ => keeps_char.bind_eq fun _ =>
    keeps_closed endsUnits_uri fun _ => keeps_pure carries_blame))

/-- The display name of a reference. -/
def displayName : Phrase (Reading String) := do
  let _ ← run1 (· == ' ')
  quoted

theorem fails_displayName (other : (text.dropWhile (· == ' ')).head? ≠ some '"') : Fails displayName text := by
  rw [← List.takeWhile_append_dropWhile (p := (· == ' ')) (l := text)]
  have stops : Stops (· == ' ') (text.dropWhile (· == ' ')) := stops_dropWhile
  by_cases none : text.takeWhile (· == ' ') = []
  · rw [none]
    exact Fails.bind (fails_run1 stops)
  · exact Reads.bind_fails (reads_run1 (fun _ => List.mem_takeWhile_imp) none stops) (fails_quoted other)

theorem Breaks.display_append (breaks : Breaks more) (other : (rest.dropWhile (· == ' ')).head? ≠ some '"') :
    ((rest ++ more).dropWhile (· == ' ')).head? ≠ some '"' := by
  rw [List.dropWhile_append]
  split
  · exact breaks.display
  · next some =>
    obtain ⟨c, others, shape⟩ := List.exists_cons_of_ne_nil (l := rest.dropWhile (· == ' ')) (by simpa using some)
    rw [shape] at other ⊢
    exact other

theorem keeps_reference (breaks : Breaks more) : Keeps (onward more) 0 Apart Carries reference reference := by
  have display : Keeps (onward more) 0 Apart Carries displayName displayName :=
    Keeps.weaken ((keeps_run1 fun _ => id).bind (fun _ _ _ => keeps_quoted)
      fun _ => leads_ne_nil (fails_quoted (by simp)))
  have given : Keeps (onward more) 0 Apart (Option.Rel Carries) (Phrase.optional displayName)
      (Phrase.optional displayName) :=
    display.optional (fun _ => id) fun _ _ _ apart => fails_displayName (breaks.display_append apart.display)
  refine Keeps.weaken (Keeps.named (keeps_char.bind_eq fun _ => (breaks.run (by decide)).keeps.bind_eq fun name =>
    given.bind (fun here there related => keeps_pure ?_) fun _ => leads_pure fun _ => id))
  cases related with
  | none => exact carries_refl
  | some carries => exact carries.bind fun _ => carries_refl

theorem keeps_coordinate (breaks : Breaks more) : Keeps (onward more) 0 ending Carries coordinate coordinate :=
  Keeps.weaken (Keeps.named (keeps_here_bind fun _ _ => keeps_chars.bind_eq fun _ =>
    Keeps.after_spaces (breaks.degrees.keeps.bind_eq fun _ =>
      Keeps.after_spaces (Keeps.weaken (keeps_char.bind_eq fun _ =>
        Keeps.after_spaces (breaks.degrees.keeps.bind_eq fun _ =>
          Keeps.after_spaces (Keeps.weaken (keeps_char.bind_eq fun _ => keeps_pure carries_blame))
            (leads_ne_nil (fails_of_found fun _ => rfl)))
          (leads_ne_nil (fails_of_found fun _ => rfl))))
        (leads_ne_nil (fails_of_found fun _ => rfl)))
      (leads_ne_nil (fails_of_found fun _ => rfl))))

theorem keeps_encoded (breaks : Breaks more) : Keeps (onward more) 0 ending Carries encoded encoded := by
  refine Keeps.weaken (Keeps.named (keeps_here_bind fun offset offset' => (breaks.run1 (by decide)).token.keeps.bind_eq
    fun encoding => keeps_char.bind_eq fun _ => keeps_quoted.bind
    (fun here there carries => keeps_char.bind_eq fun _ => keeps_pure ?_) fun _ => leads_anywhere fun _ => trivial))
  refine carries.bind fun payload => ?_
  cases XStr.ofText (String.ofList encoding) payload with
  | ok x => exact carries_refl
  | error cause => exact fun _ same => nomatch same

/-- A MIME type without quotation marks around it. -/
def bareMime : Phrase (Reading String) := do
  let mime ← run isMimeChar
  pure (Except.ok (String.ofList mime))

theorem found_quoted_eq_none_iff {offset : Nat} {body : List Char} :
    (quoted ⟨offset, '"' :: body⟩).found = none ↔ isClosed body = false := by
  have opened : (char '"' ⟨offset, '"' :: body⟩).found = some ('"', ⟨offset + 1, body⟩) := by
    have reads : Reads (char '"') ['"'] body '"' := reads_char
    simpa using reads.found offset
  rw [quoted, found_named, found_bind, here, Option.bind_some, found_bind, opened, Option.bind_some, found_bind,
    Phrase.take, Option.bind_some, found_bind, isClosed]
  cases body.drop (unitsLength stringUnit? 0 body) with
  | nil => simp [char, Phrase.satisfying]
  | cons c rest => by_cases same : c = '"' <;> simp [char, Phrase.satisfying, same, pure, Phrase.pure]

theorem spells_bareMime : Spells bareMime fun taken reading _ =>
    reading = .ok (String.ofList taken) ∧ ∀ c ∈ taken, isMimeChar c = true := by
  refine spells_run.bind fun taken mime => spells_pure fun rest spelled => ?_
  obtain ⟨rfl, all, _⟩ := spelled
  rw [List.append_nil]
  exact ⟨rfl, all⟩

/-- A bare type stays bare, since the quotation mark that it may start with is not closed behind the text. -/
theorem exists_takes_mime {cursor middle : Cursor} {mime : Reading String}
    (closes : ∀ mime rest, cursor.rest = '"' :: mime ++ ')' :: rest → mime.all isMimeChar = true →
      isClosed (mime ++ ')' :: rest ++ more) = true → isClosed (mime ++ ')' :: rest) = true)
    (found : ((quoted <|> bareMime) cursor).found = some (mime, middle)) (close : middle.rest = ')' :: rest) :
    ∃ body, cursor.rest = body ++ middle.rest ∧
      Takes (quoted <|> bareMime) body (middle.rest ++ more) (Carries mime) := by
  rw [found_orElse, Option.or_eq_some_iff] at found
  rcases found with isQuoted | ⟨unquoted, isBare⟩
  · have kept : Keeps ⟨more, fun _ => True, fun _ _ => id⟩ 0 (fun _ => True) Carries quoted quoted := keeps_quoted
    obtain ⟨body, shape, _, takes⟩ := kept cursor mime middle trivial isQuoted trivial
    exact ⟨body, shape, takes.orElse⟩
  · obtain ⟨body, shape, _, rfl, all⟩ := spells_bareMime cursor mime middle isBare
    rw [close] at shape ⊢
    have stays : Fails quoted (body ++ (')' :: rest ++ more)) := by
      by_cases marked : body.head? = some '"'
      · obtain ⟨mime, rfl⟩ : ∃ mime, body = '"' :: mime := by
          cases body with
          | nil => exact nomatch marked
          | cons c mime => exact ⟨mime, by rw [Option.some.inj marked]⟩
        obtain ⟨offset, text⟩ := cursor
        obtain rfl : text = '"' :: (mime ++ ')' :: rest) := shape
        have isOpen := found_quoted_eq_none_iff.mp unquoted
        refine fails_of_found fun offset' => found_quoted_eq_none_iff.mpr (Bool.eq_false_iff.mpr fun closed => ?_)
        have closedHere := closes mime rest rfl (List.all_eq_true.mpr fun c member => all c (.tail _ member))
          (by simpa using closed)
        rw [isOpen] at closedHere
        contradiction
      · refine fails_quoted fun head => marked ?_
        cases body with
        | nil => exact absurd head (by simp)
        | cons c mime => exact head
    have stops : Stops isMimeChar (')' :: rest ++ more) := stops_cons.mpr (by decide)
    exact ⟨body, shape, stays.orElse_takes (Reads.last (reads_run all stops) (takes_pure carries_refl))⟩

theorem keeps_bin : Keeps (onward more) 0 ending Carries bin bin := by
  intro cursor reading after closes found _
  rw [bin, found_named, found_bind, Option.bind_eq_some_iff] at found
  obtain ⟨⟨_, inner⟩, isWord, found⟩ := found
  obtain ⟨_, parts, _, rfl⟩ := spells_chars _ _ _ isWord
  rw [found_bind, Option.bind_eq_some_iff] at found
  obtain ⟨⟨mime, middle⟩, isMime, found⟩ := found
  rw [found_bind, Option.bind_eq_some_iff] at found
  obtain ⟨⟨_, last⟩, isMark, made⟩ := found
  obtain ⟨rfl, rfl⟩ := Prod.mk.inj (Option.some.inj made)
  obtain ⟨_, close, _, rfl⟩ := spells_char ')' _ _ _ isMark
  have within (mime rest : List Char) (isRest : inner.rest = '"' :: mime ++ ')' :: rest) :
      cursor.rest = [] ++ "Bin(\"".toList ++ mime ++ ')' :: rest := by
    rw [parts, isRest]
    rfl
  obtain ⟨body, shape, takes⟩ := @exists_takes_mime more last.rest inner middle mime
    (fun mime rest isRest => closes [] mime rest (within mime rest isRest)) isMime close
  refine ⟨"Bin(".toList ++ (body ++ [')']), by rw [parts, shape, close]; simp, Nat.zero_le _, ?_⟩
  rw [close, List.append_assoc] at takes
  refine Takes.named (Reads.bind (reads_word "Bin(") ?_)
  exact Takes.bind takes fun other carries => Reads.last reads_char (takes_pure carries.map)

end Marks

/-! ## The choice between values -/

/-- The characters that values without marks start with. -/
def isUnmarkedStart (c : Char) : Bool :=
  isNumberStart c || c == 'N' || c == 'M' || c == 'R' || c == 'T' || c == 'F' || c == '[' || c == '\x7b' || c == '<'

theorem fails_unmarked (stops : Stops isUnmarkedStart text) : Fails (unmarked value dialect) text := by
  have absent {word : String} {constant : Value} {c : Char} (front : word.toList.head? = some c)
      (starts : isUnmarkedStart c = true) :
      Fails (do let v ← singleton word constant; pure (Except.ok v : Reading Value)) text :=
    fails_singleton front (stops.head?_ne starts)
  have noWord : Fails (word "NaN") text := fails_word (c := 'N') (by decide) (stops.head?_ne (by decide))
  refine (passes_words (stops.mono fun c isNumber => by simp [isUnmarkedStart, isNumber]) noWord).fails ?_
  refine Fails.orElse (fails_notAvailable (fails_keyword (c := 'N') (by decide) (stops.head?_ne (by decide)))) ?_
  refine Fails.orElse (absent (c := 'N') (by decide) (by decide)) ?_
  refine Fails.orElse (absent (c := 'M') (by decide) (by decide)) ?_
  refine Fails.orElse (absent (c := 'R') (by decide) (by decide)) (Fails.orElse ?_ ?_)
  · refine Fails.bind (Fails.token (Fails.orElse (Fails.bind ?_) (Fails.bind ?_)))
    · exact fails_keyword (c := 'T') (by decide) (stops.head?_ne (by decide))
    · exact fails_keyword (c := 'F') (by decide) (stops.head?_ne (by decide))
  · refine Fails.orElse ?_ (Fails.orElse ?_ ?_)
    · exact Fails.named (fails_here_bind fun _ => Fails.bind (fails_char (stops.head?_ne (by decide))))
    · exact Fails.named (fails_here_bind fun _ => Fails.bind (fails_char (stops.head?_ne (by decide))))
    · exact Fails.named (fails_here_bind fun _ =>
        Fails.bind (fails_word (c := '<') (by decide) (stops.head?_ne (by decide))))

/-- Past the marks of single characters nothing starts with such a mark. -/
theorem fails_after_marks {c : Char} (head : text.head? = some c) (isMark : c = '@' ∨ c = '"' ∨ c = '\x60') :
    Fails (bin <|> coordinate <|> encoded <|> unmarked value dialect) text := by
  obtain ⟨others, rfl⟩ : ∃ others, text = c :: others := by
    cases text with
    | nil => exact nomatch head
    | cons d others => exact ⟨others, by rw [Option.some.inj head]⟩
  have noWord : isIdChar c = false := by rcases isMark with rfl | rfl | rfl <;> decide
  have other {d : Char} (differs : d ≠ '@' ∧ d ≠ '"' ∧ d ≠ '\x60') : (c :: others).head? ≠ some d := by
    intro same
    obtain rfl := Option.some.inj same
    tauto
  refine Fails.orElse (fails_bin_of_head (other (by decide))) (Fails.orElse ?_ (Fails.orElse ?_ ?_))
  · exact fails_coordinate_of_head (other (by decide))
  · refine fails_encoded ?_
    rw [List.dropWhile_cons_of_neg (by simp [noWord])]
    exact other (by decide)
  · refine fails_unmarked (stops_cons.mpr ?_)
    rcases isMark with rfl | rfl | rfl <;> decide

/-- An encoded text starts with letters and digits, a parenthesis and a quoted text. -/
theorem front_of_encoded {cursor after : Cursor} {reading : Reading Value}
    (found : (encoded cursor).found = some (reading, after)) :
    ∃ name body, cursor.rest = name ++ '(' :: '"' :: body ∧ ∀ c ∈ name, isIdChar c = true := by
  simp only [encoded, found_named, found_bind, Option.bind_eq_some_iff, Prod.exists] at found
  obtain ⟨offset, start, isStart, name, afterName, isName, _, middle, isOpen, text, last, isText, _⟩ := found
  obtain ⟨_, rfl⟩ := Prod.mk.inj (Option.some.inj isStart)
  obtain ⟨_, nameRest, _, rfl, _, chars, _⟩ := spells_run1.token _ _ _ isName
  obtain ⟨_, openRest, _, rfl⟩ := spells_char '(' _ _ _ isOpen
  have isQuoted : middle.rest.head? = some '"' := by
    by_contra other
    exact Fails.not_found (fails_quoted other) isText
  cases shape : middle.rest with
  | nil => simp [shape] at isQuoted
  | cons c body =>
      rw [shape] at isQuoted openRest
      obtain rfl := Option.some.inj isQuoted
      exact ⟨name, body, by rw [nameRest, openRest]; rfl, chars⟩

/-- Where MIME types are not found, encoded texts are not named like them. -/
theorem not_encoded_of_bin {cursor inner after : Cursor} {reading : Reading Value}
    (isWord : (word "Bin(" cursor).found = some ((), inner)) (noBin : (bin cursor).found = none) :
    (encoded cursor).found ≠ some (reading, after) := by
  intro found
  obtain ⟨_, parts, _, rfl⟩ := spells_chars _ _ _ isWord
  obtain ⟨name, body, shape, chars⟩ := front_of_encoded found
  simp only [encoded, found_named, found_bind, Option.bind_eq_some_iff, Prod.exists] at found
  obtain ⟨offset, start, isStart, encoding, afterName, isName, _, middle, isOpen, text, last, isText, c,
    _, isClosed, _⟩ := found
  obtain ⟨_, rfl⟩ := Prod.mk.inj (Option.some.inj isStart)
  obtain ⟨_, nameRest, nameOffset, rfl, _, isId, _⟩ := spells_run1.token _ _ _ isName
  obtain ⟨_, openRest, openOffset, rfl⟩ := spells_char '(' _ _ _ isOpen
  obtain ⟨_, _, _, _, closed⟩ := spells_satisfying _ _ _ isClosed
  obtain rfl : c = ')' := beq_iff_eq.mp closed
  have same : ['B', 'i', 'n'] = encoding := by
    rw [openRest, parts] at nameRest
    exact eq_of_parenthesised (List.all_eq_true.mp (by decide)) isId ⟨inner.rest, nameRest⟩
  subst same
  refine found_bin_of_quoted ?_ ?_ isText isClosed noBin
  · rw [nameRest, openRest]
    rfl
  · rw [openOffset, nameOffset]
    rfl

/-- A quoted text is no angle. -/
theorem fails_coordinate_of_quoted (rest : List Char) : Fails coordinate ('C' :: '(' :: '"' :: rest) := by
  refine Fails.named (fails_here_bind fun _ => ?_)
  change Fails _ ("C(".toList ++ '"' :: rest)
  refine Reads.bind_fails (reads_word "C(") (Reads.skip_fails (reads_spaces_nil (stops_cons.mpr (by decide))) ?_)
  refine Reads.skip_fails (reads_degrees_nil (by simp) (by simp)) ?_
  exact Reads.skip_fails (reads_spaces_nil (stops_cons.mpr (by decide))) (Fails.bind (fails_char (by simp)))

theorem fails_encoded_of_unquoted (unquoted : Unquoted text) : Fails encoded text := by
  by_cases opens : (text.dropWhile isIdChar).head? = some '('
  · refine fails_of_found fun offset => ?_
    cases found : (encoded ⟨offset, text⟩).found with
    | none => rfl
    | some pair =>
        obtain ⟨name, body, shape, chars⟩ := front_of_encoded found
        refine absurd ⟨body, ?_⟩ unquoted
        change text = _ at shape
        rw [shape, List.dropWhile_append_of_pos chars, List.dropWhile_cons_of_neg (by decide)]
        rfl
  · exact fails_encoded opens

theorem Breaks.unquoted_append (breaks : Breaks more) (unquoted : Unquoted text) : Unquoted (text ++ more) := by
  have noWord : Stops isIdChar more := breaks.stops (by decide)
  intro quoted
  rw [List.dropWhile_append] at quoted
  split at quoted
  · rw [dropWhile_of_stops noWord] at quoted
    obtain ⟨_, shape⟩ := quoted
    exact breaks.head?_ne (c := '(') (by decide) (shape ▸ rfl)
  · obtain ⟨others, shape⟩ := quoted
    match left : text.dropWhile isIdChar with
    | [] => simp_all
    | [c] =>
        rw [left] at shape
        obtain ⟨rfl, same⟩ : '(' = c ∧ '"' :: others = more := List.cons_eq_cons.mp shape
        exact breaks.head?_ne (c := '"') (by decide) (same ▸ rfl)
    | c :: d :: body =>
        rw [left] at shape
        obtain ⟨rfl, same⟩ := List.cons_eq_cons.mp shape
        obtain ⟨rfl, _⟩ := List.cons_eq_cons.mp same
        exact unquoted ⟨body, by rw [left]; rfl⟩

theorem leads_collections : Leads Unquoted (collections value dialect) ending := by
  have starts {c : Char} (other : isIdChar c = false ∧ c ≠ '(') (rest : List Char) : Unquoted (c :: rest) := by
    rw [Unquoted, List.dropWhile_cons_of_neg (by simp [other.1])]
    exact fun quoted => other.2 (List.cons_prefix_cons.mp quoted).1.symm
  refine Leads.orElse ?_ (Leads.orElse ?_ ?_)
  · exact Leads.named (leads_here_bind fun _ => (leads_char fun rest _ => starts (by decide) rest).bind_first)
  · exact Leads.named (leads_here_bind fun _ => (leads_char fun rest _ => starts (by decide) rest).bind_first)
  · have isMark : Leads Unquoted (word "<<") fun _ => True :=
      (leads_char fun rest _ => starts (c := '<') (by decide) rest).bind_first
    exact Leads.named (leads_here_bind fun _ => isMark.bind_first)

theorem leads_unmarked (breaks : Breaks more) : Leads Unquoted (unmarked value dialect) Apart :=
  (Undisturbed.leads breaks.dateTime).orElse <| (Undisturbed.leads breaks.date).orElse <|
    (Undisturbed.leads breaks.time).orElse <| (Undisturbed.leads breaks.number).orElse <|
    (Undisturbed.leads breaks.notAvailable).orElse <| (Undisturbed.leads (breaks.singleton (by decide))).orElse <|
    (Undisturbed.leads (breaks.singleton (by decide))).orElse <|
    (Undisturbed.leads (breaks.singleton (by decide))).orElse <|
    (Undisturbed.leads breaks.truthLetter).orElse leads_collections

theorem keeps_unmarked (breaks : Breaks more) (keeps : Keeps (onward more) 0 ending Carries
    (collections value dialect) (collections longer dialect)) :
    Keeps (onward more) 0 ending Carries (unmarked value dialect) (unmarked longer dialect) :=
  breaks.dateTime.orElse_keeps <| breaks.date.orElse_keeps <| breaks.time.orElse_keeps <|
    breaks.number.orElse_keeps <| breaks.notAvailable.orElse_keeps <|
    (breaks.singleton (by decide)).orElse_keeps <| (breaks.singleton (by decide)).orElse_keeps <|
    (breaks.singleton (by decide)).orElse_keeps <| breaks.truthLetter.orElse_keeps keeps

/-- A value is found where none of those before it in the order is, and none of these is in the text that
goes on: what a mark of its own tells is not found otherwise, and a word before a parenthesis is told
from a value by the quoted text after it. -/
theorem keeps_valueAround (breaks : Breaks more) (keeps : Keeps (onward more) 0 Apart Carries
    (collections value dialect) (collections longer dialect)) :
    Keeps (onward more) 0 Apart Carries (valueAround value dialect) (valueAround longer dialect) := by
  have unmarkedKeeps := keeps_unmarked breaks keeps
  have noUnmarked {c : Char} {text : List Char} (other : isUnmarkedStart c = false) :
      Fails (unmarked value dialect) (c :: text) := fails_unmarked (stops_cons.mpr other)
  rw [valueAround_eq, valueAround_eq]
  refine (keeps_reference breaks).orElse (keeps_str.orElse (keeps_uri.orElse (keeps_bin.orElse
    ((keeps_coordinate breaks).orElse ((keeps_encoded breaks).orElse unmarkedKeeps ?encoded) ?coordinate)
    ?bin) ?uri) ?str) ?reference
  case reference =>
    intro cursor a after _ _ found _
    refine fails_reference (breaks.head?_append_ne (by decide) fun head => ?_)
    refine Fails.not_found (Fails.orElse (fails_str ?_) (Fails.orElse (fails_uri ?_) ?_)) found
    · simp [head]
    · simp [head]
    · exact fails_after_marks head (.inl rfl)
  case str =>
    intro cursor a after _ _ found _
    refine fails_str (breaks.head?_append_ne (by decide) fun head => ?_)
    refine Fails.not_found (Fails.orElse (fails_uri ?_) ?_) found
    · simp [head]
    · exact fails_after_marks head (.inr (.inl rfl))
  case uri =>
    intro cursor a after _ _ found _
    refine fails_uri (breaks.head?_append_ne (by decide) fun head => ?_)
    exact Fails.not_found (fails_after_marks head (.inr (.inr rfl))) found
  case bin =>
    intro cursor a after _ noBin found _
    cases isWord : (word "Bin(" cursor).found with
    | none => exact Fails.named (Fails.bind (breaks.fails_word (by decide) isWord))
    | some pair =>
        obtain ⟨_, parts, _, rfl⟩ := spells_chars _ _ _ isWord
        obtain ⟨offset, text⟩ := cursor
        obtain rfl : text = 'B' :: 'i' :: 'n' :: '(' :: pair.2.rest := parts
        have noCoordinate : Fails coordinate ('B' :: 'i' :: 'n' :: '(' :: pair.2.rest) :=
          fails_coordinate_of_head (by simp)
        have noOther : Fails (unmarked value dialect) ('B' :: 'i' :: 'n' :: '(' :: pair.2.rest) :=
          noUnmarked (by decide)
        rw [found_orElse, noCoordinate.found, Option.none_or, found_orElse, noOther.found, Option.or_none] at found
        exact absurd found (not_encoded_of_bin isWord noBin)
  case coordinate =>
    intro cursor a after _ _ found _
    cases isWord : (word "C(" cursor).found with
    | none => exact Fails.named (fails_here_bind fun _ => Fails.bind (breaks.fails_word (by decide) isWord))
    | some pair =>
        obtain ⟨_, parts, _, rfl⟩ := spells_chars _ _ _ isWord
        obtain ⟨offset, text⟩ := cursor
        obtain rfl : text = 'C' :: '(' :: pair.2.rest := parts
        have noOther : Fails (unmarked value dialect) ('C' :: '(' :: pair.2.rest) := noUnmarked (by decide)
        rw [found_orElse, noOther.found, Option.or_none] at found
        obtain ⟨name, body, shape, chars⟩ := front_of_encoded found
        obtain rfl : ['C'] = name :=
          eq_of_parenthesised (List.forall_mem_singleton.mpr (by decide)) chars ⟨pair.2.rest, shape⟩
        obtain same : '(' :: pair.2.rest = '(' :: '"' :: body := List.cons_injective shape
        rw [same]
        exact fails_coordinate_of_quoted _
  case encoded =>
    intro cursor a after _ _ found apart
    exact fails_encoded_of_unquoted (breaks.unquoted_append (leads_unmarked breaks cursor a after found apart))

end Haystack.Zinc
