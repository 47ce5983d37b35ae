import Haystack.Proofs.Phrase.Extension
import Haystack.Zinc.Document

/-!
Values in texts that line feeds are put behind.

No phrase for values takes a line feed but inside a grid, and that ends with a mark of its own. So a value
is read, or is not, whether or not line feeds come after the text.
-/
namespace Haystack.Zinc

open Phrase

variable {count limit : Nat} {value longer : Phrase (Reading Value)} {dialect : Version}

/-! ## Quoted texts -/

theorem startsUnicodeEscape_append (text : List Char) (count : Nat) :
    startsUnicodeEscape (text ++ lineFeeds count) = startsUnicodeEscape text := by
  have noHex : isHexDigit '\n' = false := by decide
  rcases text with _ | ⟨u, _ | ⟨a, _ | ⟨b, _ | ⟨c, _ | ⟨d, rest⟩⟩⟩⟩⟩
  case cons.cons.cons.cons.cons => rfl
  all_goals
    rcases count with _ | _ | _ | _ | _ | count <;>
      simp [startsUnicodeEscape, lineFeeds, List.replicate_succ, noHex]

/-- An escape is within what follows the backslash. -/
theorem length_of_startsUnicodeEscape {rest : List Char} (starts : startsUnicodeEscape rest = true) :
    5 ≤ rest.length := by
  unfold startsUnicodeEscape at starts
  split at starts
  · simp only [List.length_cons]
    omega
  · exact nomatch starts

theorem le_of_stringUnit? {c : Char} {rest : List Char} {n : Nat} (isUnit : stringUnit? (c :: rest) = some n) :
    n ≤ rest.length + 1 := by
  simp only [stringUnit?] at isUnit
  grind [length_of_startsUnicodeEscape]

theorem le_of_uriUnit? {c : Char} {rest : List Char} {n : Nat} (isUnit : uriUnit? (c :: rest) = some n) :
    n ≤ rest.length + 1 := by
  simp only [uriUnit?] at isUnit
  cases rest <;> grind [length_of_startsUnicodeEscape]

theorem stringUnit?_append (c : Char) (rest : List Char) :
    stringUnit? (c :: (rest ++ lineFeeds count)) = stringUnit? (c :: rest) := by
  simp only [stringUnit?, startsUnicodeEscape_append]
  cases rest with
  | cons letter rest => rfl
  | nil =>
      cases count with
      | zero => rfl
      | succ count =>
          have noEscape : '\n' ∉ escapeLetters := by decide
          have none : startsUnicodeEscape [] = false := rfl
          simp [lineFeeds, List.replicate_succ, noEscape, none]

theorem uriUnit?_append (c : Char) (rest : List Char) :
    uriUnit? (c :: (rest ++ lineFeeds count)) = uriUnit? (c :: rest) ∨
      (rest = [] ∧ c = '\\' ∧ uriUnit? [c] = none ∧ uriUnit? (c :: lineFeeds count) = some 2) := by
  simp only [uriUnit?, startsUnicodeEscape_append]
  cases rest with
  | cons letter rest => exact .inl rfl
  | nil =>
      have escape := startsUnicodeEscape_append [] count
      have none : startsUnicodeEscape [] = false := rfl
      rw [List.nil_append] at escape
      cases count with
      | zero => exact .inl rfl
      | succ count =>
          by_cases backslash : c = '\\'
          · subst backslash
            refine .inr ⟨rfl, rfl, rfl, ?_⟩
            rw [escape]
            simp [none, lineFeeds]
          · exact .inl (by simp [backslash])

/-- The units at the front of a text are those at the front of the longer one, unless a backslash at the
end of the text takes a line feed. -/
theorem unitsLength_append {unit? : List Char → Option Nat} (feed : ∀ rest, unit? ('\n' :: rest) = none)
    (size : ∀ c rest n, unit? (c :: rest) = some n → n ≤ rest.length + 1)
    (same : ∀ c rest, unit? (c :: (rest ++ lineFeeds count)) = unit? (c :: rest) ∨
      (rest = [] ∧ c = '\\' ∧ unit? [c] = none ∧ unit? (c :: lineFeeds count) = some 2))
    (text : List Char) (skip : Nat) (within : skip ≤ text.length) :
    (unitsLength unit? skip (text ++ lineFeeds count) = unitsLength unit? skip text ∧
      unitsLength unit? skip text ≤ text.length) ∨
    (text.drop (unitsLength unit? skip text) = ['\\'] ∧ (text ++ lineFeeds count).drop
      (unitsLength unit? skip (text ++ lineFeeds count)) = lineFeeds (count - 1)) := by
  have none (n : Nat) : unitsLength unit? 0 (lineFeeds n) = 0 := by
    cases n with
    | zero => rfl
    | succ n => simp [lineFeeds, List.replicate_succ, unitsLength, feed]
  induction text generalizing skip with
  | nil =>
      obtain rfl : skip = 0 := by simpa using within
      exact .inl ⟨none count, Nat.le_refl 0⟩
  | cons c rest ih =>
      rw [List.cons_append]
      cases skip with
      | succ skip =>
          rw [List.length_cons, Nat.add_le_add_iff_right] at within
          simpa [unitsLength] using ih skip within
      | zero =>
          rcases same c rest with equal | ⟨rfl, rfl, unit, longer⟩
          · cases unit : unit? (c :: rest) with
            | none => exact .inl ⟨by simp [unitsLength, equal, unit], by simp [unitsLength, unit]⟩
            | some n =>
                have fits := size c rest n unit
                simpa [unitsLength, equal, unit] using ih (n - 1) (by omega)
          · cases count with
            | zero => simp [lineFeeds, unit] at longer
            | succ count =>
                have taken := none count
                simp only [lineFeeds, List.replicate_succ] at longer taken ⊢
                refine .inr ⟨by simp [unitsLength, unit], ?_⟩
                simp [unitsLength, longer, taken]

/-- A body is measured the same, or no mark closes it. -/
theorem either_of_unitsLength {unit? : List Char → Option Nat} (feed : ∀ rest, unit? ('\n' :: rest) = none)
    (size : ∀ c rest n, unit? (c :: rest) = some n → n ≤ rest.length + 1)
    (same : ∀ c rest, unit? (c :: (rest ++ lineFeeds count)) = unit? (c :: rest) ∨
      (rest = [] ∧ c = '\\' ∧ unit? [c] = none ∧ unit? (c :: lineFeeds count) = some 2))
    {close : Char} (noFeed : ('\n' == close) = false) (noEscape : '\\' ≠ close) (text : List Char) :
    (unitsLength unit? 0 (text ++ lineFeeds count) = unitsLength unit? 0 text ∧
      unitsLength unit? 0 text ≤ text.length) ∨
    ((text.drop (unitsLength unit? 0 text)).head? ≠ some close ∧ ((text ++ lineFeeds count).drop
      (unitsLength unit? 0 (text ++ lineFeeds count))).head? ≠ some close) := by
  rcases unitsLength_append feed size same text 0 (Nat.zero_le _) with measured | ⟨here, there⟩
  · exact .inl measured
  · refine .inr ⟨by simp [here, noEscape], ?_⟩
    rw [there]
    exact head?_lineFeeds_ne noFeed

theorem unaffected_quoted : Unaffected count limit 1 quoted := by
  refine Agrees.named (agrees_here_bind fun offset => Agrees.bind (unaffected_char (by decide)) fun _ =>
    Agrees.weaken (agrees_take_bind (by decide) (fun text => ?_) fun body c => unaffected_pure _))
  exact either_of_unitsLength (fun rest => rfl) (fun _ _ _ => le_of_stringUnit?)
    (fun c rest => .inl (stringUnit?_append c rest)) (by decide) (by decide) text

theorem unaffected_uri : Unaffected count limit 1 uri := by
  refine Agrees.named (agrees_here_bind fun offset => Agrees.bind (unaffected_char (by decide)) fun _ =>
    Agrees.weaken (agrees_take_bind (by decide) (fun text => ?_) fun body c => unaffected_pure _))
  exact either_of_unitsLength (fun rest => rfl) (fun _ _ _ => le_of_uriUnit?)
    uriUnit?_append (by decide) (by decide) text

/-! ## Small phrases -/

theorem unaffected_spaces : Unaffected count limit 0 spaces :=
  (unaffected_run (by decide)).bind fun _ => unaffected_pure _

theorem unaffected_spaces1 : Unaffected count limit 1 spaces1 :=
  (unaffected_run1 (by decide)).bind fun _ => unaffected_pure _

theorem unaffected_tagName : Unaffected count limit 1 tagName :=
  Agrees.token ((unaffected_satisfying (by decide)).bind fun _ => (unaffected_run (by decide)).bind fun _ =>
    unaffected_pure _)

theorem unaffected_keyword {text : String} (clean : '\n' ∉ text.toList) :
    Unaffected count limit 0 (keyword text) :=
  ((unaffected_word text clean).bind fun _ => unaffected_notAhead (by decide)).weaken

theorem unaffected_singleton {text : String} {meant : Value} (clean : '\n' ∉ text.toList) :
    Unaffected count limit 0 (singleton text meant) :=
  Agrees.token ((unaffected_keyword clean).bind fun _ => unaffected_pure _)

/-! ## Values without parts -/

theorem unaffected_reference : Unaffected count limit 0 reference := by
  have display : Unaffected count limit 1 (do let _ ← run1 (· == ' '); quoted) :=
    Agrees.bind_front (unaffected_run1 (by decide)) fun _ => unaffected_quoted
  exact Agrees.weaken (Agrees.named (Agrees.bind (unaffected_char (by decide)) fun _ =>
    (unaffected_run (by decide)).bind fun _ => display.optional.bind fun _ => unaffected_pure _))

theorem unaffected_str : Unaffected count limit 0 (do let text ← quoted; pure (text.map Value.str)) :=
  (unaffected_quoted.bind fun _ => unaffected_pure _).weaken

theorem unaffected_bin : Unaffected count limit 0 bin := by
  have bare : Unaffected count limit 0
      (do let mime ← run isMimeChar; pure (Except.ok (String.ofList mime) : Reading String)) :=
    (unaffected_run (by decide)).bind fun _ => unaffected_pure _
  exact Agrees.weaken (Agrees.named ((unaffected_word "Bin(" (by decide)).bind fun _ =>
    (unaffected_quoted.weaken.orElse bare).bind fun _ => Agrees.bind (unaffected_char (by decide)) fun _ =>
    unaffected_pure _))

theorem unaffected_encoded : Unaffected count limit 0 encoded :=
  Agrees.weaken (Agrees.named (agrees_here_bind fun _ => (unaffected_run1 (by decide)).token.bind fun _ =>
    Agrees.bind (unaffected_char (by decide)) fun _ => unaffected_quoted.bind fun _ =>
    Agrees.bind (unaffected_char (by decide)) fun _ => unaffected_pure _))

theorem unaffected_degrees : Unaffected count limit 0 degrees := by
  have decimals : Unaffected count limit 1 (do let _ ← char '.'; run1 Char.isDigit) :=
    Agrees.bind_front (unaffected_char (by decide)) fun _ => unaffected_run1 (by decide)
  exact Agrees.spanned ((Agrees.optional (unaffected_char (by decide))).bind fun _ =>
    (unaffected_run (by decide)).bind fun _ => decimals.optional.bind fun _ => unaffected_pure _)

theorem unaffected_coordinate : Unaffected count limit 0 coordinate :=
  Agrees.weaken (Agrees.named (agrees_here_bind fun _ => (unaffected_word "C(" (by decide)).bind fun _ =>
    unaffected_spaces.bind fun _ => unaffected_degrees.bind fun _ => unaffected_spaces.bind fun _ =>
    Agrees.bind (unaffected_char (by decide)) fun _ => unaffected_spaces.bind fun _ =>
    unaffected_degrees.bind fun _ => unaffected_spaces.bind fun _ =>
    Agrees.bind (unaffected_char (by decide)) fun _ => unaffected_pure _))

theorem unaffected_digits : Unaffected count limit 1 digits :=
  (unaffected_satisfying (by decide)).bind fun _ => (unaffected_run (by decide)).bind fun _ => unaffected_pure _

theorem unaffected_decimal : Unaffected count limit 0 decimal := by
  have decimals : Unaffected count limit 2 (do let _ ← char '.'; digits) :=
    Agrees.bind (unaffected_char (by decide)) fun _ => unaffected_digits
  have sign : Unaffected count limit 0 (Phrase.optional (satisfying fun c => c == '+' || c == '-')) :=
    Agrees.optional (unaffected_satisfying (by decide))
  have exponent : Unaffected count limit 2 (do
      let _ ← satisfying fun c => c == 'e' || c == 'E'
      let _ ← Phrase.optional (satisfying fun c => c == '+' || c == '-')
      digits) :=
    (unaffected_satisfying (by decide)).bind fun _ => sign.bind fun _ => unaffected_digits
  exact Agrees.token (Agrees.spanned (Agrees.weaken ((Agrees.optional (unaffected_char (by decide))).bind fun _ =>
    unaffected_digits.bind fun _ => decimals.optional.bind fun _ => exponent.optional.bind fun _ =>
    unaffected_pure _)))

theorem unaffected_number : Unaffected count limit 0 number := by
  have special {word : String} {magnitude : Binary64} (clean : '\n' ∉ word.toList) :
      Unaffected count limit 0 (do Phrase.word word; pure magnitude) :=
    ((unaffected_word word clean).bind fun _ => unaffected_pure _).weaken
  have specials : Unaffected count limit 0 specialNumber :=
    Agrees.token ((special (by decide)).orElse ((special (by decide)).orElse (special (by decide))))
  have unit : Unaffected count limit 0 Zinc.unit :=
    Agrees.token ((unaffected_run1 (by decide)).bind fun _ => unaffected_pure _).weaken
  exact Agrees.named ((specials.bind fun _ => unaffected_pure _).orElse (agrees_here_bind fun _ =>
    unaffected_decimal.bind fun _ => unit.optional.bind fun _ => unaffected_pure _))

/-! ### Dates and times -/

theorem unaffected_twoDigits : Unaffected count limit 0 twoDigits :=
  Agrees.weaken ((unaffected_satisfying (by decide)).bind fun _ => (unaffected_satisfying (by decide)).bind fun _ =>
    unaffected_pure _)

theorem unaffected_dateText : Unaffected count limit 0 dateText :=
  Agrees.weaken (unaffected_twoDigits.bind fun _ => unaffected_twoDigits.bind fun _ =>
    Agrees.bind (unaffected_char (by decide)) fun _ => unaffected_twoDigits.bind fun _ =>
    Agrees.bind (unaffected_char (by decide)) fun _ => unaffected_twoDigits)

theorem unaffected_timeText : Unaffected count limit 0 timeText := by
  have fraction : Unaffected count limit 2 (do let _ ← char '.'; run1 Char.isDigit) :=
    Agrees.bind (unaffected_char (by decide)) fun _ => unaffected_run1 (by decide)
  have seconds : Unaffected count limit 1 (do
      let _ ← char ':'
      let _ ← twoDigits
      let _ ← Phrase.optional (do let _ ← char '.'; run1 Char.isDigit)
      pure ()) :=
    Agrees.bind_front (unaffected_char (by decide)) fun _ => unaffected_twoDigits.bind fun _ =>
      fraction.optional.bind fun _ => unaffected_pure ()
  exact Agrees.weaken (unaffected_twoDigits.bind fun _ => Agrees.bind (unaffected_char (by decide)) fun _ =>
    unaffected_twoDigits.bind fun _ => seconds.optional.bind fun _ => unaffected_pure ())

theorem unaffected_date : Unaffected count limit 0 date :=
  Agrees.token (agrees_here_bind fun _ => unaffected_dateText.spanned.bind fun _ => unaffected_pure _)

theorem unaffected_time : Unaffected count limit 0 time :=
  Agrees.token (agrees_here_bind fun _ => unaffected_timeText.spanned.bind fun _ => unaffected_pure _)

theorem unaffected_zoneName : Unaffected count limit 0 zoneName := by
  have hours : Unaffected count limit 2 (do
      let _ ← satisfying fun c => c == '+' || c == '-'
      run1 Char.isDigit) :=
    (unaffected_satisfying (by decide)).bind fun _ => unaffected_run1 (by decide)
  have universal : Unaffected count limit 0 (Phrase.word "UTC" <|> Phrase.word "GMT") :=
    (unaffected_word "UTC" (by decide)).weaken.orElse (unaffected_word "GMT" (by decide)).weaken
  exact Agrees.token (Agrees.spanned ((universal.bind fun _ => hours.optional.bind fun _ =>
    unaffected_notAhead (by decide)).orElse (Agrees.weaken ((unaffected_satisfying (by decide)).bind fun _ =>
      (unaffected_run (by decide)).bind fun _ => unaffected_pure _))))

theorem unaffected_isoText : Unaffected count limit 0 isoText := by
  have shift : Unaffected count limit 1 (do
      let _ ← satisfying fun c => c == '+' || c == '-'
      let _ ← twoDigits
      let _ ← char ':'
      twoDigits) :=
    Agrees.bind_front (unaffected_satisfying (by decide)) fun _ => unaffected_twoDigits.bind fun _ =>
      Agrees.bind (unaffected_char (by decide)) fun _ => unaffected_twoDigits
  have offset : Unaffected count limit 0 offsetText :=
    (Agrees.weaken ((unaffected_satisfying (by decide)).bind fun _ => unaffected_pure ())).orElse shift.weaken
  exact Agrees.token (Agrees.spanned (Agrees.weaken (unaffected_dateText.bind fun _ =>
    (unaffected_satisfying (by decide)).bind fun _ => unaffected_timeText.bind fun _ => offset.optional)))

theorem unaffected_dateTime : Unaffected count limit 0 dateTime := by
  have name : Unaffected count limit 1 (do let _ ← char ' '; zoneName) :=
    Agrees.bind (unaffected_char (by decide)) fun _ => unaffected_zoneName
  exact Agrees.named (agrees_here_bind fun _ => unaffected_isoText.bind fun _ => name.optional.bind fun _ =>
    unaffected_pure _)

theorem unaffected_notAvailable : Unaffected count limit 0 (notAvailable dialect) :=
  Agrees.token (agrees_here_bind fun _ => Agrees.bind (unaffected_keyword (by decide)) fun _ => unaffected_pure _)

/-! ## Collections -/

variable (values : Agrees count limit 0 value longer)

include values

theorem agrees_list : Agrees count (limit + 1) 0 (list dialect value) (list dialect longer) := by
  have others := Agrees.many (Agrees.bind_front (unaffected_char (c := ',') (by decide)) fun _ =>
    unaffected_spaces.bind fun _ => values.bind fun item => unaffected_spaces.bind fun _ => unaffected_pure item)
  have last : Unaffected count limit 1 (do let _ ← char ','; spaces) :=
    Agrees.bind (unaffected_char (by decide)) fun _ => unaffected_spaces
  have items := values.bind fun first => unaffected_spaces.bind fun _ => others.bind fun others =>
    last.optional.bind fun _ => unaffected_pure (first :: others)
  exact Agrees.named (agrees_here_bind fun _ => Agrees.weaken (Agrees.bind_shorter
    (unaffected_char (by decide)) fun _ =>
    unaffected_spaces.bind fun _ => items.optional.bind fun _ => Agrees.bind (unaffected_char (by decide)) fun _ =>
    unaffected_pure _))

theorem agrees_tag : Agrees count limit 1 (tag value) (tag longer) := by
  have given := unaffected_spaces.bind fun _ => Agrees.bind (unaffected_char (c := ':') (by decide)) fun _ =>
    unaffected_spaces.bind fun _ => values
  exact Agrees.named (unaffected_tagName.bind fun _ => given.optional.bind fun _ => unaffected_pure _)

theorem agrees_dict : Agrees count (limit + 1) 0 (dict dialect value) (dict dialect longer) := by
  have comma : Unaffected count limit 0 (Phrase.optional (char ',')) := Agrees.optional (unaffected_char (by decide))
  have next : Agrees count limit 1 _ _ := unaffected_spaces.bind fun _ => comma.bind fun _ =>
    unaffected_spaces.bind fun _ => agrees_tag values
  have others := next.many
  have tags := (agrees_tag values).bind fun first => others.bind fun others => unaffected_pure (first :: others)
  exact Agrees.named (agrees_here_bind fun _ => Agrees.weaken (Agrees.bind_shorter
    (unaffected_char (by decide)) fun _ =>
    unaffected_spaces.bind fun _ => tags.optional.bind fun _ => unaffected_spaces.bind fun _ => comma.bind fun _ =>
    unaffected_spaces.bind fun _ => Agrees.bind (unaffected_char (by decide)) fun _ => unaffected_pure _))

/-! ## Parts of lines -/

theorem agrees_spacedTags : Agrees count limit 0 (spacedTags value) (spacedTags longer) :=
  Agrees.many (unaffected_spaces1.bind_front fun _ => agrees_tag values)

theorem agrees_header : Agrees count limit 0 (header value) (header longer) := by
  have version : Unaffected count limit _ _ :=
    ((unaffected_word "ver:" (by decide)).bind fun _ => unaffected_quoted).named
  exact Agrees.weaken (Agrees.named (version.bind fun _ => (agrees_spacedTags values).bind fun _ =>
    unaffected_spaces.bind fun _ => unaffected_pure _))

theorem agrees_column : Agrees count limit 1 (column value) (column longer) :=
  Agrees.named (agrees_here_bind fun _ => unaffected_tagName.bind fun _ =>
    (agrees_spacedTags values).bind fun _ => unaffected_pure _)

omit values

theorem Agrees.separated {α : Type} {least : Nat} {item other : Phrase α}
    (items : Agrees count limit least item other) :
    Agrees count limit least (separated item) (separated other) := by
  have others := Agrees.many (Agrees.bind_front (unaffected_char (c := ',') (by decide)) fun _ =>
    unaffected_spaces.bind fun _ => items.bind fun next => unaffected_spaces.bind fun _ => unaffected_pure next)
  have whole := unaffected_spaces.bind fun _ => items.bind fun first => unaffected_spaces.bind fun _ =>
    others.bind fun others => unaffected_pure (first :: others)
  rw [Nat.zero_add] at whole
  exact Agrees.named whole

theorem agrees_row (values : Agrees count limit 0 value longer) :
    Agrees count limit 0 (row value) (row longer) :=
  agrees_here_bind fun _ => (Agrees.separated (Agrees.named values.optional)).bind fun _ => unaffected_pure _

end Haystack.Zinc
