import Haystack.Proofs.Calendar.Texts
import Haystack.Proofs.Calendar.Zone
import Haystack.Proofs.Zinc.Boundary
import Haystack.Zinc.Writer

/-!
Dates, times and moments as they stand in a text.

They are told from numbers by the hyphen or the colon after their first digits.
-/
namespace Haystack.Zinc

open Phrase

variable {text rest digits more : List Char} {a b : Char}

/-! ## Digits -/

theorem reads_twoDigits (first : a.isDigit = true) (second : b.isDigit = true) :
    Reads twoDigits [a, b] rest () :=
  Reads.bind_cons (reads_satisfying first) (Reads.last (reads_satisfying second) reads_pure)

/-- Fewer than two digits are not two. -/
theorem fails_twoDigits (all : AllDigits digits) (few : digits.length < 2)
    (stops : Stops Char.isDigit more) : Fails twoDigits (digits ++ more) := by
  match digits, few with
  | [], _ => exact Fails.bind (fails_satisfying stops)
  | [a], _ =>
      exact Reads.bind_fails (reads_satisfying (all a (by simp))) (Fails.bind (fails_satisfying stops))

theorem reads_dateText {year month day : List Char} (isYear : ∃ a b c d, year = [a, b, c, d])
    (isMonth : ∃ a b, month = [a, b]) (isDay : ∃ a b, day = [a, b]) (yearDigits : AllDigits year)
    (monthDigits : AllDigits month) (dayDigits : AllDigits day) :
    Reads dateText (year ++ '-' :: (month ++ '-' :: day)) rest () := by
  obtain ⟨a, b, c, d, rfl⟩ := isYear
  obtain ⟨e, f, rfl⟩ := isMonth
  obtain ⟨g, h, rfl⟩ := isDay
  simp only [List.cons_append, List.nil_append]
  refine Reads.bind (reads_twoDigits (yearDigits a (by simp)) (yearDigits b (by simp))) ?_
  refine Reads.bind (reads_twoDigits (yearDigits c (by simp)) (yearDigits d (by simp))) ?_
  refine Reads.bind_cons reads_char ?_
  refine Reads.bind (reads_twoDigits (monthDigits e (by simp)) (monthDigits f (by simp))) ?_
  refine Reads.bind_cons reads_char ?_
  exact reads_twoDigits (dayDigits g (by simp)) (dayDigits h (by simp))

theorem fails_twoDigits_bind {α : Type} {next : Unit → Phrase α} (stops : Stops Char.isDigit text) :
    Fails (twoDigits >>= next) text :=
  Fails.bind (Fails.bind (fails_satisfying stops))

/-- Digits that no hyphen follows are no date. -/
theorem fails_dateText (all : AllDigits digits)
    (stops : Stops (fun c => c.isDigit || c == '-') more) : Fails dateText (digits ++ more) := by
  have noDigit : Stops Char.isDigit more := fun c head =>
    (Bool.or_eq_false_iff.mp (stops c head)).1
  have noHyphen : more.head? ≠ some '-' := fun head => by simpa using stops '-' head
  match digits with
  | [] => exact Fails.bind (fails_twoDigits all (by simp) noDigit)
  | [_] => exact Fails.bind (fails_twoDigits all (by simp) noDigit)
  | a :: b :: others =>
      change Fails dateText ([a, b] ++ (others ++ more))
      refine Reads.bind_fails (reads_twoDigits (all a (by simp)) (all b (by simp))) ?_
      have rest : AllDigits others := fun c member => all c (by simp [member])
      match others with
      | [] => exact Fails.bind (fails_twoDigits rest (by simp) noDigit)
      | [_] => exact Fails.bind (fails_twoDigits rest (by simp) noDigit)
      | c :: d :: last =>
          change Fails _ ([c, d] ++ (last ++ more))
          refine Reads.bind_fails (reads_twoDigits (rest c (by simp)) (rest d (by simp))) ?_
          refine Fails.bind (fails_char ?_)
          match last with
          | [] => exact noHyphen
          | e :: _ =>
              intro same
              obtain rfl := Option.some.inj same
              exact absurd (rest '-' (by simp)) (by decide)

/-- The decimals of a second, if there are any. -/
theorem takes_fraction {fraction : List Char} (isFraction : TimeOfDay.IsFraction fraction)
    (stops : Stops (fun c => c.isDigit || c == '.') rest) :
    Takes (do
      let _ ← Phrase.optional do
        let _ ← char '.'
        run1 Char.isDigit) fraction rest (Eq ()) := by
  have noDigit : Stops Char.isDigit rest := fun c head => (Bool.or_eq_false_iff.mp (stops c head)).1
  have noPoint : rest.head? ≠ some '.' := fun head => by simpa using stops '.' head
  rcases isFraction with rfl | ⟨digits, nonempty, all, rfl⟩
  · exact Reads.skip (Fails.optional (Fails.bind (fails_char noPoint))) reads_pure
  · refine Reads.last (Reads.optional (a := digits) ?_) reads_pure
    exact Reads.bind_cons reads_char (reads_run1 all nonempty noDigit)

/-- The text of a time, with a fraction of its seconds perhaps. -/
theorem reads_timeText {hour minute second fraction : List Char} (isHour : ∃ a b, hour = [a, b])
    (isMinute : ∃ a b, minute = [a, b]) (isSecond : ∃ a b, second = [a, b])
    (hourDigits : AllDigits hour) (minuteDigits : AllDigits minute) (secondDigits : AllDigits second)
    (isFraction : TimeOfDay.IsFraction fraction)
    (stops : Stops (fun c => c.isDigit || c == '.') rest) :
    Reads timeText (hour ++ ':' :: (minute ++ ':' :: (second ++ fraction))) rest () := by
  obtain ⟨a, b, rfl⟩ := isHour
  obtain ⟨c, d, rfl⟩ := isMinute
  obtain ⟨e, f, rfl⟩ := isSecond
  simp only [List.cons_append, List.nil_append]
  refine Reads.bind (reads_twoDigits (hourDigits a (by simp)) (hourDigits b (by simp))) ?_
  refine Reads.bind_cons reads_char ?_
  refine Reads.bind (reads_twoDigits (minuteDigits c (by simp)) (minuteDigits d (by simp))) ?_
  refine Reads.last (Reads.optional (a := ()) (Reads.bind_cons reads_char ?_)) reads_pure
  refine Reads.bind (reads_twoDigits (secondDigits e (by simp)) (secondDigits f (by simp))) ?_
  exact takes_fraction isFraction stops

/-- Digits that no colon follows are no time. -/
theorem fails_timeText (all : AllDigits digits)
    (stops : Stops (fun c => c.isDigit || c == ':') more) : Fails timeText (digits ++ more) := by
  have noDigit : Stops Char.isDigit more := fun c head => (Bool.or_eq_false_iff.mp (stops c head)).1
  have noColon : more.head? ≠ some ':' := fun head => by simpa using stops ':' head
  match digits with
  | [] => exact Fails.bind (fails_twoDigits all (by simp) noDigit)
  | [_] => exact Fails.bind (fails_twoDigits all (by simp) noDigit)
  | a :: b :: others =>
      change Fails timeText ([a, b] ++ (others ++ more))
      refine Reads.bind_fails (reads_twoDigits (all a (by simp)) (all b (by simp))) ?_
      refine Fails.bind (fails_char ?_)
      match others with
      | [] => exact noColon
      | c :: _ =>
          intro same
          obtain rfl := Option.some.inj same
          exact absurd (all ':' (by simp)) (by decide)

/-! ## Dates and times as values -/

section Values

variable {stop : Char → Bool}

theorem fails_isoText_of_date (fails : Fails dateText text) : Fails isoText text :=
  Fails.token (Fails.spanned (Fails.bind fails))

theorem fails_dateTime (fails : Fails isoText text) : Fails dateTime text :=
  Fails.named (fails_here_bind fun _ => Fails.bind fails)

theorem fails_date (fails : Fails dateText text) : Fails date text :=
  Fails.token (fails_here_bind fun _ => Fails.bind (Fails.spanned fails))

theorem fails_time (fails : Fails timeText text) : Fails time text :=
  Fails.token (fails_here_bind fun _ => Fails.bind (Fails.spanned fails))

theorem reads_date {d : Date} (valid : d.isValid = true) (short : d.HasFourDigits) :
    Reads date d.text.toList rest (.ok (.date d)) := by
  obtain ⟨year, month, day, shape, isYear, isMonth, isDay, yearDigits, monthDigits, dayDigits, _⟩ :=
    Date.exists_text valid short
  refine Takes.token (takes_here_bind fun offset => ?_)
  have taken : Reads dateText d.text.toList rest () := by
    rw [shape]
    exact reads_dateText isYear isMonth isDay yearDigits monthDigits dayDigits
  refine Reads.last taken.spanned ?_
  rw [Date.read_text valid short]
  exact reads_pure

/-- A date is no moment, since no time follows it. -/
theorem fails_dateTime_of_date {d : Date} (valid : d.isValid = true) (short : d.HasFourDigits)
    (stops : Stops (fun c => c == 't' || c == 'T') rest) :
    Fails dateTime (d.text.toList ++ rest) := by
  obtain ⟨year, month, day, shape, isYear, isMonth, isDay, yearDigits, monthDigits, dayDigits, _⟩ :=
    Date.exists_text valid short
  rw [shape]
  refine fails_dateTime (Fails.token (Fails.spanned ?_))
  exact Reads.bind_fails (reads_dateText isYear isMonth isDay yearDigits monthDigits dayDigits)
    (Fails.bind (fails_satisfying stops))

theorem reads_time {t : TimeOfDay} (inDay : t.InDay) (proper : t.IsProper)
    (stops : Stops (fun c => c.isDigit || c == '.') rest) :
    Reads time t.text.toList rest (.ok (.time t)) := by
  obtain ⟨hour, minute, second, fraction, shape, isHour, isMinute, isSecond, hourDigits,
    minuteDigits, secondDigits, isFraction, _⟩ := TimeOfDay.exists_text inDay
  refine Takes.token (takes_here_bind fun offset => ?_)
  have taken : Reads timeText t.text.toList rest () := by
    rw [shape]
    exact reads_timeText isHour isMinute isSecond hourDigits minuteDigits secondDigits isFraction
      stops
  refine Reads.last taken.spanned ?_
  rw [TimeOfDay.read_text inDay proper]
  exact reads_pure

/-- A time is no date, since a colon follows its first digits. -/
theorem fails_dateText_of_time {t : TimeOfDay} (inDay : t.InDay) :
    Fails dateText (t.text.toList ++ rest) := by
  obtain ⟨hour, minute, second, fraction, shape, _, _, _, hourDigits, _⟩ :=
    TimeOfDay.exists_text inDay
  rw [shape, List.append_assoc]
  exact fails_dateText hourDigits (by simp)

end Values

/-! ## Zones and moments -/

theorem isIdChar_of_isWordChar {c : Char} (isWord : Zone.isWordChar c = true) :
    isIdChar c = true := isWord

theorem word_utc : Phrase.word "UTC" = chars ['U', 'T', 'C'] := by
  rw [Phrase.word, show "UTC".toList = ['U', 'T', 'C'] by decide]

theorem word_gmt : Phrase.word "GMT" = chars ['G', 'M', 'T'] := by
  rw [Phrase.word, show "GMT".toList = ['G', 'M', 'T'] by decide]

/-- A name that starts with a capital. -/
theorem reads_placeName {first : Char} {others : List Char} (isFirst : first.isUpper = true)
    (accepted : ∀ c ∈ others, isZoneChar c = true) (stops : Stops isZoneChar rest) :
    Reads (do
      let _ ← satisfying Char.isUpper
      let _ ← run isZoneChar) (first :: others) rest () :=
  Reads.bind_cons (reads_satisfying isFirst) (Reads.last (reads_run accepted stops) reads_pure)

/-- `UTC` or `GMT` with an offset, alone, or as the front of a longer word. -/
theorem reads_utcName {word tail : List Char} (isWord : word = ['U', 'T', 'C'] ∨ word = ['G', 'M', 'T'])
    (after : Zone.isAfterUtc tail = true) (stops : Stops (fun c => isZoneChar c || c == '+') rest) :
    Reads zoneName (word ++ tail) rest (word ++ tail) := by
  have noZone : Stops isZoneChar rest := fun c head => (Bool.or_eq_false_iff.mp (stops c head)).1
  have noSign : Stops (fun c => c == '+' || c == '-') rest := fun c head => by
    have rejected := stops c head
    simp only [isZoneChar, Bool.or_eq_false_iff] at rejected ⊢
    exact ⟨rejected.2, rejected.1.1.2⟩
  have ends : Stops (fun c => isIdChar c || c == '-') rest := fun c head => by
    have rejected := stops c head
    simp only [isZoneChar, Bool.or_eq_false_iff] at rejected ⊢
    exact ⟨rejected.1.1.1, rejected.1.1.2⟩
  have noDigit : Stops Char.isDigit rest := fun c head => by
    have rejected := ends c head
    simp only [isIdChar, Char.isAlphanum, Bool.or_eq_false_iff] at rejected
    exact rejected.1.1.2
  have reads {more : List Char} : Reads (Phrase.word "UTC" <|> Phrase.word "GMT") word more () := by
    rw [word_utc, word_gmt]
    rcases isWord with rfl | rfl
    · exact Takes.orElse reads_chars
    · exact Fails.orElse_takes (fails_chars_cons (by simp)) reads_chars
  refine Takes.token (Reads.spanned (a := ()) ?_)
  cases tail with
  | nil =>
      rw [List.append_nil]
      refine Takes.orElse (Reads.last reads (Reads.skip (Fails.optional ?_) (reads_notAhead ends)))
      exact Fails.bind (fails_satisfying noSign)
  | cons c others =>
      simp only [Zone.isAfterUtc] at after
      split at after
      · next sign =>
        rw [Bool.and_eq_true, List.all_eq_true] at after
        refine Takes.orElse (Reads.bind reads (Reads.last (Reads.optional (a := others) ?_)
          (reads_notAhead ends)))
        exact Reads.bind_cons (reads_satisfying sign) (reads_run1 after.2 (by simpa using after.1) noDigit)
      · next noSign =>
        rw [List.all_eq_true] at after
        have isId : isIdChar c = true := after c (by simp)
        have accepted : ∀ d ∈ c :: others, isZoneChar d = true := fun d member => by
          simp [isZoneChar, isIdChar_of_isWordChar (after d member)]
        refine Fails.orElse_takes ?_ ?_
        · rw [List.append_assoc]
          refine Reads.bind_fails reads (Reads.skip_fails (Fails.optional ?_) ?_)
          · exact Fails.bind (fails_satisfying (stops_cons.mpr (by simpa using noSign)))
          · exact fails_notAhead (by simp [isId])
        · rcases isWord with rfl | rfl
          · refine reads_placeName rfl ?_ noZone
            simpa [show isZoneChar 'T' = true from rfl, show isZoneChar 'C' = true from rfl]
              using accepted
          · refine reads_placeName rfl ?_ noZone
            simpa [show isZoneChar 'M' = true from rfl, show isZoneChar 'T' = true from rfl]
              using accepted

/-- A short name of a zone ends where none of the characters of such names follows. -/
theorem reads_zoneName {name : List Char} (short : Zone.isShortName name = true)
    (stops : Stops (fun c => isZoneChar c || c == '+') rest) : Reads zoneName name rest name := by
  have noZone : Stops isZoneChar rest := fun c head => (Bool.or_eq_false_iff.mp (stops c head)).1
  unfold Zone.isShortName at short
  split at short
  · next tail => exact reads_utcName (.inl rfl) short stops
  · next tail => exact reads_utcName (.inr rfl) short stops
  · next c others notUtc notGmt =>
    rw [Bool.and_eq_true, List.all_eq_true] at short
    have accepted : ∀ d ∈ others, isZoneChar d = true := fun d member => by
      have isPart := short.2 d member
      simp only [isZoneChar, isIdChar, Zone.isWordChar, Bool.or_eq_true] at isPart ⊢
      tauto
    refine Takes.token (Reads.spanned (a := ()) (Fails.orElse_takes (Fails.bind ?_) ?_))
    · rw [word_utc, word_gmt]
      refine Fails.orElse (fails_chars (by decide) noZone fun front => ?_)
        (fails_chars (by decide) noZone fun front => ?_)
      · obtain ⟨tail, shared⟩ := front
        obtain ⟨rfl, rfl⟩ := List.cons.inj shared
        exact notUtc tail rfl rfl
      · obtain ⟨tail, shared⟩ := front
        obtain ⟨rfl, rfl⟩ := List.cons.inj shared
        exact notGmt tail rfl rfl
    · exact reads_placeName short.1 accepted noZone
  · simp at short

/-- The offset of a moment, which no digit of its time is taken for. -/
theorem reads_offsetText {moment : DateTime} (writable : moment.IsWritable) (zulu : Bool) {text : List Char}
    (isOffset : text = if zulu && moment.offset == 0 then ['Z'] else
      (DateTime.offsetText moment.offset).toList) :
    Reads offsetText text rest () ∧ Stops (fun c => c.isDigit || c == '.') (text ++ rest) := by
  split at isOffset
  · subst isOffset
    exact ⟨Takes.orElse (Reads.last (reads_satisfying rfl) reads_pure), by simp⟩
  · obtain ⟨sign, hour, minute, shape, isSign, ⟨a, b, rfl⟩, ⟨c, d, rfl⟩, hourDigits, minuteDigits, _⟩ :=
      DateTime.exists_offsetText writable.withinDay
    rw [shape] at isOffset
    subst isOffset
    simp only [List.cons_append, List.nil_append, stops_cons]
    refine ⟨Fails.orElse_takes (Fails.bind (fails_satisfying ?_)) ?_, ?_⟩
    · rw [List.cons_append, stops_cons]
      rcases isSign with rfl | rfl <;> rfl
    · refine Reads.bind_cons (reads_satisfying ?_) ?_
      · rcases isSign with rfl | rfl <;> rfl
      refine Reads.bind (reads_twoDigits (hourDigits a (by simp)) (hourDigits b (by simp))) ?_
      refine Reads.bind_cons reads_char ?_
      exact reads_twoDigits (minuteDigits c (by simp)) (minuteDigits d (by simp))
    · rcases isSign with rfl | rfl <;> rfl

theorem reads_isoText {moment : DateTime} (writable : moment.IsWritable) (zulu : Bool) :
    Reads isoText (moment.rfc3339 zulu).toList rest (moment.rfc3339 zulu).toList := by
  obtain ⟨year, month, day, dateShape, isYear, isMonth, isDay, yearDigits, monthDigits, dayDigits, _⟩ :=
    Date.exists_text DateTime.isValid_clock_date writable.year
  obtain ⟨hour, minute, second, fraction, timeShape, isHour, isMinute, isSecond, hourDigits,
    minuteDigits, secondDigits, isFraction, _⟩ :=
    TimeOfDay.exists_text (DateTime.inDay_clock_time writable.nanosecond)
  obtain ⟨offset, stops⟩ := @reads_offsetText rest moment writable zulu _ rfl
  have whole : Reads (do
      dateText
      let _ ← satisfying fun c => c == 't' || c == 'T'
      timeText
      Phrase.optional offsetText) (moment.rfc3339 zulu).toList rest (some ()) := by
    rw [DateTime.toList_rfc3339, DateTime.clockText, List.append_assoc, List.cons_append, dateShape,
      timeShape]
    refine Reads.bind (reads_dateText isYear isMonth isDay yearDigits monthDigits dayDigits) ?_
    refine Reads.bind_cons (reads_satisfying (c := 'T') rfl) ?_
    refine Reads.bind (reads_timeText isHour isMinute isSecond hourDigits minuteDigits secondDigits
      isFraction stops) ?_
    exact offset.optional
  exact Takes.token whole.spanned

theorem zoneOf_shortName {zone : Zone} (known : zone.IsKnown) :
    ∃ other, zoneOf zone.shortName.toList = .ok other := by
  obtain ⟨other, named⟩ := known.exists_named
  refine ⟨other, ?_⟩
  rw [zoneOf, String.ofList_toList, named]
  rfl

theorem moment_meaning {name text : List Char} {zone : Zone} {read : DateTime}
    (isZone : zoneOf name = .ok zone) (isRead : DateTime.read text (some zone) = .ok read) :
    (do
      let zone ← (some name).mapM zoneOf
      let moment ← DateTime.read text zone
      pure (Value.dateTime moment) : Except Unreadable Value) = .ok (.dateTime read) := by
  rw [Option.mapM_some, isZone]
  change (DateTime.read text (some zone) >>= fun moment => pure (Value.dateTime moment)) = _
  rw [isRead]
  rfl

/-- A moment is read with the same count of microseconds if its offset is one of whole minutes. -/
theorem exists_reads_dateTime {moment : DateTime} (writable : moment.IsWritable)
    (known : moment.zone.IsKnown) : ∃ read : DateTime,
      (moment.offset % 60 = 0 → read.microseconds = moment.microseconds) ∧
      ∀ rest, Stops (fun c => isZoneChar c || c == '+') rest →
        Reads dateTime (dateTimeText moment).toList rest (.ok (.dateTime read)) := by
  obtain ⟨zone, isZone⟩ := zoneOf_shortName known
  obtain ⟨read, isRead, same⟩ := DateTime.read_rfc3339 writable true (some zone)
  refine ⟨read, same, fun rest stops => ?_⟩
  have shape : (dateTimeText moment).toList =
      (moment.rfc3339 true).toList ++ ' ' :: moment.zone.shortName.toList := by
    simp [dateTimeText]
  have named : Reads (do
      let _ ← char ' '
      zoneName) (' ' :: moment.zone.shortName.toList) rest moment.zone.shortName.toList :=
    Reads.bind_cons reads_char (reads_zoneName known.isShortName stops)
  rw [shape]
  refine Takes.named (takes_here_bind fun offset => Reads.bind (reads_isoText writable true) ?_)
  refine Reads.last named.optional ?_
  rw [moment_meaning isZone isRead]
  exact reads_pure

end Haystack.Zinc
