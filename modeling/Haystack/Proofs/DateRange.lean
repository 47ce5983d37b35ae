import Haystack.DateRange
import Haystack.Proofs.Calendar.Clocks
import Haystack.Proofs.Outcome
import Haystack.Proofs.Text.Pieces
import Haystack.Proofs.Zinc.Values

/-!
The span of a day.

A day lasts from the first time that the clocks of a zone show its midnight to the first time that they
show that of the next day, so that days follow each other. Where no change of the clocks disturbs the
two midnights, these are the instants at which the clocks show the day.
-/
namespace Haystack

/-! ## Midnights -/

/-- The local time with which a day starts. -/
def Date.midnight (day : Date) : Int := day.dayNumber * TimeOfDay.secondsPerDay

/-- The day that clocks show at an instant. -/
def Clocks.dayAt (clocks : Clocks) (instant : Instant) : Date :=
  .ofDayNumber (clocks.localAt instant.second / TimeOfDay.secondsPerDay)

/-- The clocks show a local time at some instant. -/
def Clocks.Shows (clocks : Clocks) (localTime : Int) : Prop :=
  ∃ instant, clocks.localAt instant = localTime

/-- The clocks show a local time at an instant and not before it. -/
def Clocks.ShowsFirst (clocks : Clocks) (localTime instant : Int) : Prop :=
  clocks.localAt instant = localTime ∧ ∀ time, clocks.localAt time = localTime → instant ≤ time

variable {clocks : Clocks} {day : Date} {zone : Zone} {localTime : Int}

theorem Date.midnight_next (valid : day.isValid = true) :
    day.next.midnight = day.midnight + TimeOfDay.secondsPerDay := by
  rw [midnight, midnight, dayNumber_next valid, Int.add_mul, Int.one_mul]

theorem Date.hasFourDigits_next (valid : day.isValid = true) (short : day.HasFourDigits)
    (notLast : day ≠ ⟨9999, 12, 31⟩) : day.next.HasFourDigits := by
  obtain ⟨firstMonth, lastMonth, firstDay, lastDay⟩ := bounds_of_isValid valid
  obtain ⟨low, high⟩ := short
  unfold next
  split
  · exact ⟨low, high⟩
  split
  · exact ⟨low, high⟩
  · next within notDecember =>
    have isDecember : day.month = 12 := by omega
    rw [isDecember] at within
    have isLast : day.day = 31 := Nat.le_antisymm lastDay (Nat.not_lt.mp within)
    have before : day.year ≠ 9999 := fun same => notLast (by rw [← same, ← isDecember, ← isLast])
    exact ⟨Int.le_add_one low, Int.add_one_le_of_lt (Int.lt_iff_le_and_ne.mpr ⟨high, before⟩)⟩

/-- The clocks show a day from its midnight up to that of the next day. -/
theorem Clocks.dayAt_eq_iff (valid : day.isValid = true) (instant : Instant) :
    clocks.dayAt instant = day ↔
      day.midnight ≤ clocks.localAt instant.second ∧ clocks.localAt instant.second < day.next.midnight := by
  have inDay : clocks.localAt instant.second / TimeOfDay.secondsPerDay = day.dayNumber ↔
      day.midnight ≤ clocks.localAt instant.second ∧
        clocks.localAt instant.second < day.next.midnight := by
    rw [Date.midnight_next valid, Date.midnight, TimeOfDay.secondsPerDay]
    omega
  rw [← inDay, dayAt]
  constructor
  · intro same
    rw [← same, Date.dayNumber_ofDayNumber]
  · intro same
    rw [same, Date.ofDayNumber_dayNumber valid]

/-- A steady local time is first shown at an instant from which on no earlier one is shown. -/
theorem Clocks.Sound.exists_showsFirst (sound : clocks.Sound) (steady : clocks.Steady localTime) :
    ∃ instant, clocks.ShowsFirst localTime instant ∧
      ∀ time, instant ≤ time ↔ localTime ≤ clocks.localAt time := by
  obtain ⟨instant, isShown, divides⟩ := exists_instant_of_steady sound.ordered steady
  exact ⟨instant, ⟨isShown, fun time shown => (divides time).mpr (Int.le_of_eq shown.symm)⟩, divides⟩

theorem Clocks.Shows.exists_showsFirst (shows : clocks.Shows localTime) :
    ∃ instant, clocks.ShowsFirst localTime instant := by
  cases found : clocks.earliest? localTime with
  | none =>
      obtain ⟨instant, shown⟩ := shows
      exact absurd shown (earliest?_eq_none_iff.mp found instant)
  | some instant => exact ⟨instant, earliest?_eq_some_iff.mp found⟩

/-- A day is not over before it starts. -/
theorem Clocks.Sound.lt_of_showsFirst (sound : clocks.Sound) (valid : day.isValid = true)
    {start stop : Int} (starts : clocks.ShowsFirst day.midnight start)
    (stops : clocks.ShowsFirst day.next.midnight stop) : start < stop := by
  have later := Date.midnight_next valid
  rcases Int.lt_trichotomy start stop with before | same | after
  · exact before
  · have shown := starts.1
    rw [same, stops.1, later, TimeOfDay.secondsPerDay] at shown
    omega
  · have modest := sound.modest stop start after
    rw [stops.1, starts.1] at modest
    omega

namespace DateRange

/-! ## Spans -/

/-- The start is of a span, the end is not. -/
def Contains (range : DateRange) (instant : Instant) : Prop :=
  (∀ start ∈ range.start, (compare start.instant instant).isLE = true) ∧
    ∀ stop ∈ range.stop, compare instant stop.instant = .lt

/-- The span from one second to another. -/
def between (zone : Zone) (start stop : Int) : DateRange :=
  ⟨some ⟨⟨start, 0⟩, zone⟩, some ⟨⟨stop, 0⟩, zone⟩⟩

theorem contains_between_iff {start stop : Int} {instant : Instant} :
    (between zone start stop).Contains instant ↔ start ≤ instant.second ∧ instant.second < stop := by
  have atStart : (compare (⟨start, 0⟩ : Instant) instant).isLE = true ↔ start ≤ instant.second := by
    change (instOrdInstant.ord _ _).isLE = true ↔ _
    simp only [instOrdInstant.ord, Ordering.then_eq, Ordering.isLE_then_iff_and, Int.isLE_compare,
      Nat.isLE_compare, Nat.zero_le, or_true, and_true]
  have atStop : compare instant (⟨stop, 0⟩ : Instant) = .lt ↔ instant.second < stop := by
    change instOrdInstant.ord _ _ = .lt ↔ _
    simp only [instOrdInstant.ord, Ordering.then_eq, Ordering.then_eq_lt, Int.compare_eq_lt,
      Nat.compare_eq_lt, Nat.not_lt_zero, and_false, or_false]
  rw [← atStart, ← atStop]
  simp [Contains, between]

theorem startOf_eq (clocks : Clocks) (day : Date) (zone : Zone) :
    startOf clocks day zone = match clocks.earliest? day.midnight with
      | some second => .ok ⟨⟨second, 0⟩, zone⟩
      | none => .error (.invalidValue (.noMidnight day.text zone.name)) := by
  have midnight : (⟨day, .midnight⟩ : LocalTime).seconds = day.midnight := Int.add_zero _
  rw [startOf, DateTime.ofLocalBy?, midnight]
  cases clocks.earliest? day.midnight <;> rfl

theorem startOf_of_showsFirst {start : Int} (starts : clocks.ShowsFirst day.midnight start) :
    startOf clocks day zone = .ok ⟨⟨start, 0⟩, zone⟩ := by
  rw [startOf_eq, Clocks.earliest?_eq_some_iff.mpr starts]

theorem startOf_of_not_shows (skipped : ¬ clocks.Shows day.midnight) :
    startOf clocks day zone = .error (.invalidValue (.noMidnight day.text zone.name)) := by
  have none : clocks.earliest? day.midnight = none :=
    Clocks.earliest?_eq_none_iff.mpr fun time shown => skipped ⟨time, shown⟩
  rw [startOf_eq, none]

/-! ## Texts of days -/

theorem chars_of_text (valid : day.isValid = true) (short : day.HasFourDigits) :
    ∀ c ∈ day.text.toList, Text.isBlank c = false ∧ (c == ',') = false ∧ c.isAlpha = false := by
  obtain ⟨year, month, date, shape, _, _, _, yearDigits, monthDigits, dateDigits, _⟩ :=
    Date.exists_text valid short
  have digit {c : Char} (isDigit : c.isDigit = true) :
      Text.isBlank c = false ∧ (c == ',') = false ∧ c.isAlpha = false :=
    Zinc.of_isDigit isDigit (by decide)
  intro c member
  rw [shape] at member
  simp only [List.mem_append, List.mem_cons] at member
  rcases member with inYear | rfl | inMonth | rfl | inDate
  · exact digit (yearDigits c inYear)
  · decide
  · exact digit (monthDigits c inMonth)
  · decide
  · exact digit (dateDigits c inDate)

/-- The text of a day names the day. -/
theorem bound?_text (valid : day.isValid = true) (short : day.HasFourDigits) (today : Date) :
    bound? day.text.toList today = .ok (some (.date day)) := by
  have chars := chars_of_text valid short
  obtain ⟨first, others, shape⟩ : ∃ first others, day.text.toList = first :: others := by
    obtain ⟨_, _, _, shape, ⟨a, _, _, _, rfl⟩, _⟩ := Date.exists_text valid short
    exact ⟨a, _, shape⟩
  have noWord (word : String) (c : Char) (front : word.toList.head? = some c)
      (isAlpha : c.isAlpha = true) : day.text.toList ≠ word.toList := by
    intro same
    rw [← same, shape, List.head?_cons] at front
    obtain rfl := Option.some.inj front
    have other := (chars first (by rw [shape]; exact List.mem_cons_self)).2.2
    exact Bool.noConfusion (isAlpha.symm.trans other)
  have read : Zinc.readValue day.text .latest = .ok (.date day) :=
    Zinc.readValue_of_reads fun _ => Zinc.reads_value_date valid short .ended
  have some : day.text.toList.isEmpty = false := by rw [shape]; rfl
  simp only [bound?, Text.trim_eq_self fun c member => (chars c member).1, some, Bool.false_eq_true,
    if_false, if_neg (noWord "today" 't' (by decide) (by decide)),
    if_neg (noWord "yesterday" 'y' (by decide) (by decide)), String.ofList_toList, read]
  rfl

/-- The span that the text of a day names is from the start of the day to that of the next one. -/
theorem readBy_text (valid : day.isValid = true) (short : day.HasFourDigits) (today : Date) :
    readBy clocks day.text zone today = (do
      let start ← startOf clocks day zone
      let stop ← startOf clocks day.next zone
      pure ⟨some start, some stop⟩) := by
  have chars := chars_of_text valid short
  have noComma : Text.cutFirst? (· == ',') day.text.toList = none :=
    Text.cutFirst?_clean fun c member => (chars c member).2.1
  have some : day.text.toList.isEmpty = false := by
    obtain ⟨_, _, _, shape, ⟨a, _, _, _, rfl⟩, _⟩ := Date.exists_text valid short
    rw [shape]
    rfl
  simp only [readBy, Text.trim_eq_self fun c member => (chars c member).1, some, Bool.false_eq_true,
    if_false, noComma, bound?_text valid short]
  rfl

/-! ## Days -/

/-- What a day is read as: its span where its midnight and that of the next day are shown, or else which
of them is not. Where both midnights are steady, the span is all instants of the day. -/
structure ReadsDay (clocks : Clocks) (zone : Zone) (day : Date) (outcome : Except Error DateRange) :
    Prop where
  read : clocks.Shows day.midnight → clocks.Shows day.next.midnight → ∃ start stop,
    outcome = .ok (between zone start stop) ∧ start < stop ∧
      clocks.ShowsFirst day.midnight start ∧ clocks.ShowsFirst day.next.midnight stop
  covers : clocks.Steady day.midnight → clocks.Steady day.next.midnight → ∃ start stop,
    outcome = .ok (between zone start stop) ∧ start < stop ∧
      ∀ instant, (between zone start stop).Contains instant ↔ clocks.dayAt instant = day
  noMidnight : ¬ clocks.Shows day.midnight →
    outcome = .error (.invalidValue (.noMidnight day.text zone.name))
  noNextMidnight : clocks.Shows day.midnight → ¬ clocks.Shows day.next.midnight →
    outcome = .error (.invalidValue (.noMidnight day.next.text zone.name))

theorem readBy_of_showsFirst (valid : day.isValid = true) (short : day.HasFourDigits) (today : Date)
    {start stop : Int} (starts : clocks.ShowsFirst day.midnight start)
    (stops : clocks.ShowsFirst day.next.midnight stop) :
    readBy clocks day.text zone today = .ok (between zone start stop) := by
  rw [readBy_text valid short, startOf_of_showsFirst starts, startOf_of_showsFirst stops]
  rfl

theorem readsDay_readBy (sound : clocks.Sound) (valid : day.isValid = true) (short : day.HasFourDigits)
    (today : Date) : ReadsDay clocks zone day (readBy clocks day.text zone today) where
  read shows showsNext := by
    obtain ⟨start, starts⟩ := shows.exists_showsFirst
    obtain ⟨stop, stops⟩ := showsNext.exists_showsFirst
    exact ⟨start, stop, readBy_of_showsFirst valid short today starts stops,
      sound.lt_of_showsFirst valid starts stops, starts, stops⟩
  covers steady steadyNext := by
    obtain ⟨start, starts, fromStart⟩ := sound.exists_showsFirst steady
    obtain ⟨stop, stops, fromStop⟩ := sound.exists_showsFirst steadyNext
    refine ⟨start, stop, readBy_of_showsFirst valid short today starts stops,
      sound.lt_of_showsFirst valid starts stops, fun instant => ?_⟩
    rw [contains_between_iff, clocks.dayAt_eq_iff valid, fromStart, ← Int.not_le, fromStop, Int.not_le]
  noMidnight skipped := by
    rw [readBy_text valid short, startOf_of_not_shows skipped]
    rfl
  noNextMidnight shows skipped := by
    obtain ⟨start, starts⟩ := shows.exists_showsFirst
    rw [readBy_text valid short, startOf_of_showsFirst starts, startOf_of_not_shows skipped]
    rfl

/-- The text of a day names the span of the day, and the next day starts where that stops. -/
theorem readBy_day (sound : clocks.Sound) (valid : day.isValid = true) (short : day.HasFourDigits)
    (notLast : day ≠ ⟨9999, 12, 31⟩) (zone : Zone) (today later : Date) :
    ReadsDay clocks zone day (readBy clocks day.text zone today) ∧
      ∀ span next, readBy clocks day.text zone today = .ok span →
        readBy clocks day.next.text zone later = .ok next → span.stop = next.start := by
  refine ⟨readsDay_readBy sound valid short today, fun span next isSpan isNext => ?_⟩
  rw [readBy_text valid short] at isSpan
  rw [readBy_text (Date.isValid_next valid) (Date.hasFourDigits_next valid short notLast)] at isNext
  obtain ⟨start, _, isSpan⟩ := Outcome.of_bind isSpan
  obtain ⟨stop, isStop, isSpan⟩ := Outcome.of_bind isSpan
  obtain ⟨nextStart, isNextStart, isNext⟩ := Outcome.of_bind isNext
  obtain ⟨_, _, isNext⟩ := Outcome.of_bind isNext
  obtain rfl := Except.ok.inj (isStop.symm.trans isNextStart)
  obtain rfl := Except.ok.inj isSpan
  obtain rfl := Except.ok.inj isNext
  rfl

/-- The zone of New York. -/
def newYork : Zone := ⟨"America/New_York"⟩

/-- The day on which its clocks go forward in the night. -/
def shortDay : Date := ⟨2021, 3, 14⟩

theorem readBy_day_newYork : newYork.clocks.Sound ∧ shortDay.isValid = true ∧ shortDay.HasFourDigits ∧
    shortDay.text = "2021-03-14" ∧ ∃ start stop, read shortDay.text newYork default =
        .ok (between newYork start stop) ∧ start < stop ∧
      ∀ instant, (between newYork start stop).Contains instant ↔ newYork.clocks.dayAt instant = shortDay := by
  have sound : newYork.clocks.Sound := Zone.sound_clocks _
  have valid : shortDay.isValid = true := by decide
  have short : shortDay.HasFourDigits := by decide
  have steady : newYork.clocks.Steady shortDay.midnight := by decide +kernel
  have steadyNext : newYork.clocks.Steady shortDay.next.midnight := by decide +kernel
  have outcome := (readBy_day sound valid short (by decide) newYork default default).1
  exact ⟨sound, valid, short, by decide, outcome.covers steady steadyNext⟩

/-- Clocks that are set back from a minute past midnight. -/
def setBackClocks : Clocks := ⟨-12600, [(1268537460, -9000), (1289097060, -12600)]⟩

/-- There are days whose midnight is skipped, and days that come again after their end. -/
theorem not_readBy_day :
    read "2018-11-04" ⟨"America/Sao_Paulo"⟩ ⟨1970, 1, 1⟩ =
      .error (.invalidValue (.noMidnight "2018-11-04" "America/Sao_Paulo")) ∧
    setBackClocks.Sound ∧ ∃ start stop,
      readBy setBackClocks "2010-11-06" ⟨"America/St_Johns"⟩ ⟨1970, 1, 1⟩ =
        .ok (between ⟨"America/St_Johns"⟩ start stop) ∧
      ∃ instant, setBackClocks.dayAt instant = ⟨2010, 11, 6⟩ ∧
        ¬ (between ⟨"America/St_Johns"⟩ start stop).Contains instant := by
  have skipped : (⟨"America/Sao_Paulo"⟩ : Zone).clocks.earliest? (⟨2018, 11, 4⟩ : Date).midnight = none := by
    decide +kernel
  refine ⟨?_, Clocks.sound_of_withinADay (by decide) (by decide), ?_⟩
  · have outcome : readBy (⟨"America/Sao_Paulo"⟩ : Zone).clocks (⟨2018, 11, 4⟩ : Date).text
        ⟨"America/Sao_Paulo"⟩ ⟨1970, 1, 1⟩ = _ := readBy_text (by decide) (by decide) _
    rw [startOf_eq, skipped] at outcome
    exact outcome
  · refine ⟨1289010600, 1289097000, ?_, ⟨1289097060, 0⟩, by decide +kernel, ?_⟩
    · have outcome : readBy setBackClocks (⟨2010, 11, 6⟩ : Date).text ⟨"America/St_Johns"⟩ ⟨1970, 1, 1⟩ = _ :=
        readBy_text (by decide) (by decide) _
      have start : setBackClocks.earliest? (⟨2010, 11, 6⟩ : Date).midnight = some 1289010600 := by
        decide +kernel
      have stop : setBackClocks.earliest? (⟨2010, 11, 6⟩ : Date).next.midnight = some 1289097000 := by
        decide +kernel
      rw [startOf_eq, startOf_eq, start, stop] at outcome
      exact outcome
    · rw [contains_between_iff]
      decide

end DateRange

end Haystack
