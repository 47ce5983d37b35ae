import Haystack.Calendar.Reading
import Haystack.Proofs.Calendar.Days
import Haystack.Proofs.Decimal

/-!
Dates, times and moments from the texts that they are written as.

A leap second may be written as the second after it, so that a time comes back with the same count of
nanoseconds and a moment with the same instant, whatever their parts.
-/
namespace Haystack

open Decimal (naturalOf)

/-! ## Dates -/

namespace Date

/-- A date whose year has four digits. -/
def HasFourDigits (date : Date) : Prop := 0 ≤ date.year ∧ date.year ≤ 9999

instance (date : Date) : Decidable date.HasFourDigits :=
  inferInstanceAs (Decidable (0 ≤ date.year ∧ date.year ≤ 9999))

variable {date : Date}

theorem bounds_of_isValid (valid : date.isValid = true) :
    1 ≤ date.month ∧ date.month ≤ 12 ∧ 1 ≤ date.day ∧ date.day ≤ 31 := by
  simp only [isValid, Bool.and_eq_true, decide_eq_true_eq] at valid
  obtain ⟨⟨⟨firstMonth, lastMonth⟩, firstDay⟩, lastDay⟩ := valid
  refine ⟨firstMonth, lastMonth, firstDay, Nat.le_trans lastDay ?_⟩
  unfold daysInMonth
  split
  · split <;> decide
  · decide
  all_goals decide

/-- The characters of a date: digits with hyphens between them. -/
theorem exists_text (valid : date.isValid = true) (short : date.HasFourDigits) :
    ∃ year month day : List Char, date.text.toList = year ++ '-' :: (month ++ '-' :: day) ∧
      (∃ a b c d, year = [a, b, c, d]) ∧ (∃ a b, month = [a, b]) ∧ (∃ a b, day = [a, b]) ∧
      AllDigits year ∧ AllDigits month ∧ AllDigits day ∧
      (naturalOf year : Int) = date.year ∧ naturalOf month = date.month ∧
      naturalOf day = date.day := by
  obtain ⟨_, lastMonth, _, lastDay⟩ := bounds_of_isValid valid
  obtain ⟨low, high⟩ := short
  obtain ⟨a, b, c, d, year, _⟩ := exists_padded_four (n := date.year.natAbs) (by omega)
  obtain ⟨e, f, month, _⟩ := exists_padded_two (n := date.month) (by omega)
  obtain ⟨g, h, day, _⟩ := exists_padded_two (n := date.day) (by omega)
  refine ⟨(padded 4 date.year.natAbs).toList, (padded 2 date.month).toList,
    (padded 2 date.day).toList, ?_, ⟨a, b, c, d, year⟩, ⟨e, f, month⟩, ⟨g, h, day⟩,
    allDigits_padded _ _, allDigits_padded _ _, allDigits_padded _ _, ?_, naturalOf_padded _ _,
    naturalOf_padded _ _⟩
  · rw [text, yearText, if_neg (by omega), if_neg (by omega)]
    simp
  · rw [naturalOf_padded]
    omega

theorem dateFields_text (valid : date.isValid = true) (short : date.HasFourDigits)
    (rest : List Char) : dateFields (date.text.toList ++ rest) = date := by
  obtain ⟨year, month, day, shape, ⟨a, b, c, d, rfl⟩, ⟨e, f, rfl⟩, ⟨g, h, rfl⟩, _, _, _, isYear,
    isMonth, isDay⟩ := exists_text valid short
  rw [shape]
  simp only [dateFields, List.cons_append, List.nil_append, List.take_succ_cons, List.take_zero,
    List.drop_succ_cons, List.drop_zero, isYear, isMonth, isDay]

theorem read_text (valid : date.isValid = true) (short : date.HasFourDigits) :
    Date.read date.text.toList = .ok date := by
  have fields := dateFields_text valid short []
  rw [List.append_nil] at fields
  rw [Date.read, fields, if_pos valid]

end Date

/-! ## Times -/

namespace TimeOfDay

/-- The nanoseconds since midnight. -/
def nanos (time : TimeOfDay) : Nat := time.second * nanosPerSecond + time.nanosecond

/-- A time of a day, perhaps of a leap second. -/
structure InDay (time : TimeOfDay) : Prop where
  second : time.second < secondsPerDay
  nanosecond : time.nanosecond < 2 * nanosPerSecond

/-- A time that shows a leap second in the last second of a minute only. -/
def IsProper (time : TimeOfDay) : Prop :=
  nanosPerSecond ≤ time.nanosecond → time.second % 60 = 59

/-- The decimals of a second: nothing, or a point and digits. -/
def IsFraction (text : List Char) : Prop :=
  text = [] ∨ ∃ digits, digits ≠ [] ∧ AllDigits digits ∧ text = '.' :: digits

theorem nanosecondsOf_eq {digits : List Char} {count : Nat} (size : digits.length + count = 9) :
    nanosecondsOf digits = 10 ^ count * naturalOf digits := by
  have zeros : (List.replicate 9 '0').take count = List.replicate count '0' := by
    rw [List.take_replicate, Nat.min_eq_left (by omega)]
  rw [nanosecondsOf, List.take_append, List.take_of_length_le (by omega),
    show 9 - digits.length = count by omega, zeros, naturalOf_append_zeros]

theorem exists_fractionText {nanosecond : Nat} (small : nanosecond < nanosPerSecond) :
    IsFraction (fractionText nanosecond).toList ∧
      nanosecondsOf ((fractionText nanosecond).toList.drop 1) = nanosecond := by
  have decimals (places scale : Nat) (total : places + scale = 9) (some : 0 < places)
      (exact : 10 ^ scale * (nanosecond / 10 ^ scale) = nanosecond)
      (few : nanosecond / 10 ^ scale < 10 ^ places) :
      IsFraction ("." ++ padded places (nanosecond / 10 ^ scale)).toList ∧
        nanosecondsOf (("." ++ padded places (nanosecond / 10 ^ scale)).toList.drop 1) =
          nanosecond := by
    have size := length_padded some few
    have chars : ("." ++ padded places (nanosecond / 10 ^ scale)).toList =
        '.' :: (padded places (nanosecond / 10 ^ scale)).toList := by simp
    rw [chars]
    refine ⟨.inr ⟨_, ?_, allDigits_padded _ _, rfl⟩, ?_⟩
    · exact List.ne_nil_of_length_pos (by omega)
    · have total : (padded places (nanosecond / 10 ^ scale)).toList.length + scale = 9 := by omega
      rw [List.drop_succ_cons, List.drop_zero, nanosecondsOf_eq total, naturalOf_padded, exact]
  unfold nanosPerSecond at small
  unfold fractionText
  split
  · next none => exact ⟨.inl rfl, by rw [none]; rfl⟩
  split
  · next thousands => exact decimals 3 6 rfl (by decide) (by omega) (by omega)
  split
  · next millions => exact decimals 6 3 rfl (by decide) (by omega) (by omega)
  · have whole := decimals 9 0 rfl (by decide) (by simp) (by omega)
    simpa using whole

/-- The characters of a time: digits with colons between them and perhaps decimals. -/
theorem exists_text {time : TimeOfDay} (inDay : time.InDay) :
    ∃ hour minute second fraction : List Char,
      time.text.toList = hour ++ ':' :: (minute ++ ':' :: (second ++ fraction)) ∧
      (∃ a b, hour = [a, b]) ∧ (∃ a b, minute = [a, b]) ∧ (∃ a b, second = [a, b]) ∧
      AllDigits hour ∧ AllDigits minute ∧ AllDigits second ∧ IsFraction fraction ∧
      naturalOf hour = time.second / 3600 ∧ naturalOf minute = time.second / 60 % 60 ∧
      naturalOf second = time.second % 60 + time.nanosecond / nanosPerSecond ∧
      nanosecondsOf (fraction.drop 1) = time.nanosecond % nanosPerSecond := by
  obtain ⟨fewSeconds, fewNanos⟩ := inDay
  unfold secondsPerDay at fewSeconds
  unfold nanosPerSecond at fewNanos
  have small : time.nanosecond % nanosPerSecond < nanosPerSecond := Nat.mod_lt _ (by decide)
  obtain ⟨isFraction, isNanos⟩ := exists_fractionText small
  obtain ⟨a, b, hour, _⟩ := exists_padded_two (n := time.second / 3600) (by omega)
  obtain ⟨c, d, minute, _⟩ := exists_padded_two (n := time.second / 60 % 60) (by omega)
  obtain ⟨e, f, second, _⟩ :=
    exists_padded_two (n := time.second % 60 + time.nanosecond / nanosPerSecond)
      (by unfold nanosPerSecond; omega)
  refine ⟨(padded 2 (time.second / 3600)).toList, (padded 2 (time.second / 60 % 60)).toList,
    (padded 2 (time.second % 60 + time.nanosecond / nanosPerSecond)).toList,
    (fractionText (time.nanosecond % nanosPerSecond)).toList, ?_, ⟨a, b, hour⟩, ⟨c, d, minute⟩,
    ⟨e, f, second⟩, allDigits_padded _ _, allDigits_padded _ _, allDigits_padded _ _, isFraction,
    naturalOf_padded _ _, naturalOf_padded _ _, naturalOf_padded _ _, isNanos⟩
  rw [text]
  simp

/-- The fields of a time name one with as many nanoseconds, and the time itself if it is proper. -/
theorem time?_clockFields_text {time : TimeOfDay} (inDay : time.InDay) :
    ∃ read, (clockFields time.text.toList).time? = some read ∧ read.nanos = time.nanos ∧
      (time.IsProper → read = time) := by
  obtain ⟨hour, minute, second, fraction, shape, ⟨a, b, rfl⟩, ⟨c, d, rfl⟩, ⟨e, f, rfl⟩, _, _, _, _,
    isHour, isMinute, isSecond, isNanos⟩ := exists_text inDay
  obtain ⟨fewSeconds, fewNanos⟩ := inDay
  unfold secondsPerDay at fewSeconds
  have fields : clockFields time.text.toList = ⟨time.second / 3600, time.second / 60 % 60,
      some (time.second % 60 + time.nanosecond / nanosPerSecond),
      time.nanosecond % nanosPerSecond⟩ := by
    rw [shape]
    have long : ¬ ([a, b] ++ ':' :: ([c, d] ++ ':' :: ([e, f] ++ fraction))).length ≤ 5 := by
      simp
    simp only [clockFields, if_neg long]
    simp only [List.cons_append, List.nil_append, List.take_succ_cons, List.take_zero,
      List.drop_succ_cons, List.drop_zero, isHour, isMinute, isSecond, ClockFields.mk.injEq,
      true_and]
    exact isNanos
  unfold nanosPerSecond at fields fewNanos
  simp only [fields, ClockFields.time?, Option.getD_some]
  rw [if_neg (by omega)]
  split
  · next sixty =>
    refine ⟨_, rfl, ?_, fun _ => ?_⟩
    · simp only [nanos, nanosPerSecond]
      omega
    · obtain ⟨s, n⟩ := time
      simp only [nanosPerSecond, TimeOfDay.mk.injEq] at *
      omega
  · next notSixty =>
    refine ⟨_, rfl, ?_, fun proper => ?_⟩
    · simp only [nanos, nanosPerSecond]
      omega
    · obtain ⟨s, n⟩ := time
      simp only [IsProper, nanosPerSecond, TimeOfDay.mk.injEq] at *
      omega

theorem read_text {time : TimeOfDay} (inDay : time.InDay) (proper : time.IsProper) :
    TimeOfDay.read time.text.toList = .ok time := by
  obtain ⟨read, found, _, same⟩ := time?_clockFields_text inDay
  simp only [TimeOfDay.read, found, same proper]

end TimeOfDay

/-! ## Moments -/

namespace DateTime

variable {moment : DateTime}

/-- A moment whose text can be read: with four digits for the year, and less than a day away from UTC
at the nearest minute. -/
structure IsWritable (moment : DateTime) : Prop where
  nanosecond : moment.instant.nanosecond < 2 * TimeOfDay.nanosPerSecond
  year : moment.clock.date.HasFourDigits
  withinDay : moment.offset.natAbs < 86370

/-- The nearest minute to an offset. -/
def nearestMinute (offset : Int) : Int :=
  let seconds : Int := (offset.natAbs + 30) / 60 * 60
  if offset < 0 then -seconds else seconds

theorem nearestMinute_of_whole {offset : Int} (whole : offset % 60 = 0) :
    nearestMinute offset = offset := by
  simp only [nearestMinute]
  split <;> omega

theorem offsetOf?_digits {sign a b c d : Char} {hours minutes : Nat}
    (isHour : naturalOf [a, b] = hours) (isMinute : naturalOf [c, d] = minutes)
    (small : hours * 3600 + minutes * 60 < 86400) :
    offsetOf? (sign :: ([a, b] ++ ':' :: [c, d])) =
      some (if sign = '-' then -(hours * 3600 + minutes * 60 : Int)
        else hours * 3600 + minutes * 60) := by
  unfold offsetOf?
  simp only [List.cons_append, List.nil_append, List.drop_succ_cons, List.drop_zero,
    List.take_succ_cons, List.take_zero, List.head?_cons, isHour, isMinute]
  rw [if_pos (by omega)]
  simp

/-- The text of an offset: a sign and digits with a colon between them. -/
theorem exists_offsetText {offset : Int} (small : offset.natAbs < 86370) :
    ∃ (sign : Char) (hour minute : List Char),
      (offsetText offset).toList = sign :: (hour ++ ':' :: minute) ∧ (sign = '+' ∨ sign = '-') ∧
      (∃ a b, hour = [a, b]) ∧ (∃ a b, minute = [a, b]) ∧ AllDigits hour ∧ AllDigits minute ∧
      offsetOf? (offsetText offset).toList = some (nearestMinute offset) := by
  obtain ⟨a, b, hour, _⟩ := exists_padded_two (n := (offset.natAbs + 30) / 60 / 60) (by omega)
  obtain ⟨c, d, minute, _⟩ := exists_padded_two (n := (offset.natAbs + 30) / 60 % 60) (by omega)
  have isHour := naturalOf_padded 2 ((offset.natAbs + 30) / 60 / 60)
  have isMinute := naturalOf_padded 2 ((offset.natAbs + 30) / 60 % 60)
  have shape : (offsetText offset).toList = (if offset < 0 then '-' else '+') ::
      ((padded 2 ((offset.natAbs + 30) / 60 / 60)).toList ++
        ':' :: (padded 2 ((offset.natAbs + 30) / 60 % 60)).toList) := by
    unfold offsetText
    split <;> simp
  refine ⟨if offset < 0 then '-' else '+', _, _, shape, ?_, ⟨a, b, hour⟩, ⟨c, d, minute⟩,
    allDigits_padded _ _, allDigits_padded _ _, ?_⟩
  · split
    · exact .inr rfl
    · exact .inl rfl
  · rw [shape, hour, minute]
    rw [hour] at isHour
    rw [minute] at isMinute
    rw [offsetOf?_digits isHour isMinute (by omega), Option.some.injEq]
    simp only [nearestMinute]
    by_cases negative : offset < 0
    · rw [if_pos negative, if_pos rfl, if_pos negative]
      omega
    · rw [if_neg negative, if_neg (by decide), if_neg negative]
      omega

theorem clock_date : moment.clock.date =
    .ofDayNumber ((moment.instant.second + moment.offset) / TimeOfDay.secondsPerDay) := rfl

theorem clock_second : moment.clock.time.second =
    ((moment.instant.second + moment.offset) % TimeOfDay.secondsPerDay).toNat := rfl

theorem clock_nanosecond : moment.clock.time.nanosecond = moment.instant.nanosecond := rfl

theorem isValid_clock_date : moment.clock.date.isValid = true := by
  rw [clock_date]
  exact Date.isValid_ofDayNumber _

theorem inDay_clock_time (few : moment.instant.nanosecond < 2 * TimeOfDay.nanosPerSecond) :
    moment.clock.time.InDay := by
  refine ⟨?_, ?_⟩
  · rw [clock_second]
    unfold TimeOfDay.secondsPerDay
    omega
  · rw [clock_nanosecond]
    exact few

/-- The local time that the text of a moment shows, before its offset. -/
def clockText (moment : DateTime) : List Char :=
  moment.clock.date.text.toList ++ 'T' :: moment.clock.time.text.toList

theorem toList_rfc3339 (zulu : Bool) : (moment.rfc3339 zulu).toList = moment.clockText ++
    (if zulu && moment.offset == 0 then ['Z'] else (offsetText moment.offset).toList) := by
  rw [rfc3339, clockText]
  split <;> simp

/-- The local time comes back with as many seconds and nanoseconds in all. -/
theorem read_clockText (writable : moment.IsWritable) :
    ∃ read, LocalTime.read moment.clockText = .ok read ∧
      read.seconds * TimeOfDay.nanosPerSecond + read.time.nanosecond =
        (moment.instant.second + moment.offset) * TimeOfDay.nanosPerSecond +
          moment.instant.nanosecond := by
  have valid : moment.clock.date.isValid = true := isValid_clock_date
  have inDay := inDay_clock_time writable.nanosecond
  obtain ⟨time, found, nanos, _⟩ := TimeOfDay.time?_clockFields_text inDay
  have dateSize : moment.clock.date.text.toList.length = 10 := by
    obtain ⟨year, month, day, shape, ⟨a, b, c, d, rfl⟩, ⟨e, f, rfl⟩, ⟨g, h, rfl⟩, _⟩ :=
      Date.exists_text valid writable.year
    rw [shape]
    rfl
  have isDate : dateFields (moment.clockText.take 10) = moment.clock.date := by
    have fields := Date.dateFields_text valid writable.year []
    rw [clockText, List.take_left' dateSize]
    rwa [List.append_nil] at fields
  have isTime : moment.clockText.drop 11 = moment.clock.time.text.toList := by
    rw [clockText, List.drop_append, dateSize, List.drop_eq_nil_of_le (by omega), List.nil_append,
      show 11 - 10 = 1 from rfl, List.drop_succ_cons, List.drop_zero]
  refine ⟨⟨moment.clock.date, time⟩, ?_, ?_⟩
  · simp only [LocalTime.read, isDate, isTime, valid, found]
  · have number : moment.clock.date.dayNumber =
        (moment.instant.second + moment.offset) / TimeOfDay.secondsPerDay := by
      rw [clock_date]
      exact Date.dayNumber_ofDayNumber _
    rw [TimeOfDay.nanos, TimeOfDay.nanos, clock_second, clock_nanosecond] at nanos
    simp only [LocalTime.seconds, number]
    unfold TimeOfDay.nanosPerSecond TimeOfDay.secondsPerDay at *
    generalize moment.instant.second + moment.offset = total at *
    omega

theorem splitOffset_zulu (body : List Char) : splitOffset (body ++ ['Z']) = (body, some []) := by
  simp [splitOffset]

theorem splitOffset_offsetText {offset : Int} (small : offset.natAbs < 86370) (body : List Char) :
    splitOffset (body ++ (offsetText offset).toList) = (body, some (offsetText offset).toList) := by
  obtain ⟨sign, hour, minute, shape, isSign, ⟨a, b, rfl⟩, ⟨c, d, rfl⟩, _, digits, _⟩ :=
    exists_offsetText small
  have last : d.isDigit = true := digits d (by simp)
  rw [shape]
  have isLast : (body ++ sign :: ([a, b] ++ ':' :: [c, d])).getLast? = some d := by simp
  have size : (body ++ sign :: ([a, b] ++ ':' :: [c, d])).length - 6 = body.length := by simp
  unfold splitOffset
  rw [isLast]
  split
  · next same =>
    obtain rfl := Option.some.inj same
    simp at last
  · next same =>
    obtain rfl := Option.some.inj same
    simp at last
  · rw [size, List.drop_left, List.take_left]
    rcases isSign with rfl | rfl <;> rfl

/-- A moment is read from its text whatever zone is given, with the same count of microseconds if its
offset is one of whole minutes. -/
theorem read_rfc3339 (writable : moment.IsWritable) (zulu : Bool) (zone : Option Zone) :
    ∃ read, DateTime.read (moment.rfc3339 zulu).toList zone = .ok read ∧
      (moment.offset % 60 = 0 → read.microseconds = moment.microseconds) := by
  obtain ⟨clock, isClock, nanos⟩ := read_clockText writable
  rw [toList_rfc3339]
  by_cases isZulu : (zulu && moment.offset == 0) = true
  · have noOffset : moment.offset = 0 := by simpa using (Bool.and_eq_true_iff.mp isZulu).2
    rw [if_pos isZulu]
    simp only [DateTime.read, splitOffset_zulu, isClock, List.isEmpty_nil, if_true]
    refine ⟨_, rfl, fun _ => ?_⟩
    simp only [microseconds]
    unfold TimeOfDay.nanosPerSecond at nanos
    omega
  · obtain ⟨sign, hour, minute, shape, _, _, _, _, _, isOffset⟩ :=
      exists_offsetText writable.withinDay
    rw [if_neg isZulu]
    simp only [DateTime.read, splitOffset_offsetText writable.withinDay, isClock]
    have nonempty : (offsetText moment.offset).toList.isEmpty = false := by
      rw [shape]
      rfl
    simp only [nonempty, Bool.false_eq_true, if_false, isOffset]
    refine ⟨_, rfl, fun whole => ?_⟩
    simp only [microseconds, nearestMinute_of_whole whole]
    unfold TimeOfDay.nanosPerSecond at nanos
    omega

end DateTime

end Haystack
