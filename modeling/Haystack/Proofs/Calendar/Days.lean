import Haystack.Calendar.Date

/-!
Days and their numbers.

Years are reckoned from the first of March, in eras of four hundred of them. The year of a day is the
one between whose ends it lies, and the month and the day follow from its place in the year.
-/
namespace Haystack.Date

/-! ## Years of an era -/

/-- The first day of a year of an era. -/
def yearStart (year : Int) : Int := 365 * year + year / 4 - year / 100

/-- The last day of a year of an era; that of the last one is the last of the era. -/
def yearEnd (year : Int) : Int := if year = 399 then 146096 else yearStart (year + 1) - 1

/-- A measure of days that grows by 365 in each year. -/
def yearMeasure (day : Int) : Int := day - day / 1460 + day / 36524 - day / 146096

theorem yearMeasure_mono {day later : Int} (before : day ≤ later) :
    yearMeasure day ≤ yearMeasure later := by
  have eras (d : Int) : d / 146096 = d / 36524 / 4 := by omega
  have centuries : day / 36524 ≤ later / 36524 := Int.ediv_le_ediv (by decide) before
  have years : day - day / 1460 ≤ later - later / 1460 := by omega
  simp only [yearMeasure, eras]
  omega

theorem yearMeasure_ends : ∀ year : Nat, year < 400 →
    365 * (year : Int) ≤ yearMeasure (yearStart year) ∧
    yearMeasure (yearEnd year) < 365 * (year + 1) := by
  decide +kernel

/-- The measure tells the year that a day lies in. -/
theorem yearMeasure_div {year day : Int} (low : 0 ≤ year) (high : year < 400)
    (starts : yearStart year ≤ day) (ends : day ≤ yearEnd year) : yearMeasure day / 365 = year := by
  obtain ⟨year, rfl⟩ := Int.eq_ofNat_of_zero_le low
  obtain ⟨first, last⟩ := yearMeasure_ends year (by omega)
  have atLeast := yearMeasure_mono starts
  have atMost := yearMeasure_mono ends
  omega

theorem exists_year {day : Int} (low : 0 ≤ day) (high : day ≤ 146096) :
    ∃ year, 0 ≤ year ∧ year < 400 ∧ yearStart year ≤ day ∧ day ≤ yearEnd year := by
  have upTo : ∀ count : Nat, count ≤ 399 → day < yearStart count →
      ∃ year, 0 ≤ year ∧ year < 400 ∧ yearStart year ≤ day ∧ day ≤ yearEnd year := by
    intro count
    induction count with
    | zero =>
        intro _ before
        simp [yearStart] at before
        omega
    | succ count ih =>
        intro few before
        by_cases earlier : day < yearStart count
        · exact ih (by omega) earlier
        · refine ⟨count, by omega, by omega, by omega, ?_⟩
          rw [yearEnd, if_neg (by omega)]
          have same : ((count + 1 : Nat) : Int) = (count : Int) + 1 := rfl
          rw [same] at before
          omega
  by_cases last : day < yearStart 399
  · exact upTo 399 (by omega) last
  · exact ⟨399, by decide, by decide, by omega, by simpa [yearEnd] using high⟩

/-! ## Days of a year -/

/-- The month, counted from March, of a day of a year that starts with March. -/
def monthOf (day : Int) : Int := (5 * day + 2) / 153

def dayOf (day : Int) : Int := day - (153 * monthOf day + 2) / 5 + 1

def calendarMonth (day : Int) : Int :=
  if monthOf day < 10 then monthOf day + 3 else monthOf day - 9

/-- The days of the month before that of a day, and the day in it, count the days since the first of
March; those of January and February count on from the year before. -/
theorem month_days : ∀ day : Nat, day < 366 →
    (daysBeforeMonth (calendarMonth day).toNat : Int) + dayOf day - 1 =
      (if calendarMonth day ≤ 2 then (day : Int) - 306 else day + 59) := by
  decide +kernel

/-- Every day has a month, which it lies in; only the last one needs a leap year. -/
theorem month_valid : ∀ day : Nat, day < 366 → 1 ≤ calendarMonth day ∧ calendarMonth day ≤ 12 ∧
    1 ≤ dayOf day ∧ (calendarMonth day ≠ 2 → dayOf day ≤ daysInMonth 0 (calendarMonth day).toNat) ∧
    (calendarMonth day = 2 → dayOf day ≤ if day = 365 then 29 else 28) := by
  decide +kernel

theorem daysInMonth_eq (year : Int) {month : Nat} (other : month ≠ 2) :
    daysInMonth year month = daysInMonth 0 month := by
  unfold daysInMonth
  split
  · exact absurd rfl other
  all_goals rfl

/-! ## Whole dates -/

theorem isLeapYear_iff {year : Int} :
    isLeapYear year = true ↔ year % 4 = 0 ∧ (year % 100 ≠ 0 ∨ year % 400 = 0) := by
  simp [isLeapYear]

/-- The day with a number, by its era, its year of that and its day of the year. -/
theorem ofDayNumber_eq {era year day : Int} (low : 0 ≤ year) (high : year < 400)
    (starts : 0 ≤ day) (ends : yearStart year + day ≤ yearEnd year) :
    ofDayNumber (146097 * era + yearStart year + day - 719468) =
      ⟨year + era * 400 + (if calendarMonth day ≤ 2 then 1 else 0), (calendarMonth day).toNat,
        (dayOf day).toNat⟩ := by
  have inEra : 0 ≤ yearStart year + day ∧ yearStart year + day ≤ 146096 := by
    unfold yearEnd at ends
    unfold yearStart at *
    split at ends <;> omega
  have isEra : (146097 * era + yearStart year + day - 719468 + 719468) / 146097 = era := by omega
  have isDay : (146097 * era + yearStart year + day - 719468 + 719468) % 146097 =
      yearStart year + day := by omega
  have isYear := yearMeasure_div low high (by omega) ends
  unfold yearMeasure at isYear
  have inYear : yearStart year + day - (365 * year + year / 4 - year / 100) = day := by
    unfold yearStart
    omega
  simp only [ofDayNumber, isEra, isDay, isYear, inYear, calendarMonth, monthOf, dayOf]
  rfl

/-- The parts that `ofDayNumber` finds of a number. -/
theorem exists_parts (number : Int) : ∃ (era year : Int) (day : Nat), 0 ≤ year ∧ year < 400 ∧
    day < 366 ∧ yearStart year + day ≤ yearEnd year ∧
      number = 146097 * era + yearStart year + day - 719468 := by
  have low : 0 ≤ (number + 719468) % 146097 := by omega
  obtain ⟨year, low, high, starts, ends⟩ := exists_year low (by omega)
  refine ⟨(number + 719468) / 146097, year,
    ((number + 719468) % 146097 - yearStart year).toNat, low, high, ?_, ?_, ?_⟩
  · unfold yearEnd at ends
    unfold yearStart at *
    split at ends <;> omega
  · omega
  · omega

/-- A year is a leap year if the days before the next one are 366 more. -/
theorem daysBeforeYear_next (year : Int) : daysBeforeYear (year + 1) =
    daysBeforeYear year + 365 + if isLeapYear year then 1 else 0 := by
  by_cases leap : isLeapYear year = true
  · rw [if_pos leap]
    have divisible := isLeapYear_iff.mp leap
    simp only [daysBeforeYear]
    omega
  · rw [if_neg leap]
    rw [isLeapYear_iff] at leap
    simp only [daysBeforeYear]
    omega

/-- The days before the March of a year, counted from the March of its era. -/
theorem daysBeforeYear_march (era year : Int) (low : 0 ≤ year) (high : year < 400) :
    daysBeforeYear (year + era * 400 + 1) = 146097 * era + yearStart year := by
  simp only [daysBeforeYear, yearStart]
  omega

/-- The number of the day with a number is that number. -/
theorem dayNumber_ofDayNumber (number : Int) : (ofDayNumber number).dayNumber = number := by
  obtain ⟨era, year, day, low, high, few, ends, rfl⟩ := exists_parts number
  obtain ⟨firstMonth, lastMonth, firstDay, _, _⟩ := month_valid day few
  have days := month_days day few
  have next := daysBeforeYear_march era year low high
  rw [ofDayNumber_eq low high (by omega) ends]
  by_cases early : calendarMonth day ≤ 2
  · rw [if_pos early] at days ⊢
    have noLeap : ¬ 2 < (calendarMonth day).toNat := by omega
    simp only [dayNumber, noLeap, decide_false, Bool.false_and, Bool.false_eq_true, if_false, next]
    omega
  · rw [if_neg early] at days ⊢
    have late : 2 < (calendarMonth day).toNat := by omega
    have step := daysBeforeYear_next (year + era * 400)
    simp only [dayNumber, late, decide_true, Bool.true_and]
    simp only [Int.add_zero]
    omega

/-- The day with a number is one of the calendar. -/
theorem isValid_ofDayNumber (number : Int) : (ofDayNumber number).isValid = true := by
  obtain ⟨era, year, day, low, high, few, ends, rfl⟩ := exists_parts number
  obtain ⟨firstMonth, lastMonth, firstDay, ordinary, february⟩ := month_valid day few
  rw [ofDayNumber_eq low high (by omega) ends]
  simp only [isValid, Bool.and_eq_true, decide_eq_true_eq]
  refine ⟨⟨⟨by omega, by omega⟩, by omega⟩, ?_⟩
  by_cases second : calendarMonth day = 2
  · have bound := february second
    have isSecond : (calendarMonth day).toNat = 2 := by omega
    rw [isSecond, if_pos (by omega)]
    by_cases last : day = 365
    · -- The last day of a year from March to March is there only if the next year is a leap year.
      have leap : isLeapYear (year + era * 400 + 1) = true := by
        rw [isLeapYear_iff]
        unfold yearEnd at ends
        unfold yearStart at *
        split at ends <;> omega
      rw [if_pos last] at bound
      simp only [daysInMonth, leap, if_true]
      omega
    · rw [if_neg last] at bound
      simp only [daysInMonth]
      split <;> omega
  · have bound := ordinary second
    rw [daysInMonth_eq _ (show (calendarMonth day).toNat ≠ 2 by omega)]
    omega

/-! ## Days after each other -/

section Order

variable {date other : Date}

/-- The days of a year before a month. -/
def monthStart (leap : Bool) (month : Nat) : Nat :=
  daysBeforeMonth month + if 2 < month && leap then 1 else 0

def monthLength (leap : Bool) (month : Nat) : Nat :=
  if month = 2 then (if leap then 29 else 28) else daysInMonth 0 month

/-- Months follow each other without a gap, and a year ends with the last one. -/
theorem monthStart_next : ∀ leap, ∀ month < 13, 1 ≤ month →
    monthStart leap month + monthLength leap month =
      if month < 12 then monthStart leap (month + 1) else 365 + if leap then 1 else 0 := by
  decide

theorem monthStart_le_of_lt : ∀ leap, ∀ later < 13, ∀ month < later, 1 ≤ month →
    monthStart leap month + monthLength leap month ≤ monthStart leap later := by
  decide

theorem monthStart_le_year : ∀ leap, ∀ month < 13, 1 ≤ month →
    monthStart leap month + monthLength leap month ≤ 365 + if leap then 1 else 0 := by
  decide

theorem daysInMonth_eq_monthLength (year : Int) (month : Nat) :
    daysInMonth year month = monthLength (isLeapYear year) month := by
  by_cases february : month = 2
  · subst february
    rfl
  · rw [monthLength, if_neg february, daysInMonth_eq year february]

theorem isValid_iff : date.isValid = true ↔ 1 ≤ date.month ∧ date.month ≤ 12 ∧ 1 ≤ date.day ∧
    date.day ≤ monthLength (isLeapYear date.year) date.month := by
  simp [isValid, daysInMonth_eq_monthLength, and_assoc]

theorem dayNumber_eq (date : Date) : date.dayNumber =
    daysBeforeYear date.year + monthStart (isLeapYear date.year) date.month + date.day - 719163 := by
  simp only [dayNumber, monthStart]
  split <;> simp <;> omega

/-- The day after a day of the calendar is one of the calendar. -/
theorem isValid_next (valid : date.isValid = true) : date.next.isValid = true := by
  obtain ⟨firstMonth, lastMonth, firstDay, lastDay⟩ := isValid_iff.mp valid
  unfold next
  split
  · next within =>
    rw [daysInMonth_eq_monthLength] at within
    exact isValid_iff.mpr ⟨firstMonth, lastMonth, by simp, within⟩
  split
  · next month =>
    have some : ∀ leap, ∀ month < 13, 1 ≤ monthLength leap month := by decide
    exact isValid_iff.mpr ⟨Nat.le_add_left _ _, month, Nat.le_refl _, some _ _ (Nat.succ_lt_succ month)⟩
  · have some : ∀ leap, 1 ≤ monthLength leap 1 := by decide
    exact isValid_iff.mpr ⟨Nat.le_refl _, by simp, Nat.le_refl _, some _⟩

theorem dayNumber_next (valid : date.isValid = true) : date.next.dayNumber = date.dayNumber + 1 := by
  obtain ⟨firstMonth, lastMonth, firstDay, lastDay⟩ := isValid_iff.mp valid
  have ends := monthStart_next (isLeapYear date.year) date.month (by omega) firstMonth
  have year := daysBeforeYear_next date.year
  rw [dayNumber_eq, dayNumber_eq]
  unfold next
  rw [daysInMonth_eq_monthLength]
  split
  · simp only
    omega
  split
  · next month =>
    rw [if_pos month] at ends
    simp only
    omega
  · next month =>
    have first : ∀ leap, monthStart leap 1 = 0 := by decide
    rw [if_neg month] at ends
    simp only [first, year]
    generalize isLeapYear date.year = leap at *
    cases leap <;> simp at ends ⊢ <;> omega

/-- The days before a year grow with the year. -/
theorem daysBeforeYear_mono {year later : Int} (before : year ≤ later) :
    daysBeforeYear year ≤ daysBeforeYear later := by
  simp only [daysBeforeYear]
  omega

/-- A day lies in its year. -/
theorem dayNumber_bounds (valid : date.isValid = true) :
    daysBeforeYear date.year ≤ date.dayNumber + 719162 ∧
      date.dayNumber + 719162 < daysBeforeYear (date.year + 1) := by
  obtain ⟨firstMonth, lastMonth, firstDay, lastDay⟩ := isValid_iff.mp valid
  have within := monthStart_le_year (isLeapYear date.year) date.month (by omega) firstMonth
  rw [dayNumber_eq, daysBeforeYear_next]
  generalize isLeapYear date.year = leap at *
  cases leap <;> simp at within ⊢ <;> omega

/-- Days of the calendar are told by their numbers. -/
theorem eq_of_dayNumber_eq (valid : date.isValid = true) (otherValid : other.isValid = true)
    (same : date.dayNumber = other.dayNumber) : date = other := by
  obtain ⟨firstMonth, lastMonth, firstDay, lastDay⟩ := isValid_iff.mp valid
  obtain ⟨otherFirstMonth, otherLastMonth, otherFirstDay, otherLastDay⟩ := isValid_iff.mp otherValid
  have bounds := dayNumber_bounds valid
  have otherBounds := dayNumber_bounds otherValid
  obtain ⟨year, month, day⟩ := date
  obtain ⟨otherYear, otherMonth, otherDay⟩ := other
  simp only at *
  obtain rfl : year = otherYear := by
    rcases Int.lt_trichotomy year otherYear with before | same | after
    · have apart := daysBeforeYear_mono (Int.add_one_le_of_lt before)
      omega
    · exact same
    · have apart := daysBeforeYear_mono (Int.add_one_le_of_lt after)
      omega
  rw [dayNumber_eq, dayNumber_eq] at same
  simp only at same
  obtain rfl : month = otherMonth := by
    rcases Nat.lt_trichotomy month otherMonth with before | same | after
    · have apart := monthStart_le_of_lt (isLeapYear year) otherMonth (by omega) month before firstMonth
      omega
    · exact same
    · have apart := monthStart_le_of_lt (isLeapYear year) month (by omega) otherMonth after otherFirstMonth
      omega
  obtain rfl : day = otherDay := by omega
  rfl

/-- A day of the calendar is the day with its number. -/
theorem ofDayNumber_dayNumber (valid : date.isValid = true) : ofDayNumber date.dayNumber = date :=
  eq_of_dayNumber_eq (isValid_ofDayNumber _) valid (dayNumber_ofDayNumber _)

end Order

end Haystack.Date
