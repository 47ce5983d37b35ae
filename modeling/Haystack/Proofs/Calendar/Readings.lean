import Haystack.Proofs.Calendar.Texts
import Haystack.Proofs.Calendar.Zone

/-!
What the texts of dates, times and moments are read as.

A date that is read is one of the calendar and has four digits for its year. A time that is read is one
of a day, and a moment has a zone of the database.
-/
namespace Haystack

open Decimal (naturalOf digitValue)

theorem digitValue_lt {c : Char} (isDigit : c.isDigit = true) : digitValue c < 10 := by
  simp only [Char.isDigit, UInt32.le_iff_toNat_le, Bool.and_eq_true, decide_eq_true_eq] at isDigit
  change c.toNat - 48 < 10
  have high : c.toNat ≤ 57 := isDigit.2
  omega

theorem naturalOf_lt {digits : List Char} (all : AllDigits digits) :
    naturalOf digits < 10 ^ digits.length := by
  have upTo : ∀ total : Nat, digits.foldl (fun total c => 10 * total + digitValue c) total <
      (total + 1) * 10 ^ digits.length := by
    induction digits with
    | nil => simp
    | cons c digits ih =>
        intro total
        have small := digitValue_lt (all c (by simp))
        have step := ih (fun d member => all d (by simp [member])) (10 * total + digitValue c)
        rw [List.foldl_cons, List.length_cons, Nat.pow_succ]
        calc _ < (10 * total + digitValue c + 1) * 10 ^ digits.length := step
          _ ≤ ((total + 1) * 10) * 10 ^ digits.length := Nat.mul_le_mul_right _ (by omega)
          _ = (total + 1) * (10 ^ digits.length * 10) := by
            rw [Nat.mul_assoc, Nat.mul_comm 10]
  have bound := upTo 0
  rwa [Nat.zero_add, Nat.one_mul] at bound

/-! ## Dates -/

/-- A text of the form `YYYY-MM-DD`. -/
def Date.IsText (text : List Char) : Prop :=
  ∃ a b c d e f g h, AllDigits [a, b, c, d] ∧ text = [a, b, c, d, '-', e, f, '-', g, h]

theorem Date.hasFourDigits_dateFields {text : List Char} (isText : Date.IsText text)
    (rest : List Char) : (dateFields (text ++ rest)).HasFourDigits := by
  obtain ⟨a, b, c, d, e, f, g, h, digits, rfl⟩ := isText
  have small : naturalOf [a, b, c, d] < 10 ^ 4 := naturalOf_lt digits
  simp only [dateFields, HasFourDigits, List.cons_append, List.take_succ_cons, List.take_zero]
  omega

theorem Date.of_read {text : List Char} {date : Date} (isText : Date.IsText text)
    (read : Date.read text = .ok date) : date.isValid = true ∧ date.HasFourDigits := by
  have digits := Date.hasFourDigits_dateFields isText []
  rw [List.append_nil] at digits
  unfold Date.read at read
  simp only at read
  split at read
  · next valid =>
    obtain rfl := Except.ok.inj read
    exact ⟨valid, digits⟩
  · exact nomatch read

/-! ## Times -/

/-- A text of the form `HH:MM` or `HH:MM:SS`, perhaps with decimals. -/
structure TimeOfDay.IsText (text : List Char) : Prop where
  size : 5 ≤ text.length
  chars : ∀ c ∈ text, c.isDigit = true ∨ c = ':' ∨ c = '.'
  ends : ∃ c ∈ text.getLast?, c.isDigit = true
  decimals : AllDigits (text.drop 9)

theorem nanosecondsOf_lt {digits : List Char} (all : AllDigits digits) :
    nanosecondsOf digits < TimeOfDay.nanosPerSecond := by
  have padded : AllDigits ((digits ++ List.replicate 9 '0').take 9) := fun c member =>
    allDigits_append all (allDigits_replicate 9) c (List.mem_of_mem_take member)
  have bound := naturalOf_lt padded
  rwa [List.length_take, List.length_append, List.length_replicate,
    Nat.min_eq_left (Nat.le_add_left 9 _)] at bound

/-- The fields of a time name one of a day. -/
theorem ClockFields.of_time? {fields : ClockFields} {time : TimeOfDay}
    (few : fields.nanosecond < TimeOfDay.nanosPerSecond) (named : fields.time? = some time) :
    time.InDay ∧ time.IsProper := by
  unfold time? at named
  unfold TimeOfDay.nanosPerSecond at few
  simp only at named
  split at named
  · exact nomatch named
  · next inRange =>
    split at named
    · obtain rfl := Option.some.inj named
      refine ⟨⟨?_, ?_⟩, fun _ => ?_⟩
      · simp only [TimeOfDay.secondsPerDay]
        omega
      · simp only [TimeOfDay.nanosPerSecond]
        omega
      · simp only
        omega
    · obtain rfl := Option.some.inj named
      refine ⟨⟨?_, ?_⟩, fun leap => ?_⟩
      · simp only [TimeOfDay.secondsPerDay]
        omega
      · simp only [TimeOfDay.nanosPerSecond]
        omega
      · simp only [TimeOfDay.nanosPerSecond] at leap
        omega

theorem TimeOfDay.of_read {text : List Char} {time : TimeOfDay} (isText : TimeOfDay.IsText text)
    (read : TimeOfDay.read text = .ok time) : time.InDay ∧ time.IsProper := by
  unfold TimeOfDay.read at read
  simp only at read
  split at read
  · next named =>
    obtain rfl := Except.ok.inj read
    exact ClockFields.of_time? (nanosecondsOf_lt isText.decimals) named
  · exact nomatch read

/-! ## Zones -/

namespace Zone

theorem mem_zoneNames_of_mem_byDepth {name : String} (member : name ∈ byDepth) : name ∈ zoneNames := by
  simp only [byDepth, atDepth, List.mem_append, List.mem_filter] at member
  rcases member with (⟨inNames, _⟩ | ⟨inNames, _⟩) | ⟨inNames, _⟩ <;> exact inNames

theorem isKnown_of_ofFullName? {name : String} {zone : Zone} (found : ofFullName? name = some zone) :
    zone.IsKnown := by
  unfold ofFullName? at found
  split at found
  · next listed =>
    obtain rfl := Option.some.inj found
    exact List.contains_iff_mem.mp listed
  · exact nomatch found

theorem isKnown_of_named {name : String} {zone : Zone} (found : named name = .ok zone) :
    zone.IsKnown := by
  unfold named at found
  cases either : (ofShortName? name).or (ofFullName? name) with
  | none => simp [either] at found
  | some other =>
      rw [either] at found
      obtain rfl : other = zone := Except.ok.inj found
      rcases Option.or_eq_some_iff.mp either with short | ⟨_, full⟩
      · obtain ⟨full, isFull, rfl⟩ := Option.map_eq_some_iff.mp short
        exact mem_zoneNames_of_mem_byDepth (List.mem_of_find?_eq_some isFull)
      · exact isKnown_of_ofFullName? full

theorem isKnown_utc : utc.IsKnown := by
  unfold IsKnown
  decide +kernel

theorem isKnown_ofOffset (seconds : Int) : (ofOffset seconds).IsKnown := by
  unfold ofOffset
  split
  · exact isKnown_utc
  simp only
  split
  · exact isKnown_utc
  · generalize "Etc/GMT" ++ _ ++ _ = name
    cases found : ofFullName? name with
    | none => exact isKnown_utc
    | some zone => exact isKnown_of_ofFullName? found

end Zone

/-! ## Moments -/

namespace DateTime

/-- The text of an offset: nothing, `Z`, or a sign and digits. -/
def IsOffsetText (text : List Char) : Prop :=
  text = [] ∨ (∃ c, (c = 'z' ∨ c = 'Z') ∧ text = [c]) ∨
    ∃ sign a b c d, (sign = '+' ∨ sign = '-') ∧ d.isDigit = true ∧ text = [sign, a, b, ':', c, d]

/-- The text of a moment: a date and a time with a letter between them, and an offset perhaps. -/
def IsText (text : List Char) : Prop :=
  ∃ date letter time offset, Date.IsText date ∧ (letter = 't' ∨ letter = 'T') ∧
    TimeOfDay.IsText time ∧ IsOffsetText offset ∧ text = (date ++ letter :: time) ++ offset

/-- The offset of a text is cut off where it starts. -/
theorem splitOffset_of_isText (date : List Char) {time offset : List Char} {letter : Char}
    (isLetter : letter = 't' ∨ letter = 'T') (isTime : TimeOfDay.IsText time)
    (isOffset : IsOffsetText offset) :
    (splitOffset ((date ++ letter :: time) ++ offset)).1 = date ++ letter :: time := by
  have noZulu {c : Char} (isDigit : c.isDigit = true) : c ≠ 'Z' ∧ c ≠ 'z' := by
    constructor <;> rintro rfl <;> exact absurd isDigit (by decide)
  rcases isOffset with rfl | ⟨c, isZulu, rfl⟩ | ⟨sign, a, b, c, d, isSign, isDigit, rfl⟩
  · obtain ⟨last, isLast, isDigit⟩ := isTime.ends
    have ends : (date ++ letter :: time ++ []).getLast? = some last := by
      rw [List.append_nil, List.getLast?_append, List.getLast?_cons]
      simp [Option.mem_def.mp isLast]
    unfold splitOffset
    rw [ends]
    split
    · next same => exact absurd (Option.some.inj same) (noZulu isDigit).1
    · next same => exact absurd (Option.some.inj same) (noZulu isDigit).2
    · simp only [List.append_nil]
      -- The last six characters stand among those of the time and the letter before it.
      have inside : ∀ c ∈ ((date ++ letter :: time).drop ((date ++ letter :: time).length - 6)),
          c ∈ letter :: time := by
        have size := isTime.size
        intro c member
        rw [List.length_append, List.drop_append, List.drop_eq_nil_of_le, List.nil_append] at member
        · exact List.mem_of_mem_drop member
        · simp only [List.length_cons]
          omega
      have noSign : ∀ c ∈ letter :: time, c ≠ '+' ∧ c ≠ '-' := by
        intro c member
        rcases List.mem_cons.mp member with rfl | inTime
        · rcases isLetter with rfl | rfl <;> decide
        · rcases isTime.chars c inTime with isDigit | rfl | rfl
          · constructor <;> rintro rfl <;> exact absurd isDigit (by decide)
          · decide
          · decide
      split
      · next shape => exact absurd rfl (noSign '+' (inside _ (by rw [shape]; simp))).1
      · next shape => exact absurd rfl (noSign '-' (inside _ (by rw [shape]; simp))).2
      · rfl
  · generalize date ++ letter :: time = body
    rcases isZulu with rfl | rfl <;> simp [splitOffset]
  · generalize date ++ letter :: time = body
    have ends : (body ++ [sign, a, b, ':', c, d]).getLast? = some d := by simp
    have size : (body ++ [sign, a, b, ':', c, d]).length - 6 = body.length := by simp
    unfold splitOffset
    rw [ends]
    split
    · next same => exact absurd (Option.some.inj same) (noZulu isDigit).1
    · next same => exact absurd (Option.some.inj same) (noZulu isDigit).2
    · rw [size]
      simp only [List.drop_left, List.take_left]
      rcases isSign with rfl | rfl <;> rfl

theorem of_read {text : List Char} {zone : Option Zone} {moment : DateTime} (isText : IsText text)
    (known : ∀ given ∈ zone, given.IsKnown) (read : DateTime.read text zone = .ok moment) :
    moment.zone.IsKnown ∧ moment.instant.nanosecond < 2 * TimeOfDay.nanosPerSecond := by
  obtain ⟨date, letter, time, offset, isDate, isLetter, isTime, isOffset, rfl⟩ := isText
  have body := splitOffset_of_isText date isLetter isTime isOffset
  have few : ∀ clock, LocalTime.read (date ++ letter :: time) = .ok clock →
      clock.time.nanosecond < 2 * TimeOfDay.nanosPerSecond := by
    intro clock isClock
    have isTimeText : (date ++ letter :: time).drop 11 = time := by
      obtain ⟨a, b, c, d, e, f, g, h, _, rfl⟩ := isDate
      rfl
    unfold LocalTime.read at isClock
    simp only [isTimeText] at isClock
    split at isClock
    · next named =>
      obtain rfl := Except.ok.inj isClock
      exact (ClockFields.of_time? (nanosecondsOf_lt isTime.decimals) named).1.nanosecond
    · split at isClock <;> exact nomatch isClock
  unfold DateTime.read at read
  generalize splitOffset (date ++ letter :: time ++ offset) = split at body read
  obtain ⟨front, cut⟩ := split
  obtain rfl : front = date ++ letter :: time := body
  simp only at read
  split at read
  · exact nomatch read
  · next clock isClock =>
    split at read
    · next digits =>
      split at read
      · exact nomatch read
      · next seconds _ =>
        obtain rfl := Except.ok.inj read
        refine ⟨?_, few clock isClock⟩
        cases zone with
        | none => exact Zone.isKnown_ofOffset seconds
        | some given => exact known given rfl
    · split at read
      · obtain rfl := Except.ok.inj read
        exact ⟨Zone.isKnown_utc, few clock isClock⟩
      · next given =>
        split at read
        · next made =>
          obtain rfl := Except.ok.inj read
          obtain ⟨second, _, rfl⟩ := Option.map_eq_some_iff.mp made
          exact ⟨known given rfl, few clock isClock⟩
        · exact nomatch read

end DateTime

end Haystack
