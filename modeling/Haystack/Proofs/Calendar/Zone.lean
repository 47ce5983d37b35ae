import Haystack.Calendar.DateTime
import Haystack.Decimal.Reader
import Haystack.Proofs.Text.Bytes
import Haystack.Proofs.Text.Pieces

/-!
What the names and the offsets of the time zones have in common.

Every name of the database is known again by its last segment, that segment has a form that sets it
off from what follows it, and no zone is ever as much as a day away from UTC.
-/
namespace Haystack.Zone

open Text.Utf8 (byteChars isAscii toList_eq_byteChars)

/-- A zone of the database. -/
def IsKnown (zone : Zone) : Prop := zone.name ∈ zoneNames

/-- The characters of words in short names. -/
def isWordChar (c : Char) : Bool := c.isAlphanum || c == '_'

/-- A sign with digits after it, a word, or nothing. -/
def isAfterUtc : List Char → Bool
  | [] => true
  | c :: rest =>
      if c == '+' || c == '-' then !rest.isEmpty && rest.all Char.isDigit else (c :: rest).all isWordChar

/-- What may follow a capital in a short name: words and hyphens, or an offset after `UTC` or
`GMT`. -/
def isShortName : List Char → Bool
  | 'U' :: 'T' :: 'C' :: rest => isAfterUtc rest
  | 'G' :: 'M' :: 'T' :: rest => isAfterUtc rest
  | c :: rest => c.isUpper && rest.all fun d => isWordChar d || d == '-'
  | [] => false

/-- A name that counts hours counts less than a day of them. -/
def countsHours : List Char → Bool
  | 'E' :: 't' :: 'c' :: '/' :: 'G' :: 'M' :: 'T' :: _ :: digits => Decimal.naturalOf digits < 24
  | _ => true

/-- The form of the names in the database: at most three segments, the last one a short name. -/
def isFullName (name : List Char) : Bool :=
  let segments := Text.pieces (· == '/') name
  segments.length ≤ 3 && isShortName (segments.getLast?.getD []) && countsHours name

theorem zoneNames_form : ∀ name ∈ zoneNames, (isAscii name && isFullName (byteChars name)) = true := by
  decide +kernel

variable {zone : Zone}

theorem IsKnown.isFullName (known : zone.IsKnown) : isFullName zone.name.toList = true := by
  obtain ⟨ascii, form⟩ := Bool.and_eq_true_iff.mp (zoneNames_form zone.name known)
  rwa [toList_eq_byteChars ascii]

/-! ## Short names -/

theorem IsKnown.mem_byDepth (known : zone.IsKnown) : zone.name ∈ byDepth := by
  have form := known.isFullName
  have some : 0 < (segments zone.name).length := List.length_pos_iff.mpr (Text.pieces_ne_nil _ _)
  simp only [Zone.isFullName, Bool.and_eq_true, decide_eq_true_eq] at form
  have few : (segments zone.name).length ≤ 3 := form.1.1
  have depth : (segments zone.name).length = 1 ∨ (segments zone.name).length = 2 ∨
      (segments zone.name).length = 3 := by omega
  simp only [byDepth, atDepth, List.mem_append, List.mem_filter, beq_iff_eq, Nat.zero_add,
    Nat.reduceAdd, ← and_or_left]
  exact ⟨known, or_assoc.mpr depth⟩

/-- The short name of a zone stands for a zone. -/
theorem IsKnown.exists_named (known : zone.IsKnown) :
    ∃ other, Zone.named zone.shortName = .ok other := by
  have found : (byDepth.find? fun full => lastSegment full == zone.shortName).isSome := by
    rw [List.find?_isSome]
    exact ⟨zone.name, known.mem_byDepth, beq_self_eq_true _⟩
  obtain ⟨full, isFull⟩ := Option.isSome_iff_exists.mp found
  refine ⟨⟨full⟩, ?_⟩
  rw [Zone.named, ofShortName?, isFull, Option.map_some, Option.some_or, Option.elim_some]

theorem IsKnown.isShortName (known : zone.IsKnown) : isShortName zone.shortName.toList = true := by
  have form := known.isFullName
  simp only [Zone.isFullName, Bool.and_eq_true] at form
  rw [shortName, lastSegment, String.toList_ofList]
  exact form.1.2

/-- The characters of short names. -/
theorem isShortName_chars {name : List Char} (short : Zone.isShortName name = true) :
    ∀ c ∈ name, (isWordChar c || c == '-' || c == '+') = true := by
  have afterUtc {rest : List Char} (after : isAfterUtc rest = true) :
      ∀ c ∈ rest, (isWordChar c || c == '-' || c == '+') = true := by
    cases rest with
    | nil => exact fun _ none => (List.not_mem_nil none).elim
    | cons c rest =>
        rw [isAfterUtc] at after
        split at after
        · next sign =>
          simp only [Bool.and_eq_true, List.all_eq_true] at after
          refine List.forall_mem_cons.mpr ⟨?_, fun d member => ?_⟩
          · rcases Bool.or_eq_true .. ▸ sign with isPlus | isMinus
            · simp [isPlus]
            · simp [isMinus]
          · have isDigit := after.2 d member
            simp [isWordChar, Char.isAlphanum, isDigit]
        · simp only [List.all_eq_true] at after
          exact fun d member => by simp [after d member]
  unfold Zone.isShortName at short
  split at short
  · next rest =>
    intro c member
    simp only [List.mem_cons] at member
    rcases member with rfl | rfl | rfl | member <;> first | rfl | exact afterUtc short c member
  · next rest =>
    intro c member
    simp only [List.mem_cons] at member
    rcases member with rfl | rfl | rfl | member <;> first | rfl | exact afterUtc short c member
  · next c rest _ _ =>
    simp only [Bool.and_eq_true, List.all_eq_true] at short
    refine List.forall_mem_cons.mpr ⟨?_, fun d member => ?_⟩
    · have isAlpha : c.isAlpha = true := Bool.or_eq_true_iff.mpr (.inl short.1)
      simp [isWordChar, Char.isAlphanum, isAlpha]
    · rw [short.2 d member, Bool.true_or]
  · cases short

/-! ## Offsets -/

theorem zoneOffsets_natAbs_lt : ∀ entry ∈ zoneOffsets, entry.2.1.natAbs < 86370 ∧
    ∀ change ∈ entry.2.2, change.2.natAbs < 86370 := by
  decide +kernel

theorem natAbs_clocks_offsetAt_lt {clocks : Clocks} (isFirst : clocks.first.natAbs < 86370)
    (all : ∀ change ∈ clocks.changes, change.2.natAbs < 86370) (instant : Int) :
    (clocks.offsetAt instant).natAbs < 86370 := by
  obtain ⟨first, changes⟩ := clocks
  unfold Clocks.offsetAt
  induction changes generalizing first with
  | nil => exact isFirst
  | cons change rest ih =>
      rw [List.forall_mem_cons] at all
      rw [List.foldl_cons]
      refine ih _ ?_ all.2
      change (if change.1 ≤ instant then change.2 else first).natAbs < 86370
      split
      · exact all.1
      · exact isFirst

theorem foldl_digits {digits : List Char} (all : digits.all Char.isDigit = true) (total : Nat) :
    digits.foldl (fun (total : Int) c => 10 * total + (c.toNat - '0'.toNat)) total =
      (digits.foldl (fun total c => 10 * total + Decimal.digitValue c) total : Nat) := by
  induction digits generalizing total with
  | nil => rfl
  | cons c rest ih =>
      simp only [List.all_cons, Bool.and_eq_true] at all
      have value : ((10 * total + Decimal.digitValue c : Nat) : Int) =
          10 * total + (c.toNat - '0'.toNat) := by
        have low : '0'.toNat ≤ c.toNat := by
          simpa [Char.isDigit, UInt32.le_iff_toNat_le] using (Bool.and_eq_true_iff.mp all.1).1
        simp only [Decimal.digitValue]
        omega
      rw [List.foldl_cons, List.foldl_cons, ← value, ih all.2]

theorem hoursWest?_natAbs {name : String} {hours : Int} (modest : countsHours name.toList = true)
    (counted : hoursWest? name = some hours) : hours.natAbs < 24 := by
  unfold hoursWest? at counted
  split at counted
  · next sign digits shape =>
    rw [shape] at modest
    have few : Decimal.naturalOf digits < 24 := by simpa [countsHours] using modest
    split at counted
    · simp at counted
    · next isNumber =>
      rw [Bool.not_eq_true, Bool.or_eq_false_iff] at isNumber
      have total := foldl_digits (by simpa using isNumber.2) 0
      simp only at counted
      rw [show ((0 : Nat) : Int) = 0 from rfl] at total
      rw [total] at counted
      change digits.foldl _ 0 < 24 at few
      generalize digits.foldl _ 0 = count at counted few
      split at counted
      · obtain rfl := Option.some.inj counted
        omega
      split at counted
      · obtain rfl := Option.some.inj counted
        omega
      · simp at counted
  · simp at counted

theorem clocks_natAbs_lt (modest : countsHours zone.name.toList = true) :
    zone.clocks.first.natAbs < 86370 ∧ ∀ change ∈ zone.clocks.changes, change.2.natAbs < 86370 := by
  unfold clocks
  split
  · next hours counted =>
    have few := hoursWest?_natAbs modest counted
    refine ⟨?_, fun _ member => nomatch member⟩
    change (-3600 * hours).natAbs < 86370
    omega
  · split
    · next first changes found =>
      obtain ⟨before, after, shape, _⟩ := List.lookup_eq_some_iff.mp found
      exact zoneOffsets_natAbs_lt (zone.name, first, changes) (shape ▸ by simp)
    · exact ⟨by decide, fun _ member => nomatch member⟩

/-- The clocks of a zone are never a day away from UTC, not even at the nearest minute. -/
theorem IsKnown.natAbs_offsetAt_lt (known : zone.IsKnown) (instant : Int) :
    (zone.offsetAt instant).natAbs < 86370 := by
  have form := known.isFullName
  simp only [Zone.isFullName, Bool.and_eq_true] at form
  obtain ⟨first, changes⟩ := clocks_natAbs_lt form.2
  exact natAbs_clocks_offsetAt_lt first changes instant

end Haystack.Zone
