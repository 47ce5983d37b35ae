import Haystack.Proofs.Calendar.Zone
import Haystack.Proofs.Decimal
import Haystack.Proofs.Text.Pieces
import Haystack.Proofs.Zinc.Quoted
import Haystack.Zinc.Writer

/-!
Texts without blank lines.

What a text is put together of has none if each part has none and what comes after a line feed starts a
line that is not blank. The texts of values without parts are on one line.
-/
namespace Haystack.Zinc

/-! ## Texts without blank lines -/

/-- Characters that make a line not blank. -/
def isVisible (c : Char) : Bool := !isSpace c && c != '\n' && c != '\r'

/-- Texts without line breaks. -/
def Unbroken (text : List Char) : Prop := ∀ c ∈ text, c ≠ '\n' ∧ c ≠ '\r'

/-- The first line is not blank. -/
def Shows (text : List Char) : Prop :=
  ∃ front c more, text = front ++ c :: more ∧ (∀ d ∈ front, isSpace d = true) ∧ isVisible c = true

/-- No line is blank but perhaps the first. -/
structure Solid (text : List Char) : Prop where
  noReturn : '\r' ∉ text
  lines : ∀ before after, text = before ++ '\n' :: after → Shows after

/-- No line is blank. -/
structure Block (text : List Char) : Prop extends Solid text where
  shows : Shows text

instance {text : List Char} : Decidable (Unbroken text) :=
  List.decidableBAll (fun c => c ≠ '\n' ∧ c ≠ '\r') text

variable {text other rest : List Char}

theorem Shows.append (shows : Shows text) (rest : List Char) : Shows (text ++ rest) := by
  obtain ⟨front, c, more, rfl, spaces, visible⟩ := shows
  exact ⟨front, c, more ++ rest, by simp, spaces, visible⟩

theorem shows_cons {c : Char} (visible : isVisible c = true) (rest : List Char) : Shows (c :: rest) :=
  ⟨[], c, rest, rfl, by simp, visible⟩

theorem unbroken_append_iff : Unbroken (text ++ other) ↔ Unbroken text ∧ Unbroken other :=
  List.forall_mem_append

theorem Unbroken.solid (unbroken : Unbroken text) : Solid text where
  noReturn := fun member => (unbroken '\r' member).2 rfl
  lines := by
    rintro before after rfl
    exact absurd rfl (unbroken '\n' (by simp)).1

/-- A line with something visible on it is no blank line. -/
theorem Unbroken.block (unbroken : Unbroken text) (some : ∃ c ∈ text, isVisible c = true) : Block text where
  toSolid := unbroken.solid
  shows := by
    obtain ⟨c, member, visible⟩ := some
    induction text with
    | nil => exact nomatch member
    | cons d text ih =>
        by_cases isSpaceFirst : isSpace d = true
        · have inRest : c ∈ text := by
            rcases List.mem_cons.mp member with rfl | inRest
            · simp [isVisible, isSpaceFirst] at visible
            · exact inRest
          obtain ⟨front, e, more, rfl, spaces, visible⟩ := ih (List.forall_mem_cons.mp unbroken).2 inRest
          exact ⟨d :: front, e, more, rfl, List.forall_mem_cons.mpr ⟨isSpaceFirst, spaces⟩, visible⟩
        · refine shows_cons ?_ text
          simp [isVisible, isSpaceFirst, unbroken d List.mem_cons_self]

theorem Unbroken.block_of_any (unbroken : Unbroken text) (some : text.any isVisible = true) : Block text :=
  unbroken.block (List.any_eq_true.mp some)

theorem Solid.append (here : Solid text) (there : Solid other) : Solid (text ++ other) where
  noReturn := fun member => (List.mem_append.mp member).elim here.noReturn there.noReturn
  lines := by
    intro before after parts
    rcases List.append_eq_append_iff.mp parts with ⟨front, rfl, shape⟩ | ⟨back, shape, rest⟩
    · exact there.lines front after shape
    · rcases List.cons_eq_append_iff.mp rest with ⟨rfl, starts⟩ | ⟨more, rfl, rfl⟩
      · exact there.lines [] after starts
      · exact (here.lines before more shape).append other

theorem Block.append (here : Block text) (there : Solid other) : Block (text ++ other) where
  toSolid := here.toSolid.append there
  shows := here.shows.append other

/-- Behind a line feed there is no blank line if the text has none. -/
theorem Block.feed (block : Block text) : Solid ('\n' :: text) where
  noReturn := by simp [block.noReturn]
  lines := by
    intro before after parts
    rcases List.cons_eq_append_iff.mp parts with ⟨rfl, same⟩ | ⟨more, rfl, shape⟩
    · rw [← (List.cons.inj same).2] at block
      exact block.shows
    · exact block.lines more after shape

theorem solid_intercalate {separator : String} {texts : List String} (between : Solid separator.toList)
    (each : ∀ text ∈ texts, Solid text.toList) : Solid (String.intercalate separator texts).toList := by
  induction texts with
  | nil => exact Unbroken.solid fun _ none => nomatch none
  | cons first texts ih =>
      rw [List.forall_mem_cons] at each
      cases texts with
      | nil => simpa using each.1
      | cons second texts =>
          rw [String.intercalate_cons_cons, String.toList_append, String.toList_append]
          exact (each.1.append between).append (ih each.2)

/-- Parts with marks between them are no blank line unless there is nothing at all. -/
theorem block_intercalate {separator : String} {texts : List String} (between : Block separator.toList)
    (each : ∀ text ∈ texts, Block text.toList ∨ text = "") (nonempty : texts ≠ []) (notBlank : texts ≠ [""]) :
    Block (String.intercalate separator texts).toList := by
  have solid : ∀ text ∈ texts, Solid text.toList := by
    intro text member
    rcases each text member with block | rfl
    · exact block.toSolid
    · exact Unbroken.solid (by decide)
  refine ⟨solid_intercalate between.toSolid solid, ?_⟩
  obtain ⟨first, others, rfl⟩ := List.exists_cons_of_ne_nil nonempty
  rw [List.forall_mem_cons] at each
  cases others with
  | nil =>
      rcases each.1 with block | rfl
      · simpa using block.shows
      · exact absurd rfl notBlank
  | cons second others =>
      rw [String.intercalate_cons_cons, String.toList_append, String.toList_append]
      rcases each.1 with block | rfl
      · exact (block.shows.append _).append _
      · exact between.shows.append _

/-- Lines that are not blank are the text of a block with a line feed behind it. -/
theorem exists_block_lines {first : String} {lines : List String} (here : Block first.toList)
    (each : ∀ line ∈ lines, Block line.toList) : ∃ more,
      (String.join ((first :: lines).map (· ++ "\n"))).toList = first.toList ++ more ++ ['\n'] ∧
      Block (first.toList ++ more) := by
  induction lines generalizing first with
  | nil => exact ⟨[], by simp [String.join], by simpa using here⟩
  | cons second lines ih =>
      rw [List.forall_mem_cons] at each
      obtain ⟨more, shape, block⟩ := ih each.1 each.2
      refine ⟨'\n' :: (second.toList ++ more), ?_, here.append block.feed⟩
      rw [Text.toList_join_lines] at shape ⊢
      rw [List.flatMap_cons, shape]
      simp

/-! ## Values without parts -/

theorem unbroken_of_class (accepts : Char → Bool) (noFeed : accepts '\n' = false)
    (noReturn : accepts '\r' = false) (all : ∀ c ∈ text, accepts c = true) : Unbroken text := by
  intro c member
  constructor <;> rintro rfl
  · exact Bool.false_ne_true (noFeed.symm.trans (all _ member))
  · exact Bool.false_ne_true (noReturn.symm.trans (all _ member))

theorem isVisible_of_class (accepts : Char → Bool) {c : Char} (noSpace : accepts ' ' = false)
    (noTab : accepts '\t' = false) (noFeed : accepts '\n' = false) (noReturn : accepts '\r' = false)
    (accepted : accepts c = true) : isVisible c = true := by
  have other (d : Char) (rejected : accepts d = false) : c ≠ d := by
    rintro rfl
    exact Bool.false_ne_true (rejected.symm.trans accepted)
  simp [isVisible, isSpace, other ' ' noSpace, other '\t' noTab, other '\n' noFeed, other '\r' noReturn]

theorem unbroken_padded (width n : Nat) : Unbroken (padded width n).toList :=
  unbroken_of_class Char.isDigit rfl rfl (allDigits_padded width n)

theorem unbroken_of_not_isControl (noControl : ∀ c ∈ text, isControl c = false) : Unbroken text :=
  unbroken_of_class (fun c => !isControl c) rfl rfl fun c member => by simp [noControl c member]

theorem unbroken_quote (text : String) : Unbroken (quote text).toList :=
  unbroken_of_not_isControl (not_isControl_of_mem_quote text)

theorem unbroken_quoteUri (text : String) : Unbroken (quoteUri text).toList :=
  unbroken_of_not_isControl (not_isControl_of_mem_quoteUri text)

theorem block_of_isSigned (isSigned : Decimal.IsSigned text) : Block text := by
  obtain ⟨first, others, rfl, isFirst⟩ := isSigned.exists_cons
  refine Unbroken.block ?_ ⟨first, List.mem_cons_self, ?_⟩
  · refine unbroken_of_class (fun c => c.isDigit || c == '.' || c == '-') rfl rfl fun c member => ?_
    simpa [or_assoc] using isSigned.chars c member
  · rcases isFirst with isDigit | rfl
    · exact isVisible_of_class Char.isDigit rfl rfl rfl rfl isDigit
    · rfl

theorem block_write {spelling : Decimal.Spelling} (nan : Block spelling.nan.toList)
    (infinity : ∀ negative : Bool, Block ((if negative then "-" else "") ++ spelling.infinity).toList)
    (x : Binary64) : Block (Decimal.write spelling x).toList := by
  cases x with
  | nan => exact nan
  | infinity negative => exact infinity negative
  | finite => exact block_of_isSigned (Decimal.isSigned_write _ rfl)

theorem block_degreesText (angle : Binary64) : Block (degreesText angle).toList := by
  have other : Block (Decimal.write Decimal.plain angle).toList :=
    block_write (Unbroken.block_of_any (by decide) (by decide))
      (fun negative => by cases negative <;> exact Unbroken.block_of_any (by decide) (by decide)) angle
  unfold degreesText
  cases angle with
  | finite => exact block_of_isSigned (Decimal.isSigned_writeFixed (by decide : 6 ≠ 0) rfl)
  | nan => exact other
  | infinity negative => exact other

/-- A mark before a padded number. -/
theorem unbroken_marked {mark : String} (clean : Unbroken mark.toList) (width n : Nat) :
    Unbroken (mark ++ padded width n).toList := by
  rw [String.toList_append, unbroken_append_iff]
  exact ⟨clean, unbroken_padded width n⟩

theorem unbroken_dateText (date : Date) : Unbroken date.text.toList := by
  have year : Unbroken (Date.yearText date.year).toList := by
    unfold Date.yearText
    split
    · exact unbroken_marked (by decide) _ _
    split
    · exact unbroken_marked (by decide) _ _
    · exact unbroken_padded _ _
  simp only [Date.text, String.toList_append, unbroken_append_iff]
  exact ⟨⟨⟨⟨year, by decide⟩, unbroken_padded _ _⟩, by decide⟩, unbroken_padded _ _⟩

theorem unbroken_timeText (time : TimeOfDay) : Unbroken time.text.toList := by
  have fraction (nanosecond : Nat) : Unbroken (TimeOfDay.fractionText nanosecond).toList := by
    unfold TimeOfDay.fractionText
    split
    · decide
    split
    · exact unbroken_marked (by decide) _ _
    split
    · exact unbroken_marked (by decide) _ _
    · exact unbroken_marked (by decide) _ _
  simp only [TimeOfDay.text, String.toList_append, unbroken_append_iff]
  exact ⟨⟨⟨⟨⟨unbroken_padded _ _, by decide⟩, unbroken_padded _ _⟩, by decide⟩, unbroken_padded _ _⟩, fraction _⟩

theorem unbroken_offsetText (offset : Int) : Unbroken (DateTime.offsetText offset).toList := by
  simp only [DateTime.offsetText, String.toList_append, unbroken_append_iff]
  refine ⟨⟨⟨?_, unbroken_padded _ _⟩, by decide⟩, unbroken_padded _ _⟩
  split <;> decide

theorem unbroken_shortName {zone : Zone} (known : zone.IsKnown) : Unbroken zone.shortName.toList :=
  unbroken_of_class (fun c => Zone.isWordChar c || c == '-' || c == '+') rfl rfl
    (Zone.isShortName_chars known.isShortName)

end Haystack.Zinc
