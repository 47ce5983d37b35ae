import Haystack.Text.Pieces

/-!
Cutting a text where it was joined.
-/
namespace Haystack.Text

variable {isSeparator : Char → Bool} {separator : Char} {front rest : List Char}

theorem pieces_ne_nil (isSeparator : Char → Bool) (text : List Char) :
    pieces isSeparator text ≠ [] := by
  cases text with
  | nil => simp [pieces]
  | cons c rest =>
      unfold pieces
      split
      · simp
      · split <;> simp

/-- What has no separator in it stays in one piece. -/
theorem pieces_append (clean : ∀ c ∈ front, isSeparator c = false)
    (separates : isSeparator separator = true) :
    pieces isSeparator (front ++ separator :: rest) = front :: pieces isSeparator rest := by
  induction front with
  | nil => simp [pieces, separates]
  | cons c front ih =>
      rw [List.forall_mem_cons] at clean
      simp [pieces, clean.1, ih clean.2]

theorem pieces_clean (clean : ∀ c ∈ front, isSeparator c = false) : pieces isSeparator front = [front] := by
  induction front with
  | nil => rfl
  | cons c front ih =>
      rw [List.forall_mem_cons] at clean
      simp [pieces, clean.1, ih clean.2]

/-- Parts without separators come apart again. -/
theorem pieces_intercalate {parts : List (List Char)} (nonempty : parts ≠ [])
    (clean : ∀ part ∈ parts, ∀ c ∈ part, isSeparator c = false)
    (separates : isSeparator separator = true) :
    pieces isSeparator (List.intercalate [separator] parts) = parts := by
  induction parts with
  | nil => exact absurd rfl nonempty
  | cons part parts ih =>
      rw [List.forall_mem_cons] at clean
      cases parts with
      | nil => simpa using pieces_clean clean.1
      | cons second parts =>
          rw [List.intercalate_cons_cons, List.append_assoc, List.singleton_append,
            pieces_append clean.1 separates, ih (by simp) clean.2]

theorem cutFirst?_append (clean : ∀ c ∈ front, isSeparator c = false) (text : List Char) :
    cutFirst? isSeparator (front ++ text) =
      (cutFirst? isSeparator text).map fun parts => (front ++ parts.1, parts.2) := by
  induction front with
  | nil => simp
  | cons c front ih =>
      rw [List.forall_mem_cons] at clean
      simp [cutFirst?, clean.1, ih clean.2, Function.comp_def]

/-- A text is cut at the separator after a part without one. -/
theorem cutFirst?_append_cons (clean : ∀ c ∈ front, isSeparator c = false)
    (separates : isSeparator separator = true) :
    cutFirst? isSeparator (front ++ separator :: rest) = some (front, rest) := by
  rw [cutFirst?_append clean]
  simp [cutFirst?, separates]

theorem cutFirst?_clean (clean : ∀ c ∈ front, isSeparator c = false) :
    cutFirst? isSeparator front = none := by
  have whole := cutFirst?_append clean []
  rwa [List.append_nil] at whole

/-- What comes behind a text and has no separator in it is left over. -/
theorem cutFirst?_append_clean {text more : List Char} (clean : ∀ c ∈ more, isSeparator c = false) :
    cutFirst? isSeparator (text ++ more) =
      (cutFirst? isSeparator text).map fun parts => (parts.1, parts.2 ++ more) := by
  induction text with
  | nil => simpa [cutFirst?] using cutFirst?_clean clean
  | cons c text ih =>
      by_cases cuts : isSeparator c = true
      · simp [cutFirst?, cuts]
      · simp [cutFirst?, cuts, ih, Function.comp_def]

/-- Before a separator a text is cut, at the latest. -/
theorem exists_cutFirst? (separates : isSeparator separator = true) :
    ∃ before after, cutFirst? isSeparator (front ++ separator :: rest) = some (before, after) ∧
      before <+: front ∧ ∀ c ∈ front.head?, isSeparator c = false → before.head? = some c := by
  induction front with
  | nil => exact ⟨[], rest, by simp [cutFirst?, separates], List.nil_prefix, by simp⟩
  | cons c front ih =>
      by_cases cuts : isSeparator c = true
      · exact ⟨[], front ++ separator :: rest, by simp [cutFirst?, cuts], List.nil_prefix, by simp [cuts]⟩
      · obtain ⟨before, after, found, within, _⟩ := ih
        refine ⟨c :: before, after, by simp [cutFirst?, cuts, found], ?_, by simp⟩
        exact List.cons_prefix_cons.mpr ⟨rfl, within⟩

/-! ## Joined texts -/

/-- The texts with a separator between them. -/
theorem toList_intercalate_cons (separator first : String) (others : List String) :
    (String.intercalate separator (first :: others)).toList =
      first.toList ++ others.flatMap fun text => separator.toList ++ text.toList := by
  induction others generalizing first with
  | nil => simp
  | cons second others ih =>
      rw [String.intercalate_cons_cons, String.toList_append, ih]
      simp

theorem toList_intercalate_char (separator : Char) (first : String) (others : List String) :
    (String.intercalate (String.singleton separator) (first :: others)).toList =
      first.toList ++ others.flatMap fun text => separator :: text.toList := by
  simpa using toList_intercalate_cons (String.singleton separator) first others

theorem length_le_intercalate {text : String} {texts : List String} (member : text ∈ texts)
    (separator : String) :
    text.toList.length ≤ (String.intercalate separator texts).toList.length := by
  induction texts with
  | nil => exact nomatch member
  | cons first others ih =>
      cases others with
      | nil => simp [List.mem_singleton.mp member]
      | cons second others =>
          simp only [String.intercalate_cons_cons, String.toList_append, List.length_append]
          rcases List.mem_cons.mp member with rfl | inOthers
          · omega
          · have shorter := ih inOthers
            omega

theorem toList_join_lines (lines : List String) :
    (String.join (lines.map (· ++ "\n"))).toList = lines.flatMap fun line => line.toList ++ ['\n'] := by
  rw [String.toList_join, List.flatMap_map]
  congr 1
  funext line
  simp

end Haystack.Text
