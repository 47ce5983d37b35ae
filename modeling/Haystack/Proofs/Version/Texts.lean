import Haystack.Proofs.Version

/-!
Texts of versions, taken apart and put together again.

A version is read by the expression `^(\d[\d.]*)(\D.*)?$`. A matcher takes as many digits and points
as it can and goes back where the rest does not match. Here going back never helps, so what follows
the groups starts with neither a digit nor a point, and a version whose parts are written one after
the other is taken apart into the same parts.
-/
namespace Haystack.Version

open Phrase (Stops)

variable {v w : Version} {text front back : List Char}

/-! ## Taking a text apart -/

/-- Whether `(\D.*)?` matches a text as a whole. The first character may be a line feed. -/
def isExtra : List Char → Bool
  | [] => true
  | c :: rest => !Text.isDecimalDigit c && !rest.contains '\n'

/-- What `[\d.]*` and `(\D.*)?` match of a text as a whole, the first one as much as it can. -/
def matchGroups : List Char → Option (List Char × List Char)
  | [] => some ([], [])
  | c :: rest =>
      let stop := if isExtra (c :: rest) then some ([], c :: rest) else none
      if isGroupChar c then ((matchGroups rest).map fun parts => (c :: parts.1, parts.2)).or stop else stop

/-- The two parts of a text that the expression matches. -/
def captures? : List Char → Option (List Char × List Char)
  | [] => none
  | c :: rest =>
      if Text.isDecimalDigit c then (matchGroups rest).map fun parts => (c :: parts.1, parts.2) else none

theorem isExtra_of_stops (stops : Stops isGroupChar text) :
    isExtra text = !(text.drop 1).contains '\n' := by
  cases text with
  | nil => rfl
  | cons c rest =>
      have noDigit : Text.isDecimalDigit c = false := by
        have noGroup := Phrase.stops_cons.mp stops
        simp only [isGroupChar, Bool.or_eq_false_iff] at noGroup
        exact noGroup.1
      simp [isExtra, noDigit]

/-- Going back never helps: a line feed that the longest match leaves behind stays behind. -/
theorem matchGroups_eq (text : List Char) : matchGroups text =
    if isExtra (text.dropWhile isGroupChar) then
      some (text.takeWhile isGroupChar, text.dropWhile isGroupChar)
    else none := by
  induction text with
  | nil => rfl
  | cons c rest ih =>
      rw [matchGroups, ih, List.takeWhile_cons, List.dropWhile_cons]
      cases group : isGroupChar c with
      | false => simp
      | true =>
          cases extra : isExtra (rest.dropWhile isGroupChar) with
          | true => simp only [if_true, Option.map_some, Option.some_or, extra]
          | false =>
              have behind : '\n' ∈ rest := by
                rw [isExtra_of_stops Phrase.stops_dropWhile, Bool.not_eq_false',
                  List.contains_iff_mem] at extra
                exact (List.dropWhile_sublist _).subset (List.mem_of_mem_drop extra)
              have noStop : isExtra (c :: rest) = false := by simp [isExtra, behind]
              simp [extra, noStop]

theorem captures?_eq (text : List Char) : captures? text =
    if (text.head?.any Text.isDecimalDigit && isExtra (text.dropWhile isGroupChar)) then
      some (text.takeWhile isGroupChar, text.dropWhile isGroupChar)
    else none := by
  cases text with
  | nil => rfl
  | cons c rest =>
      rw [captures?, matchGroups_eq, List.takeWhile_cons, List.dropWhile_cons, List.head?_cons]
      cases digit : Text.isDecimalDigit c with
      | false => simp [digit]
      | true =>
          have group : isGroupChar c = true := by simp [isGroupChar, digit]
          cases extra : isExtra (rest.dropWhile isGroupChar) <;> simp [digit, group, extra]

/-- The text behind the groups, if there is any. -/
def extraOf : List Char → Option String
  | [] => none
  | c :: rest => some (String.ofList (c :: rest))

/-- A version is what the two parts of its text say. -/
theorem read?_eq (text : String) : read? text =
    (captures? text.toList).bind fun parts =>
      ((Text.pieces (· == '.') parts.1).mapM group?).map (⟨·, extraOf parts.2⟩) := by
  rw [captures?_eq, read?]
  have stops : Stops isGroupChar (text.toList.dropWhile isGroupChar) := Phrase.stops_dropWhile
  cases head : text.toList.head? with
  | none => simp
  | some first =>
      cases digit : Text.isDecimalDigit first with
      | false => simp [digit]
      | true =>
          cases behind : text.toList.dropWhile isGroupChar with
          | nil =>
              simp [digit, isExtra, extraOf, Option.map_eq_bind]
          | cons c rest =>
              rw [behind] at stops
              have extra : isExtra (c :: rest) = !rest.contains '\n' := isExtra_of_stops stops
              by_cases feed : '\n' ∈ rest
              · simp [digit, extra, feed]
              · simp [digit, extra, feed, extraOf, Option.map_eq_bind]

/-! ## Putting it together again -/

/-- The text of a version is taken apart where its groups end. -/
theorem captures?_text (proper : v.IsProper) :
    captures? v.text.toList = some (groupsText v.groups, (v.extra.getD "").toList) := by
  obtain ⟨first, isFirst, isDigit⟩ :=
    exists_head?_groupsText proper.nonempty (v.extra.getD "").toList
  have extra : isExtra (v.extra.getD "").toList = true := by
    rw [isExtra_of_stops proper.stops]
    simpa using proper.noFeed
  rw [captures?_eq, toList_text, Option.mem_def.mp isFirst,
    List.takeWhile_append_of_pos isGroupChar_groupsText,
    List.dropWhile_append_of_pos isGroupChar_groupsText, Phrase.takeWhile_of_stops proper.stops,
    Phrase.dropWhile_of_stops proper.stops, List.append_nil]
  simp only [Option.any_some, isDigit, extra, Bool.and_self, if_true]

/-- A version that was read from a text is written as a text from which the same version is read, by
taking it apart in the same places. So each version has one printed form, and printing does not change
how versions are ordered. -/
theorem printed_of_read? {text : String} (accepted : read? text = some v) :
    (∃ front back, captures? text.toList = some (front, back) ∧
      (Text.pieces (· == '.') front).mapM group? = some v.groups ∧ extraOf back = v.extra) ∧
    captures? v.text.toList = some (groupsText v.groups, (v.extra.getD "").toList) ∧
    (∃ again, read? v.text = some again ∧ again.groups = v.groups ∧ again.extra = v.extra) ∧
    (∀ other w, read? other = some w → (w.text = v.text ↔ w = v)) ∧
    ∀ other w, read? other = some w → ∀ again otherAgain, read? v.text = some again →
      read? w.text = some otherAgain → compare again otherAgain = compare v w := by
  have readBack : read? v.text = some v := read?_text (isProper_of_read? accepted)
  refine ⟨?_, captures?_text (isProper_of_read? accepted), ⟨v, readBack, rfl, rfl⟩, ?_, ?_⟩
  · rw [read?_eq, Option.bind_eq_some_iff] at accepted
    obtain ⟨⟨front, back⟩, captured, made⟩ := accepted
    obtain ⟨groups, areGroups, rfl⟩ := Option.map_eq_some_iff.mp made
    exact ⟨front, back, captured, areGroups, rfl⟩
  · intro other w alsoAccepted
    refine ⟨fun same => ?_, fun same => same ▸ rfl⟩
    have otherBack := read?_text (isProper_of_read? alsoAccepted)
    rw [same, readBack] at otherBack
    exact (Option.some.inj otherBack).symm
  · intro other w alsoAccepted again otherAgain isAgain isOtherAgain
    rw [readBack] at isAgain
    rw [read?_text (isProper_of_read? alsoAccepted)] at isOtherAgain
    rw [Option.some.inj isAgain, Option.some.inj isOtherAgain]

/-- An empty group and one with zeros in front, and a text that starts with a line feed and has a digit
of another script. -/
theorem printed_of_read?_ragged :
    let v : Version := ⟨[7, 0, 2, 0], some "\nb٣"⟩
    read? "007..2.\nb٣" = some v ∧ v.text = "7.0.2.0\nb٣" ∧
      ∃ again, read? v.text = some again ∧ again.groups = v.groups ∧ again.extra = v.extra := by
  intro v
  have accepted : read? "007..2.\nb٣" = some v := by decide +kernel
  exact ⟨accepted, by decide +kernel, (printed_of_read? accepted).2.2.1⟩

end Haystack.Version
