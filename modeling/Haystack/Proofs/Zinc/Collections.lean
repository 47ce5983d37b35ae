import Haystack.Proofs.OrderedMap
import Haystack.Proofs.Zinc.Choice

/-!
Lists and dicts, given how what they hold is read.

Their parts are read one after the other, each followed by the next or by the closing bracket.
-/
namespace Haystack.Zinc

open Phrase

variable {value : Phrase (Reading Value)} {dialect : Version} {rest : List Char}

/-! ## What is read as a value or as a tag -/

/-- A text is read as a value wherever a value may end. -/
structure Legible (value : Phrase (Reading Value)) (text : String) (back : Value) : Prop where
  starts : Starts text.toList
  reads : ∀ rest, Follows rest → Reads value text.toList rest (.ok back)

/-- A text is read as a tag wherever a tag may end. -/
structure LegibleTag (value : Phrase (Reading Value)) (text : String) (item : String × Value) :
    Prop where
  starts : ∃ first others, text.toList = first :: others ∧ isNameStart first = true
  reads : ∀ rest, Follows rest → Reads (tag value) text.toList rest (item.1, .ok item.2)

/-- No value is where a separator is. -/
def Separated (value : Phrase (Reading Value)) : Prop :=
  ∀ c rest, isSeparator c = true → Fails value (c :: rest)

theorem not_isValueStart_of_isSeparator {c : Char} (separates : isSeparator c = true) :
    isValueStart c = false := by
  rcases isSeparator_cases separates with rfl | rfl | rfl | rfl | rfl <;> decide

theorem separated_valueAround : Separated (valueAround value dialect) := fun _ _ separates =>
  fails_valueAround (stops_cons.mpr (not_isValueStart_of_isSeparator separates))

theorem mapM_ok {α ε : Type} (values : List α) :
    (values.map Except.ok : List (Except ε α)).mapM id = .ok values := by
  induction values with
  | nil => rfl
  | cons first others ih =>
      rw [List.map_cons, List.mapM_cons, ih]
      rfl

theorem readTags_ok (items : List (String × Value)) :
    readTags (items.map fun item => (item.1, .ok item.2)) = .ok items := by
  induction items with
  | nil => rfl
  | cons first others ih =>
      rw [List.map_cons, readTags, ih]
      rfl

/-! ## Lists -/

/-- The items of a list after the first. -/
def nextItem (value : Phrase (Reading Value)) : Phrase (Reading Value) := do
  let _ ← char ','
  spaces
  let item ← value
  spaces
  pure item

theorem Legible.reads_nextItem {text : String} {back : Value} (legible : Legible value text back)
    (follows : Follows rest) (noSpace : Stops isSpace rest) :
    Reads (nextItem value) (',' :: text.toList) rest (.ok back) := by
  refine Reads.bind_cons reads_char (Reads.skip legible.starts.append.reads_spaces ?_)
  exact Reads.last (legible.reads rest follows) (Reads.skip (reads_spaces_nil noSpace) reads_pure)

/-- What follows the items of a list. -/
def FollowsItem (rest : List Char) : Prop := ∃ c more, rest = c :: more ∧ (c = ',' ∨ c = ']')

theorem FollowsItem.follows (next : FollowsItem rest) : Follows rest ∧ Stops isSpace rest := by
  obtain ⟨c, more, rfl, rfl | rfl⟩ := next
  · exact ⟨.separator ',' more rfl, stops_cons.mpr rfl⟩
  · exact ⟨.separator ']' more rfl, stops_cons.mpr rfl⟩

/-- The items of a list with commas between them, up to its bracket. -/
theorem reads_items {first : String} {back : Value} {texts : List String} {backs : List Value}
    (here : Legible value first back) (others : List.Forall₂ (Legible value) texts backs) :
    Reads (do
      let first ← value
      spaces
      let others ← many (nextItem value)
      let _ ← Phrase.optional do
        let _ ← char ','
        spaces
      pure (first :: others)) (first.toList ++ texts.flatMap fun text => ',' :: text.toList)
      (']' :: rest) ((back :: backs).map .ok) := by
  have parts : TakesEach (nextItem value) Eq (']' :: rest)
      (texts.flatMap fun text => ',' :: text.toList) (backs.map .ok) := by
    refine TakesEach.of_forall₂ FollowsItem ?_ ⟨']', rest, rfl, .inr rfl⟩
      (Fails.bind (fails_char (by simp)))
    rw [List.forall₂_map_right_iff]
    refine others.imp fun text back legible => ⟨by simp, fun more => ⟨',', _, rfl, .inl rfl⟩, ?_⟩
    exact fun more next => legible.reads_nextItem next.follows.1 next.follows.2
  have next : FollowsItem ((texts.flatMap fun text => ',' :: text.toList) ++ ']' :: rest) := by
    cases texts with
    | nil => exact ⟨']', rest, rfl, .inr rfl⟩
    | cons text texts => exact ⟨',', _, rfl, .inl rfl⟩
  refine Reads.bind (here.reads _ next.follows.1) ?_
  refine Reads.skip (reads_spaces_nil next.follows.2) (Reads.last (reads_many parts) ?_)
  exact Reads.skip (Fails.optional (Fails.bind (fails_char (by simp)))) reads_pure

theorem reads_list {texts : List String} {backs : List Value} (separated : Separated value)
    (atLeast : compare dialect .three ≠ .lt) (legible : List.Forall₂ (Legible value) texts backs) :
    Reads (list dialect value) ("[" ++ String.intercalate "," texts ++ "]").toList rest
      (.ok (.list backs)) := by
  have made (offset : Nat) : (do
      requireThree dialect offset "List"
      let items ← (backs.map Except.ok).mapM id
      pure (Value.list items) : Reading Value) = .ok (.list backs) := by
    rw [requireThree, if_neg (by simpa using atLeast), mapM_ok]
    rfl
  refine Takes.named (takes_here_bind fun offset => ?_)
  cases legible with
  | nil =>
      rw [show ("[" ++ String.intercalate "," [] ++ "]").toList = ['[', ']'] by simp]
      refine Reads.bind_cons reads_char (Reads.skip (reads_spaces_nil (stops_cons.mpr rfl)) ?_)
      refine Reads.skip (Fails.optional (Fails.bind (separated ']' _ rfl))) ?_
      refine Reads.last reads_char ?_
      rw [Option.getD_none, show ([] : List (Reading Value)) = ([] : List Value).map .ok from rfl,
        made offset]
      exact reads_pure
  | @cons first back texts backs here others =>
      have shape : ("[" ++ String.intercalate "," (first :: texts) ++ "]").toList =
          '[' :: ((first.toList ++ texts.flatMap fun text => ',' :: text.toList) ++ [']']) := by
        rw [String.toList_append, String.toList_append, show "," = String.singleton ',' from rfl,
          Text.toList_intercalate_char]
        simp
      rw [shape]
      refine Reads.bind_cons reads_char (Reads.skip (a := ()) ?_
        (Reads.bind (reads_items here others).optional ?_))
      · rw [List.append_assoc, List.append_assoc]
        exact here.starts.append.reads_spaces
      refine Reads.last reads_char ?_
      rw [Option.getD_some, made offset]
      exact reads_pure

/-! ## Tags -/

theorem isSpace_of_isNameStart {c : Char} (isName : isNameStart c = true) : isSpace c = false := by
  refine not_isSpace_of_isValueStart ?_
  rw [isValueStart, isIdChar_of_isNameStart isName]
  rfl

theorem follows_stops_isIdChar (follows : Follows rest) : Stops isIdChar rest :=
  follows.stops_of_all (by decide)

/-- After a name, what follows a value gives no value to the tag. -/
theorem Follows.fails_given (follows : Follows rest) :
    Fails (do
      spaces
      let _ ← char ':'
      spaces
      value) rest := by
  cases follows with
  | ended => exact Reads.skip_fails (reads_spaces_nil stops_nil) (Fails.bind (fails_char (by simp)))
  | separator c rest separates =>
      have noSpace : Stops isSpace (c :: rest) := by
        rw [stops_cons]
        rcases isSeparator_cases separates with rfl | rfl | rfl | rfl | rfl <;> rfl
      refine Reads.skip_fails (reads_spaces_nil noSpace) (Fails.bind (fails_char ?_))
      rintro head
      obtain rfl := Option.some.inj head
      exact absurd separates (by decide)
  | tag c rest isName =>
      have noSpace : Stops isSpace (c :: rest) := stops_cons.mpr (isSpace_of_isNameStart isName)
      change Fails _ ([' '] ++ c :: rest)
      refine Reads.bind_fails (reads_spaces_one noSpace) (Fails.bind (fails_char ?_))
      rintro head
      obtain rfl := Option.some.inj head
      exact absurd isName (by decide)

/-- A tag is read with its value, or as a marker if it has none. -/
theorem legibleTag {name text : String} {held back : Value} (isName : isTagName name = true)
    (legible : held.isMarker ≠ true → Legible value text back)
    (marker : held.isMarker = true → back = .marker) :
    LegibleTag value (tagText name held text) (name, back) := by
  obtain ⟨first, others, shape, isFirst, _⟩ := exists_of_isTagName isName
  by_cases isMarker : held.isMarker = true
  · obtain rfl := marker isMarker
    rw [tagText, if_pos isMarker]
    refine ⟨⟨first, others, shape, isFirst⟩, fun rest follows => Takes.named ?_⟩
    refine Reads.last (reads_tagName isName (follows_stops_isIdChar follows)) ?_
    exact Reads.skip follows.fails_given.optional reads_pure
  · have legible := legible isMarker
    have written : (tagText name held text).toList = name.toList ++ ':' :: text.toList := by
      rw [tagText, if_neg isMarker]
      simp
    refine ⟨⟨first, others ++ ':' :: text.toList, by rw [written, shape]; rfl, isFirst⟩,
      fun rest follows => ?_⟩
    rw [written]
    refine Takes.named (Reads.bind (reads_tagName isName (stops_cons.mpr rfl)) ?_)
    have given : Reads (do
        spaces
        let _ ← char ':'
        spaces
        value) (':' :: text.toList) rest (.ok back) := by
      refine Reads.skip (reads_spaces_nil (stops_cons.mpr rfl)) (Reads.bind_cons reads_char ?_)
      exact Reads.skip legible.starts.append.reads_spaces (legible.reads rest follows)
    exact Reads.last given.optional reads_pure

theorem LegibleTag.stops {text : String} {item : String × Value} (legible : LegibleTag value text item) :
    Stops isSpace (text.toList ++ rest) ∧ (text.toList ++ rest).head? ≠ some ',' := by
  obtain ⟨first, others, shape, isName⟩ := legible.starts
  rw [shape]
  refine ⟨stops_cons.mpr (isSpace_of_isNameStart isName), fun head => ?_⟩
  obtain rfl := Option.some.inj head
  exact absurd isName (by decide)

theorem LegibleTag.follows {text : String} {item : String × Value} (legible : LegibleTag value text item)
    (rest : List Char) : Follows (' ' :: text.toList ++ rest) := by
  obtain ⟨first, others, shape, isName⟩ := legible.starts
  rw [List.cons_append, shape]
  exact .tag first _ isName

/-! ## Dicts -/

/-- The tags of a dict after the first. -/
def nextTag (value : Phrase (Reading Value)) : Phrase (String × Reading Value) := do
  spaces
  let _ ← Phrase.optional (char ',')
  spaces
  tag value

theorem LegibleTag.reads_nextTag {text : String} {item : String × Value}
    (legible : LegibleTag value text item) (follows : Follows rest) :
    Reads (nextTag value) (' ' :: text.toList) rest (item.1, .ok item.2) := by
  obtain ⟨noSpace, noComma⟩ :
      Stops isSpace (text.toList ++ rest) ∧ (text.toList ++ rest).head? ≠ some ',' := legible.stops
  refine Reads.bind_cons (reads_spaces_one noSpace) (Reads.skip (fails_char noComma).optional ?_)
  exact Reads.skip (reads_spaces_nil noSpace) (legible.reads rest follows)

/-- No tag stands before the brace that closes a dict. -/
theorem fails_nextTag : Fails (nextTag value) ('\x7d' :: rest) := by
  have closed : Stops isSpace ('\x7d' :: rest) := stops_cons.mpr rfl
  refine Reads.skip_fails (reads_spaces_nil closed) ?_
  refine Reads.skip_fails (Fails.optional (fails_char (by simp))) ?_
  refine Reads.skip_fails (reads_spaces_nil closed) (Fails.named (Fails.bind (fails_tagName ?_)))
  exact stops_cons.mpr rfl

/-- The tags of a dict with spaces between them, up to its brace. -/
theorem reads_tags {first : String} {item : String × Value} {texts : List String}
    {items : List (String × Value)} (here : LegibleTag value first item)
    (others : List.Forall₂ (LegibleTag value) texts items) :
    Reads (do
      let first ← tag value
      let others ← many (nextTag value)
      pure (first :: others)) (first.toList ++ texts.flatMap fun text => ' ' :: text.toList)
      ('\x7d' :: rest) ((item :: items).map fun item => (item.1, .ok item.2)) := by
  have parts : TakesEach (nextTag value) Eq ('\x7d' :: rest)
      (texts.flatMap fun text => ' ' :: text.toList)
      (items.map fun item => (item.1, .ok item.2)) := by
    refine TakesEach.of_forall₂ Follows ?_ (.separator '\x7d' rest rfl) fails_nextTag
    rw [List.forall₂_map_right_iff]
    exact others.imp fun text item legible => ⟨by simp, legible.follows,
      fun more follows => legible.reads_nextTag follows⟩
  have next : Follows ((texts.flatMap fun text => ' ' :: text.toList) ++ '\x7d' :: rest) := by
    cases others with
    | nil => exact .separator '\x7d' rest rfl
    | cons here others =>
        rw [List.flatMap_cons, List.append_assoc]
        exact here.follows _
  exact Reads.bind (here.reads _ next) (Reads.last (reads_many parts) reads_pure)

theorem reads_dict {texts : List String} {items : List (String × Value)}
    (atLeast : compare dialect .three ≠ .lt) (legible : List.Forall₂ (LegibleTag value) texts items)
    (distinct : (items.map (·.1)).Nodup) :
    Reads (dict dialect value) ("\x7b" ++ String.intercalate " " texts ++ "\x7d").toList rest
      (.ok (.dict ⟨items⟩)) := by
  have made (offset : Nat) : (do
      requireThree dialect offset "Dict"
      let tags ← readTags (items.map fun item => (item.1, .ok item.2))
      pure (Value.dict (.ofList tags)) : Reading Value) = .ok (.dict ⟨items⟩) := by
    rw [requireThree, if_neg (by simpa using atLeast), readTags_ok,
      ← OrderedMap.ofList_of_nodup distinct]
    rfl
  have closed {more : List Char} : Stops isSpace ('\x7d' :: more) := stops_cons.mpr rfl
  refine Takes.named (takes_here_bind fun offset => ?_)
  cases legible with
  | nil =>
      rw [show ("\x7b" ++ String.intercalate " " [] ++ "\x7d").toList = ['\x7b', '\x7d'] by simp]
      refine Reads.bind_cons reads_char (Reads.skip (reads_spaces_nil closed) ?_)
      refine Reads.skip (Fails.optional (Fails.bind (Fails.named (Fails.bind (fails_tagName ?_))))) ?_
      · exact stops_cons.mpr rfl
      refine Reads.skip (reads_spaces_nil closed) (Reads.skip (Fails.optional (fails_char (by simp))) ?_)
      refine Reads.skip (reads_spaces_nil closed) (Reads.last reads_char ?_)
      rw [Option.getD_none, show ([] : List (String × Reading Value)) =
        ([] : List (String × Value)).map fun item => (item.1, .ok item.2) from rfl, made offset]
      exact reads_pure
  | @cons first item texts items here others =>
      have shape : ("\x7b" ++ String.intercalate " " (first :: texts) ++ "\x7d").toList =
          '\x7b' :: ((first.toList ++ texts.flatMap fun text => ' ' :: text.toList) ++ ['\x7d']) := by
        rw [String.toList_append, String.toList_append, show " " = String.singleton ' ' from rfl,
          Text.toList_intercalate_char]
        simp
      rw [shape]
      refine Reads.bind_cons reads_char (Reads.skip (a := ()) ?_
        (Reads.bind (reads_tags here others).optional ?_))
      · rw [List.append_assoc, List.append_assoc]
        exact reads_spaces_nil here.stops.1
      refine Reads.skip (reads_spaces_nil closed) (Reads.skip (Fails.optional (fails_char (by simp))) ?_)
      refine Reads.skip (reads_spaces_nil closed) (Reads.last reads_char ?_)
      rw [Option.getD_some, made offset]
      exact reads_pure

end Haystack.Zinc
