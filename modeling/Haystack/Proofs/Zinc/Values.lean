import Haystack.Proofs.Calendar.Zone
import Haystack.Proofs.Value.Related
import Haystack.Proofs.Zinc.Drafts

/-!
Values that have a text of their own, and what their texts are read as.

Values are nested in a text no deeper than it has characters, so that a text is read wherever the
phrase for values goes as deep as the text is long.
-/
namespace Haystack.Zinc

open Phrase
open Value (TagsNear TagsRelated KeepsKind keepsKind_near keepsKind_eq)

/-! ## Representable values -/

/-- Bytes that were decoded from a text in an encoding whose name is a word. -/
structure IsEncoded (x : XStr) : Prop where
  word : x.encoding.toList.all isIdChar = true
  nonempty : x.encoding ≠ ""
  other : x.encoding ≠ "Bin"
  decoded : ∃ payload, XStr.ofText x.encoding payload = .ok x

/-- An angle with six decimals that are read as one near to it. -/
structure IsAngle (angle : Binary64) : Prop where
  finite : angle.isFinite = true
  read : ∃ other, Decimal.read (degreesText angle).toList = .ok other ∧ other.isNear angle = true

/-- A moment of a known zone with four digits for the year and whole minutes for the offset. -/
structure IsMoment (moment : DateTime) : Prop where
  zone : moment.zone.IsKnown
  nanosecond : moment.instant.nanosecond < 2 * TimeOfDay.nanosPerSecond
  year : moment.clock.date.HasFourDigits
  minutes : moment.offset % 60 = 0

/-- A grid that has no value but that of the column written for no columns at all. -/
def IsBare (grid : Grid) : Prop :=
  grid.columns.items = [(emptyColumn, .empty)] ∧ ∀ row ∈ grid.rows, Entity.valueOf row emptyColumn = .null

/-- A grid of version 3.0 or later whose names are words and whose tags all have columns. -/
structure IsTable (grid : Grid) : Prop where
  version : grid.version.IsProper
  atLeast : grid.version.IsAtLeastThree
  metadata : ∀ name ∈ grid.metadata.keys, isTagName name = true
  columns : ∀ name ∈ grid.columns.keys, isTagName name = true
  columnMetadata : ∀ held ∈ grid.columns.values, ∀ name ∈ held.keys, isTagName name = true
  declared : ∀ row ∈ grid.rows, ∀ name ∈ row.keys, name ∈ grid.columns.keys
  shown : grid.columns.items = [] → grid.rows = []
  notBare : ¬ IsBare grid

/-- Whether a value itself can be written so that it is read again; of what is in it this says
nothing. -/
def Representable : Value → Prop
  | .number n => IsWritable n
  | .xstr x => IsEncoded x
  | .ref r => r.name.toList.all isRefChar = true
  | .date d => d.isValid = true ∧ d.HasFourDigits
  | .time t => t.InDay ∧ t.IsProper
  | .dateTime d => IsMoment d
  | .coord c => IsAngle c.latitude ∧ IsAngle c.longitude
  | .dict tags => tags.Distinct ∧ ∀ name ∈ tags.keys, isTagName name = true
  | .grid g => Value.Keyed (.grid g) ∧ IsTable g
  | _ => True

theorem IsMoment.isWritable {moment : DateTime} (isMoment : IsMoment moment) : moment.IsWritable where
  nanosecond := isMoment.nanosecond
  year := isMoment.year
  withinDay := isMoment.zone.natAbs_offsetAt_lt _

theorem isMoment_epoch : IsMoment ⟨⟨0, 0⟩, .utc⟩ where
  zone := by
    unfold Zone.IsKnown
    decide +kernel
  nanosecond := by decide
  year := by decide +kernel
  minutes := by decide +kernel

/-! ## Readable texts -/

variable {dialect : Version}

/-- In a dialect a text is read as a value by each phrase that goes deep enough. -/
def Readable (dialect : Version) (text : String) (back : Value) : Prop :=
  ∀ depth, text.toList.length ≤ depth → Legible (valueWithin dialect (depth + 1)) text back

/-- A phrase that goes deep enough for texts of some length. -/
structure Reaches (dialect : Version) (value : Phrase (Reading Value)) (length : Nat) : Prop where
  separated : Separated value
  legible : ∀ text back, text.toList.length ≤ length → Readable dialect text back →
    Legible value text back

theorem Reaches.mono {value : Phrase (Reading Value)} {length shorter : Nat}
    (reaches : Reaches dialect value length) (smaller : shorter ≤ length) :
    Reaches dialect value shorter where
  separated := reaches.separated
  legible := fun text back short => reaches.legible text back (Nat.le_trans short smaller)

theorem reaches_valueWithin (depth : Nat) : Reaches dialect (valueWithin dialect (depth + 1)) depth where
  separated := separated_valueAround
  legible := fun _ _ short readable => readable depth short

theorem reaches_value (length : Nat) : Reaches dialect (value dialect) length where
  separated := fun c rest separates =>
    fails_of_found fun offset => by
      have fails : Fails (valueWithin dialect ((c :: rest).length + 1)) (c :: rest) :=
        separated_valueAround c rest separates
      exact fails.found offset
  legible := fun text back _ readable => by
    refine ⟨(readable text.toList.length (Nat.le_refl _)).starts, fun rest follows => ?_⟩
    refine reads_of_found fun offset => ?_
    have long : text.toList.length ≤ (text.toList ++ rest).length := by simp
    exact ((readable _ long).reads rest follows).found offset

/-- A text that is read at any depth starts like a value. -/
theorem starts_of_reads {value : Phrase (Reading Value)} {text : List Char} {meaning : Reading Value}
    (reads : Reads (valueAround value dialect) text [] meaning) : Starts text := by
  by_contra noStart
  refine reads.not_fails (fails_valueAround fun c head => ?_)
  rw [List.append_nil] at head
  by_contra isStart
  exact noStart ⟨c, head, by simpa using isStart⟩

theorem readable_of_reads {text : String} {back : Value}
    (reads : ∀ value rest, Follows rest →
      Reads (valueAround value dialect) text.toList rest (.ok back)) : Readable dialect text back :=
  fun depth _ => ⟨starts_of_reads (reads (valueWithin dialect depth) [] .ended),
    fun rest follows => reads _ rest follows⟩

/-- A readable text is a value by itself. -/
theorem readValue_of_readable {text : String} {back : Value} {version : Version}
    (readable : Readable .three text back) (atLeast : version.IsAtLeastThree) :
    readValue text version = .ok back := by
  have legible := (reaches_value text.toList.length).legible text back (Nat.le_refl _) readable
  rw [readValue, Version.nearest_of_isAtLeastThree atLeast, readWhole,
    readAll_of_reads (legible.reads [] .ended)]

/-- So is one that is read whatever the phrase for parts. -/
theorem readValue_of_reads {text : String} {back : Value} {version : Version}
    (reads : ∀ value, Reads (valueAround value version.nearest) text.toList [] (.ok back)) :
    readValue text version = .ok back := by
  have whole : Reads (value version.nearest) text.toList [] (.ok back) :=
    reads_of_found fun offset => by
      rw [value, valueWithin]
      exact (reads _).found offset
  rw [readValue, readWhole, readAll_of_reads whole]

/-! ## Values without parts -/

/-- In a version the value has a text that is read in a dialect as one related to it. -/
def Rereads (related : Value → Value → Prop) (dialect version : Version) (value : Value) : Prop :=
  ∃ text back, writeValue value version = .ok text ∧ related back value ∧ Readable dialect text back

/-- In each version from 3.0 on the value has a text that is read as one near to it. -/
def ReadsBack (value : Value) : Prop :=
  ∀ version : Version, version.IsAtLeastThree →
    Rereads (fun back value => Value.near back value = true) .three version value

theorem near_refl_of_leaf {value : Value} (leaf : value.IsLeaf) : Value.near value value = true := by
  refine Value.near_refl (Value.throughout_of_childless ?_ ?_)
  · cases value <;> trivial
  · cases value <;> first | rfl | exact leaf.elim

theorem compare_three_three : compare Version.three Version.three ≠ .lt := by decide

/-- Values whose own text gives them back exactly. The name of a zone may be one of several, angles are
rounded, and grids lose what is not shown. -/
def IsVerbatim : Value → Prop
  | .dateTime _ | .coord _ | .grid _ => False
  | _ => True

/-- In each version from 3.0 on the value has a text that is read as the value. -/
def ReadsAsItself (value : Value) : Prop :=
  ∀ version : Version, version.IsAtLeastThree →
    ∃ text, writeValue value version = .ok text ∧ Readable .three text value

theorem readsAsItself_of_leaf {value : Value} (representable : Representable value)
    (leaf : value.IsLeaf) (verbatim : IsVerbatim value) : ReadsAsItself value := by
  intro version atLeast
  have fits : value.ensureFits version = .ok () := if_pos (fits_of_isAtLeastThree atLeast value)
  cases value with
  | null => exact ⟨_, rfl, readable_of_reads fun _ _ follows => reads_null follows⟩
  | marker => exact ⟨_, rfl, readable_of_reads fun _ _ follows => reads_marker follows⟩
  | na =>
      refine ⟨"NA", by rw [writeValue, fits]; rfl, readable_of_reads fun _ _ follows => ?_⟩
      exact reads_na follows compare_three_three
  | remove => exact ⟨_, rfl, readable_of_reads fun _ _ follows => reads_remove follows⟩
  | bool b => exact ⟨_, rfl, readable_of_reads fun _ _ follows => reads_bool follows b⟩
  | number n =>
      exact ⟨_, rfl, readable_of_reads fun _ _ follows => reads_value_number representable follows⟩
  | str s => exact ⟨_, rfl, readable_of_reads fun _ _ _ => reads_value_str s⟩
  | uri s => exact ⟨_, rfl, readable_of_reads fun _ _ _ => reads_value_uri s⟩
  | bin mime => exact ⟨_, rfl, readable_of_reads fun _ _ _ => reads_value_bin mime atLeast⟩
  | xstr x =>
      obtain ⟨word, nonempty, other, payload, made⟩ := representable
      refine ⟨_, rfl, readable_of_reads fun _ _ _ => ?_⟩
      exact reads_value_xstr word nonempty other made
  | ref r =>
      exact ⟨_, rfl, readable_of_reads fun _ _ follows => reads_value_ref representable follows⟩
  | date d =>
      refine ⟨_, rfl, readable_of_reads fun _ _ follows => ?_⟩
      exact reads_value_date representable.1 representable.2 follows
  | time t =>
      refine ⟨_, rfl, readable_of_reads fun _ _ follows => ?_⟩
      exact reads_value_time representable.1 representable.2 follows
  | dateTime moment => exact verbatim.elim
  | coord place => exact verbatim.elim
  | list items => exact leaf.elim
  | dict tags => exact leaf.elim
  | grid g => exact leaf.elim

theorem readsBack_of_leaf {value : Value} (representable : Representable value)
    (leaf : value.IsLeaf) : ReadsBack value := by
  intro version atLeast
  cases value with
  | dateTime moment =>
      obtain ⟨read, near, reads⟩ := exists_reads_value_dateTime representable.isWritable representable.zone
      refine ⟨_, .dateTime read, rfl, ?_, readable_of_reads fun value rest => reads value .three rest⟩
      simp [Value.near, near representable.minutes]
  | coord place =>
      obtain ⟨⟨finiteLatitude, latitude, isLatitude, nearLatitude⟩,
        ⟨finiteLongitude, longitude, isLongitude, nearLongitude⟩⟩ := representable
      refine ⟨coordinateText place, .coord ⟨latitude, longitude⟩, rfl, ?_, ?_⟩
      · simp [Value.near, nearLatitude, nearLongitude]
      · exact readable_of_reads fun _ _ _ =>
          reads_value_coord ⟨finiteLatitude, finiteLongitude⟩ isLatitude isLongitude
  | grid g => exact leaf.elim
  | _ =>
      obtain ⟨text, written, readable⟩ :=
        readsAsItself_of_leaf representable leaf trivial version atLeast
      exact ⟨text, _, written, near_refl_of_leaf leaf, readable⟩

/-! ## Parts -/

variable {value : Phrase (Reading Value)} {version : Version} {length : Nat}
  {related : Value → Value → Prop}

/-- What reads each part reads all of them if it goes deep enough for each. -/
theorem forall₂_of_reaches {α : Type} {reads : Phrase (Reading Value) → String → α → Prop}
    {texts : List String} {backs : List α} (reaches : Reaches dialect value length)
    (each : List.Forall₂ (fun text back =>
      ∀ value, Reaches dialect value text.toList.length → reads value text back) texts backs)
    (short : ∀ text ∈ texts, text.toList.length ≤ length) :
    List.Forall₂ (reads value) texts backs := by
  induction each with
  | nil => exact .nil
  | cons here others ih =>
      rw [List.forall_mem_cons] at short
      exact .cons (here value (reaches.mono short.1)) (ih short.2)

/-- A text is read as a value by what goes deep enough for all that is shorter. -/
theorem readable_of_reaches {text : String} {back : Value} (starts : Starts text.toList)
    (reads : ∀ value, Reaches dialect value (text.toList.length - 1) → ∀ rest, Follows rest →
      Reads (valueAround value dialect) text.toList rest (.ok back)) : Readable dialect text back := by
  intro depth long
  have nonempty : 0 < text.toList.length := List.length_pos_iff.mpr starts.ne_nil
  obtain ⟨deeper, rfl⟩ : ∃ n, depth = n + 1 := ⟨depth - 1, by omega⟩
  have reaches : Reaches dialect _ _ :=
    (reaches_valueWithin deeper).mono (show text.toList.length - 1 ≤ deeper by omega)
  exact ⟨starts, fun rest follows => reads _ reaches rest follows⟩

/-- Past the values without parts, where a bracket opens. -/
theorem passes_bracket {c : Char} {more : List Char} (bracket : c = '[' ∨ c = '\x7b' ∨ c = '<') :
    Passes (valueAround value dialect) (collections value dialect) (c :: more) := by
  refine passes_collections (stops_cons.mpr ?_)
  rcases bracket with rfl | rfl | rfl <;> decide

/-! ## Lists -/

theorem exists_writeList {items : List Value}
    (rereads : ∀ item ∈ items, Rereads related dialect version item) :
    ∃ texts backs, writeList items version = .ok texts ∧
      List.Forall₂ (Readable dialect) texts backs ∧ List.Forall₂ related backs items := by
  induction items with
  | nil => exact ⟨[], [], rfl, .nil, .nil⟩
  | cons item items ih =>
      rw [List.forall_mem_cons] at rereads
      obtain ⟨text, back, written, relates, readable⟩ := rereads.1
      obtain ⟨texts, backs, others, areReadable, areRelated⟩ := ih rereads.2
      refine ⟨text :: texts, back :: backs, ?_, .cons readable areReadable, .cons relates areRelated⟩
      rw [writeList, written, others]
      rfl

theorem readable_list {texts : List String} {backs : List Value}
    (newDialect : dialect.IsAtLeastThree)
    (areReadable : List.Forall₂ (Readable dialect) texts backs) :
    Readable dialect ("[" ++ String.intercalate "," texts ++ "]") (.list backs) := by
  refine readable_of_reaches ⟨'[', by simp, rfl⟩ fun value reaches rest follows => ?_
  have short : ∀ text ∈ texts, text.toList.length ≤
      ("[" ++ String.intercalate "," texts ++ "]").toList.length - 1 := by
    intro text member
    have within := Text.length_le_intercalate member ","
    simp only [String.toList_append, List.length_append] at within ⊢
    simp at within ⊢
    omega
  have legible := forall₂_of_reaches reaches (areReadable.imp fun text back readable value reaches =>
    reaches.legible text back (Nat.le_refl _) readable) short
  have bracket : Passes (valueAround value dialect) (collections value dialect)
      (("[" ++ String.intercalate "," texts ++ "]").toList ++ rest) := by
    simpa using passes_bracket (.inl rfl)
  exact bracket.takes (Takes.orElse (reads_list reaches.separated newDialect legible))

/-- A list has a text that is read as a list of what its items are read as. -/
theorem exists_rereads_list {items : List Value} (newDialect : dialect.IsAtLeastThree)
    (atLeast : version.IsAtLeastThree)
    (rereads : ∀ item ∈ items, Rereads related dialect version item) :
    ∃ backs, List.Forall₂ related backs items ∧
      Rereads (fun back _ => back = .list backs) dialect version (.list items) := by
  obtain ⟨texts, backs, written, areReadable, areRelated⟩ := exists_writeList rereads
  have fits : (Value.list items).ensureFits version = .ok () :=
    if_pos (fits_of_isAtLeastThree atLeast _)
  refine ⟨backs, areRelated, _, .list backs, ?_, rfl, readable_list newDialect areReadable⟩
  rw [writeValue, fits, written]
  rfl

theorem readsBack_list {items : List Value} (readsBack : ∀ item ∈ items, ReadsBack item) :
    ReadsBack (.list items) := by
  intro version atLeast
  obtain ⟨backs, areNear, text, _, written, rfl, readable⟩ := exists_rereads_list compare_three_three
    atLeast fun item member => readsBack item member version atLeast
  refine ⟨text, .list backs, written, ?_, readable⟩
  change Value.near (.list backs) (.list items) = true
  rw [Value.near, Value.nearList_iff]
  exact areNear

theorem rereads_of_readsAsItself {value : Value} (reads : ReadsAsItself value)
    (atLeast : version.IsAtLeastThree) : Rereads Eq .three version value :=
  (reads version atLeast).imp fun _ here => ⟨value, here.1, rfl, here.2⟩

theorem readsAsItself_list {items : List Value} (reads : ∀ item ∈ items, ReadsAsItself item) :
    ReadsAsItself (.list items) := by
  intro version atLeast
  obtain ⟨backs, same, text, _, written, rfl, readable⟩ := exists_rereads_list compare_three_three
    atLeast fun item member => rereads_of_readsAsItself (reads item member) atLeast
  rw [List.forall₂_eq_eq_eq] at same
  exact ⟨text, written, same ▸ readable⟩

/-! ## Dicts -/

/-- A text is read as a tag by each phrase that goes deep enough. -/
def ReadableTag (dialect : Version) (text : String) (item : String × Value) : Prop :=
  ∀ value, Reaches dialect value text.toList.length → LegibleTag value text item

theorem readableTag {name text : String} {held back : Value} (isName : isTagName name = true)
    (readable : Readable dialect text back) (mark : held = .marker → back = .marker) :
    ReadableTag dialect (tagText name held text) (name, back) := by
  intro value reaches
  refine legibleTag isName (fun other => ?_) fun isMarker => mark ?_
  · refine reaches.legible text back ?_ readable
    rw [tagText, if_neg other]
    simp only [String.toList_append, List.length_append]
    omega
  · revert isMarker
    cases held <;> simp [Value.isMarker]

theorem exists_writeItems {items : List (String × Value)} (keeps : KeepsKind related)
    (names : ∀ item ∈ items, isTagName item.1 = true)
    (rereads : ∀ item ∈ items, Rereads related dialect version item.2) :
    ∃ texts backs, writeItems items version = .ok texts ∧
      List.Forall₂ (ReadableTag dialect) texts backs ∧ TagsRelated related backs items := by
  induction items with
  | nil => exact ⟨[], [], rfl, .nil, .nil⟩
  | cons item items ih =>
      obtain ⟨name, held⟩ := item
      rw [List.forall_mem_cons] at names rereads
      obtain ⟨text, back, written, relates, readable⟩ := rereads.1
      obtain ⟨texts, backs, others, areReadable, areRelated⟩ := ih names.2 rereads.2
      refine ⟨tagText name held text :: texts, (name, back) :: backs, ?_, ?_, ?_⟩
      · rw [writeItems, written, others]
        rfl
      · refine .cons (readableTag names.1 readable fun isMarker => keeps.marker ?_) areReadable
        exact isMarker ▸ relates
      · exact .cons ⟨rfl, relates⟩ areRelated

theorem exists_writeTags {tags : OrderedMap Value} (keeps : KeepsKind related)
    (names : ∀ name ∈ tags.keys, isTagName name = true)
    (rereads : ∀ held ∈ tags.values, Rereads related dialect version held) :
    ∃ texts backs, writeTags tags version = .ok texts ∧
      List.Forall₂ (ReadableTag dialect) texts backs ∧ TagsRelated related backs tags.items := by
  obtain ⟨items⟩ := tags
  exact exists_writeItems keeps (fun item member => names item.1 (List.mem_map_of_mem member))
    fun item member => rereads item.2 (List.mem_map_of_mem member)

theorem readable_dict {texts : List String} {backs : List (String × Value)}
    (newDialect : dialect.IsAtLeastThree)
    (areReadable : List.Forall₂ (ReadableTag dialect) texts backs)
    (distinct : (backs.map (·.1)).Nodup) :
    Readable dialect ("\x7b" ++ String.intercalate " " texts ++ "\x7d") (.dict ⟨backs⟩) := by
  refine readable_of_reaches ⟨'\x7b', by simp, rfl⟩ fun value reaches rest follows => ?_
  have short : ∀ text ∈ texts, text.toList.length ≤
      ("\x7b" ++ String.intercalate " " texts ++ "\x7d").toList.length - 1 := by
    intro text member
    have within := Text.length_le_intercalate member " "
    simp only [String.toList_append, List.length_append] at within ⊢
    simp at within ⊢
    omega
  have legible := forall₂_of_reaches reaches areReadable short
  have head : ("\x7b" ++ String.intercalate " " texts ++ "\x7d").toList ++ rest =
      '\x7b' :: ((String.intercalate " " texts ++ "\x7d").toList ++ rest) := by simp
  have bracket : Passes (valueAround value dialect) (collections value dialect)
      (("\x7b" ++ String.intercalate " " texts ++ "\x7d").toList ++ rest) := by
    rw [head]
    exact passes_bracket (.inr (.inl rfl))
  refine bracket.takes (Fails.orElse_takes ?_ (Takes.orElse (reads_dict newDialect legible distinct)))
  rw [head]
  exact Fails.named (fails_here_bind fun _ => Fails.bind (fails_char (by simp)))

/-- A dict has a text that is read as a dict of what its values are read as. -/
theorem exists_rereads_dict {tags : OrderedMap Value} (keeps : KeepsKind related)
    (newDialect : dialect.IsAtLeastThree) (atLeast : version.IsAtLeastThree)
    (distinct : tags.Distinct) (names : ∀ name ∈ tags.keys, isTagName name = true)
    (rereads : ∀ held ∈ tags.values, Rereads related dialect version held) :
    ∃ backs, TagsRelated related backs tags.items ∧ (⟨backs⟩ : OrderedMap Value).Distinct ∧
      Rereads (fun back _ => back = .dict ⟨backs⟩) dialect version (.dict tags) := by
  obtain ⟨texts, backs, written, areReadable, areRelated⟩ := exists_writeTags keeps names rereads
  have backDistinct : (⟨backs⟩ : OrderedMap Value).Distinct := by
    rwa [OrderedMap.Distinct, OrderedMap.keys_eq_of_forall₂ areRelated]
  have fits : (Value.dict tags).ensureFits version = .ok () :=
    if_pos (fits_of_isAtLeastThree atLeast _)
  refine ⟨backs, areRelated, backDistinct, _, .dict ⟨backs⟩, ?_, rfl,
    readable_dict newDialect areReadable backDistinct⟩
  rw [writeValue, fits, written]
  rfl

theorem readsBack_dict {tags : OrderedMap Value} (distinct : tags.Distinct)
    (names : ∀ name ∈ tags.keys, isTagName name = true)
    (readsBack : ∀ held ∈ tags.values, ReadsBack held) : ReadsBack (.dict tags) := by
  intro version atLeast
  obtain ⟨backs, areNear, backDistinct, text, _, written, rfl, readable⟩ :=
    exists_rereads_dict keepsKind_near compare_three_three atLeast distinct names
      fun held member => readsBack held member version atLeast
  refine ⟨text, .dict ⟨backs⟩, written, ?_, readable⟩
  change Value.near (.dict ⟨backs⟩) (.dict tags) = true
  rw [Value.near]
  exact Value.nearEntity_of_agrees backDistinct distinct (TagsNear.agrees areNear)

theorem readsAsItself_dict {tags : OrderedMap Value} (distinct : tags.Distinct)
    (names : ∀ name ∈ tags.keys, isTagName name = true)
    (reads : ∀ held ∈ tags.values, ReadsAsItself held) : ReadsAsItself (.dict tags) := by
  intro version atLeast
  obtain ⟨backs, same, _, text, _, written, rfl, readable⟩ :=
    exists_rereads_dict keepsKind_eq compare_three_three atLeast distinct names
      fun held member => rereads_of_readsAsItself (reads held member) atLeast
  obtain rfl : backs = tags.items := by
    rw [← List.forall₂_eq_eq_eq]
    exact same.imp fun _ _ equal => Prod.ext equal.1 equal.2
  exact ⟨text, written, readable⟩

/-- A value without moments, places and grids is read as itself. -/
theorem readsAsItself_of_throughout {value : Value}
    (representable : value.Throughout fun part => Representable part ∧ IsVerbatim part) :
    ReadsAsItself value := by
  induction representable with
  | intro value here inside ih =>
      cases value with
      | list items => exact readsAsItself_list ih
      | dict tags => exact readsAsItself_dict here.1.1 here.1.2 ih
      | grid g => exact here.2.elim
      | _ => exact readsAsItself_of_leaf here.1 trivial here.2

end Haystack.Zinc
