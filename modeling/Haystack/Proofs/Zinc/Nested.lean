import Haystack.Proofs.Zinc.Continuation

/-!
Lists and dicts in texts that go on.

Inside a collection a value stands before blanks and a mark, or in a dict before the name of the next tag.
Neither looks like a display name or like the payload of an encoding, so the value stays as it is; and the
bracket at the end leaves nothing open.
-/
namespace Haystack.Zinc

open Phrase

variable {α : Type} {more text rest : List Char} {ending next : List Char → Prop} {goes : α → α → Prop}
  {item other : Phrase α} {value longer : Phrase (Reading Value)} {dialect : Version}

/-! ## What is between the parts of a collection -/

/-- What comes after spaces and tabs, of which there may be none. -/
def Spaced (next : List Char → Prop) (rest : List Char) : Prop := next (rest.dropWhile isSpace)

/-- The marks that end a part of a collection. -/
def isEnder (c : Char) : Bool := c == ',' || c == ']' || c == '\x7d' || c == '>' || c == '\r' || c == '\n'

/-- A text that starts with a character of a class. -/
def Front (accepts : Char → Bool) (rest : List Char) : Prop := ∃ c tail, rest = c :: tail ∧ accepts c = true

/-- What a part of a collection stands before: a mark, or the name of a tag that is not the name of an
encoding. -/
def Parted (rest : List Char) : Prop := Front isEnder rest ∨ Front isNameStart rest ∧ Unquoted rest

theorem Front.ne_nil {accepts : Char → Bool} (front : Front accepts rest) : rest ≠ [] := by
  obtain ⟨c, tail, rfl, _⟩ := front
  exact List.cons_ne_nil c tail

theorem Front.append {accepts : Char → Bool} (front : Front accepts rest) : Front accepts (rest ++ more) := by
  obtain ⟨c, tail, rfl, accepted⟩ := front
  exact ⟨c, tail ++ more, rfl, accepted⟩

theorem Front.stops {accepts rejects : Char → Bool} (front : Front accepts rest)
    (apart : ∀ c, accepts c = true → rejects c = false) : Stops rejects rest := by
  obtain ⟨c, tail, rfl, accepted⟩ := front
  exact stops_cons.mpr (apart c accepted)

theorem Front.head?_ne {accepts : Char → Bool} (front : Front accepts rest) {c : Char} (other : accepts c = false) :
    (rest ++ more).head? ≠ some c := by
  obtain ⟨d, tail, rfl, accepted⟩ := front
  intro same
  rw [Option.some.inj same, other] at accepted
  contradiction

theorem isEnder_cases {c : Char} (ender : isEnder c = true) :
    c = ',' ∨ c = ']' ∨ c = '\x7d' ∨ c = '>' ∨ c = '\r' ∨ c = '\n' := by
  simpa [isEnder, or_assoc] using ender

theorem isSpace_cases {c : Char} (space : isSpace c = true) : c = ' ' ∨ c = '\t' := by
  simpa [isSpace] using space

theorem Spaced.append {blanks : List Char} (all : ∀ c ∈ blanks, isSpace c = true) (spaced : Spaced next rest) :
    Spaced next (blanks ++ rest) := by
  rwa [Spaced, List.dropWhile_append_of_pos all]

theorem spaced_of_stops (stops : Stops isSpace rest) (here : next rest) : Spaced next rest := by
  rwa [Spaced, dropWhile_of_stops stops]

theorem Spaced.mono {weaker : List Char → Prop} (spaced : Spaced next rest)
    (implies : ∀ tail, next tail → weaker tail) : Spaced weaker rest := implies _ spaced

/-- A text that a mark or a name is in after spaces starts with a space, or with that. -/
theorem Spaced.front {accepts : Char → Bool} (spaced : Spaced (Front accepts) rest) :
    Front (fun c => isSpace c || accepts c) rest := by
  cases rest with
  | nil => exact absurd rfl (Front.ne_nil spaced)
  | cons c tail =>
      refine ⟨c, tail, rfl, ?_⟩
      by_cases space : isSpace c = true
      · simp [space]
      · rw [Spaced, List.dropWhile_cons_of_neg space] at spaced
        obtain ⟨d, others, same, accepted⟩ := spaced
        simp [(List.cons_eq_cons.mp same).1, accepted]

theorem Spaced.stops_of_ended {accepts : Char → Bool} (ended : Spaced (Front isEnder) rest)
    (rejects : [' ', '\t', ',', ']', '\x7d', '>', '\r', '\n'].all (fun c => !accepts c) = true) :
    Stops accepts (rest ++ more) := by
  simp only [List.all_cons, List.all_nil, Bool.and_true, Bool.and_eq_true, Bool.not_eq_true'] at rejects
  refine ended.front.append.stops fun c either => ?_
  rw [Bool.or_eq_true] at either
  rcases either with space | ender
  · rcases isSpace_cases space with rfl | rfl <;> tauto
  · rcases isEnder_cases ender with rfl | rfl | rfl | rfl | rfl | rfl <;> tauto

theorem unquoted_cons {c : Char} (noWord : isIdChar c = false) (other : c ≠ '(') : Unquoted (c :: rest) := by
  rw [Unquoted, List.dropWhile_cons_of_neg (by simp [noWord])]
  exact fun quoted => other (List.cons_prefix_cons.mp quoted).1.symm

theorem Front.unquoted (front : Front isEnder rest) : Unquoted rest := by
  obtain ⟨c, tail, rfl, ender⟩ := front
  rcases isEnder_cases ender with rfl | rfl | rfl | rfl | rfl | rfl <;> exact unquoted_cons (by decide) (by decide)

theorem Parted.ne_nil (parted : Parted rest) : rest ≠ [] := parted.elim Front.ne_nil (·.1.ne_nil)

theorem Parted.unquoted (parted : Spaced Parted rest) : Unquoted rest := by
  rw [← List.takeWhile_append_dropWhile (p := isSpace) (l := rest)]
  refine unquoted_append (fun member => ?_) (parted.elim Front.unquoted (·.2))
  exact absurd (List.mem_takeWhile_imp member) (by decide)

/-- What a part of a collection stands before is no part of it. -/
theorem Parted.apart (parted : Spaced Parted rest) : Apart rest := by
  refine ⟨Parted.unquoted parted, fun display => ?_⟩
  obtain ⟨tail, shape⟩ := List.head?_eq_some_iff.mp display
  have behind : rest.dropWhile isSpace = '"' :: tail := by
    rw [← List.takeWhile_append_dropWhile (p := (· == ' ')) (l := rest), shape,
      List.dropWhile_append_of_pos, List.dropWhile_cons_of_neg (by decide)]
    intro c member
    simp [isSpace, List.mem_takeWhile_imp member]
  rw [Spaced, behind] at parted
  rcases parted with ⟨c, _, same, ender⟩ | ⟨⟨c, _, same, starts⟩, _⟩ <;>
  · obtain ⟨rfl, _⟩ := List.cons_eq_cons.mp same
    contradiction

theorem spaced_parted_of_ended (ended : Spaced (Front isEnder) rest) : Spaced Parted rest := .inl ended

theorem spaced_of_ended (ended : Front isEnder rest) : Spaced (Front isEnder) rest :=
  spaced_of_stops (ended.stops fun c ender => by
    rcases isEnder_cases ender with rfl | rfl | rfl | rfl | rfl | rfl <;> rfl) ended

/-- Spaces lead up to what comes after them. -/
theorem leads_spaces : Leads (Spaced next) spaces (Spaced next) := by
  have run : Leads (Spaced next) (run isSpace) (Spaced next) :=
    spells_run.leads fun _ _ _ ⟨_, all, _⟩ spaced => spaced.append all
  exact run.bind fun _ => leads_pure fun _ => id

theorem fails_after_spaces {p : Phrase α} (some : rest.dropWhile isSpace ≠ [])
    (fails : Fails p (rest.dropWhile isSpace ++ more)) : Fails (do spaces; p) (rest ++ more) := by
  obtain ⟨c, tail, shape⟩ := List.exists_cons_of_ne_nil some
  have noSpace : isSpace c = false := by
    have stops : Stops isSpace (rest.dropWhile isSpace) := stops_dropWhile
    rw [shape] at stops
    exact stops_cons.mp stops
  have reads : Reads spaces (rest.takeWhile isSpace) (rest.dropWhile isSpace ++ more) () := by
    refine Reads.last (reads_run (fun _ => List.mem_takeWhile_imp) ?_) reads_pure
    rw [shape]
    exact stops_cons.mpr noSpace
  rw [← List.takeWhile_append_dropWhile (p := isSpace) (l := rest), List.append_assoc]
  exact Reads.bind_fails reads fails

/-! ## Values inside a value -/

/-- What is known of the values inside a value: they are kept, and neither text has one where no value
starts. -/
structure Kept (more : List Char) (value longer : Phrase (Reading Value)) : Prop where
  keeps : Keeps (onward more) 0 Apart Carries value longer
  absent : ∀ text, Stops isValueStart text → Fails value text
  further : ∀ text, Stops isValueStart text → Fails longer text

theorem Kept.keeps_spaced (kept : Kept more value longer) :
    Keeps (onward more) 0 (Spaced (Front isEnder)) Carries value longer :=
  kept.keeps.mono fun _ ended => Parted.apart (spaced_parted_of_ended ended)

/-! ## Lists -/

/-- A further part after a comma, with spaces around it. -/
def furtherPart (item : Phrase α) : Phrase α := do
  let _ ← char ','
  spaces
  let part ← item
  spaces
  pure part

theorem leads_furtherPart : Leads (Spaced (Front isEnder)) (furtherPart item) ending :=
  (leads_char fun tail _ => spaced_of_ended ⟨',', tail, rfl, rfl⟩).bind_first

theorem keeps_part (keeps : Keeps (onward more) 0 (Spaced (Front isEnder)) goes item other) :
    Keeps (onward more) 0 (Spaced (Front isEnder)) goes (do let part ← item; spaces; pure part)
      (do let part ← other; spaces; pure part) := by
  have some (rest : List Char) (ended : Spaced (Front isEnder) rest) : rest ≠ [] := ended.front.ne_nil
  exact keeps.bind (fun _ _ related => (keeps_spaces some).bind (fun _ _ _ => keeps_pure related)
    fun _ => leads_pure fun _ => id) fun _ => leads_spaces.bind fun _ => leads_pure fun _ => id

theorem leads_spaces_ne_nil : Leads (· ≠ []) spaces (· ≠ []) := by
  have run : Leads (· ≠ []) (run isSpace) (· ≠ []) := spells_run.leads fun _ _ _ _ some none =>
    some (List.append_eq_nil_iff.mp none).2
  exact run.bind fun _ => leads_pure fun _ => id

theorem keeps_furtherPart (keeps : Keeps (onward more) 0 (Spaced (Front isEnder)) goes item other)
    (present : Leads (· ≠ []) item (· ≠ [])) :
    Keeps (onward more) 1 (Spaced (Front isEnder)) goes (furtherPart item) (furtherPart other) :=
  keeps_char.bind_eq fun _ => Keeps.after_spaces (keeps_part keeps) (present.bind fun _ =>
    leads_spaces_ne_nil.bind fun _ => leads_pure fun _ ended => ended.front.ne_nil)

/-- A comma behind the last value, with spaces after it. -/
def lastComma : Phrase Unit := do
  let _ ← char ','
  spaces

/-- The values of a list. -/
def listItems (value : Phrase (Reading Value)) : Phrase (List (Reading Value)) := do
  let first ← value
  spaces
  let others ← many (furtherPart value)
  let _ ← Phrase.optional lastComma
  pure (first :: others)

/-- The end of a list, perhaps after a comma. -/
def EndsList (rest : List Char) : Prop :=
  Front (· == ']') rest ∨ ∃ tail, rest = ',' :: tail ∧ Spaced (Front (· == ']')) tail

theorem isEnder_of_bracket (c : Char) (bracket : (c == ']') = true) : isEnder c = true := by
  rw [beq_iff_eq.mp bracket]
  rfl

theorem Front.mono {accepts wider : Char → Bool} (front : Front accepts rest)
    (implies : ∀ c, accepts c = true → wider c = true) : Front wider rest := by
  obtain ⟨c, tail, rfl, accepted⟩ := front
  exact ⟨c, tail, rfl, implies c accepted⟩

theorem EndsList.ended (ends : EndsList rest) : Spaced (Front isEnder) rest := by
  rcases ends with bracket | ⟨tail, rfl, _⟩
  · exact spaced_of_ended (bracket.mono isEnder_of_bracket)
  · exact spaced_of_ended ⟨',', tail, rfl, rfl⟩

theorem leads_lastComma : Leads EndsList (Phrase.optional lastComma) (Front (· == ']')) := by
  refine Leads.optional ?_ fun _ => .inl
  have comma : Leads EndsList (char ',') (Spaced (Front (· == ']'))) :=
    leads_char fun tail spaced => .inr ⟨tail, rfl, spaced⟩
  exact comma.bind fun _ => leads_spaces.narrow fun _ bracket => spaced_of_stops (bracket.stops fun c same => by
    rw [beq_iff_eq.mp same]
    rfl) bracket

theorem keeps_lastComma : Keeps (onward more) 0 (Front (· == ']')) (Option.Rel Eq) (Phrase.optional lastComma)
    (Phrase.optional lastComma) := by
  have comma : Keeps (onward more) 1 (Front (· == ']')) Eq lastComma lastComma :=
    keeps_char.bind_eq fun _ => keeps_spaces fun _ => Front.ne_nil
  exact comma.optional (fun _ => id) fun cursor _ _ bracket => Fails.bind (fails_char (bracket.head?_ne rfl))

/-- A list goes on with a comma only where a value is behind it. -/
theorem EndsList.fails (ends : EndsList rest) (kept : Kept more value longer) :
    Fails (furtherPart longer) (rest ++ more) := by
  have noValue {tail : List Char} (bracket : Front (· == ']') tail) : Stops isValueStart (tail ++ more) :=
    bracket.append.stops fun c same => by rw [beq_iff_eq.mp same]; rfl
  rcases ends with bracket | ⟨tail, rfl, spaced⟩
  · exact Fails.bind (fails_char (bracket.head?_ne rfl))
  · change Fails _ ([','] ++ (tail ++ more))
    exact Reads.bind_fails reads_char (fails_after_spaces spaced.ne_nil (Fails.bind (kept.further _ (noValue spaced))))

theorem keeps_listItems (kept : Kept more value longer) :
    Keeps (onward more) 0 (Front (· == ']')) (List.Forall₂ Carries) (listItems value) (listItems longer) := by
  have each := keeps_furtherPart kept.keeps_spaced (leads_ne_nil (kept.absent [] stops_nil))
  have others : Keeps (onward more) 0 EndsList (List.Forall₂ Carries) (many (furtherPart value))
      (many (furtherPart longer)) :=
    each.many leads_furtherPart (fun _ => EndsList.ended) fun _ _ ends => ends.fails kept
  have leads (first : Reading Value) : Leads (Spaced (Front isEnder))
      (do
        let others ← many (furtherPart value)
        let _ ← Phrase.optional lastComma
        pure (first :: others))
      (Front (· == ']')) :=
    (Leads.many leads_furtherPart fun _ => EndsList.ended).bind fun _ => leads_lastComma.bind fun _ =>
      leads_pure fun _ => id
  exact kept.keeps_spaced.bind (fun _ _ carries => Keeps.after_spaces
      (others.bind (fun _ _ related => keeps_lastComma.bind (fun _ _ _ => keeps_pure (.cons carries related))
        fun _ => leads_pure fun _ => id) fun _ => leads_lastComma.bind fun _ => leads_pure fun _ => id)
      ((leads _).mono fun _ ended => ended.front.ne_nil))
    fun _ => leads_spaces.bind fun _ => leads _

theorem carries_mapM {here there : List (Reading Value)} (related : List.Forall₂ Carries here there) :
    Carries (here.mapM id) (there.mapM id) := by
  intro values made
  rw [Outcome.mapM_ok_iff] at made ⊢
  induction related generalizing values with
  | nil => exact made
  | cons carries _ ih =>
      cases made with
      | cons first others => exact .cons (carries _ first) (ih _ others)

theorem keeps_list (kept : Kept more value longer) :
    Keeps (onward more) 0 ending Carries (list dialect value) (list dialect longer) := by
  have none : Fails (listItems value) [] := Fails.bind (kept.absent [] stops_nil)
  have items : Keeps (onward more) 0 (Front (· == ']')) (Option.Rel (List.Forall₂ Carries))
      (Phrase.optional (listItems value)) (Phrase.optional (listItems longer)) :=
    (keeps_listItems kept).optional (fun _ => id) fun _ _ _ bracket => Fails.bind (kept.further _
      (bracket.append.stops fun c same => by rw [beq_iff_eq.mp same]; rfl))
  refine Keeps.weaken (Keeps.named (keeps_here_bind fun _ _ => keeps_char.bind_eq fun _ =>
    Keeps.after_spaces (items.bind (fun here there related => Keeps.weaken (keeps_char.bind_eq fun _ =>
        keeps_pure ?_)) fun _ => (leads_char fun tail _ => ⟨']', tail, rfl, rfl⟩).bind_first)
      ((Leads.optional (leads_ne_nil none) fun _ => id).bind fun _ => leads_ne_nil (fails_of_found fun _ => rfl))))
  refine carries_requireThree.bind fun _ => Carries.bind (carries_mapM ?_) fun _ => carries_refl
  cases related with
  | none => exact .nil
  | some related => exact related

/-! ## Dicts -/

/-- The tags of two texts go together where their names are the same and their values go together. -/
def TagCarries (here there : String × Reading Value) : Prop := here.1 = there.1 ∧ Carries here.2 there.2

theorem carries_readTags {here there : List (String × Reading Value)} (related : List.Forall₂ TagCarries here there) :
    Carries (readTags here) (readTags there) := by
  induction related with
  | nil => exact carries_refl
  | cons carries _ ih =>
      obtain ⟨same, carries⟩ := carries
      rw [readTags, readTags, same]
      exact carries.bind fun _ => ih.bind fun _ => carries_refl

/-- The value of a tag behind its name. -/
def tagValue (value : Phrase (Reading Value)) : Phrase (Reading Value) := do
  spaces
  let _ ← char ':'
  spaces
  value

theorem leads_tagValue : Leads Unquoted (tagValue value) ending := by
  have colon : Leads (Spaced (Front (· == ':'))) (tagValue value) ending :=
    leads_spaces.bind fun _ => (leads_char fun tail _ => spaced_of_stops (stops_cons.mpr (by decide))
      ⟨':', tail, rfl, rfl⟩).bind_first
  refine colon.mono fun text spaced => ?_
  obtain ⟨c, tail, rfl, accepted⟩ := spaced.front
  simp only [isSpace, Bool.or_eq_true, beq_iff_eq] at accepted
  rcases accepted with (rfl | rfl) | rfl <;> exact unquoted_cons (by decide) (by decide)

/-- A tag stands where the name of one does, which is not the name of an encoding. -/
theorem leads_tag : Leads (fun text => Front isNameStart text ∧ Unquoted text) (tag value) (Spaced Parted) := by
  have name : Spells tagName fun taken _ _ => Front isNameStart taken ∧ ∀ c ∈ taken, isIdChar c = true := by
    refine Spells.token (spells_satisfying.bind fun _ first => spells_run.bind fun others _ => spells_pure ?_)
    rintro _ ⟨_, all, _⟩ ⟨rfl, starts⟩
    rw [List.append_nil]
    exact ⟨⟨first, others, rfl, starts⟩, List.forall_mem_cons.mpr ⟨isIdChar_of_isNameStart starts, all⟩⟩
  have leads : Leads (fun text => Front isNameStart text ∧ Unquoted text) tagName Unquoted :=
    name.leads fun taken _ rest ⟨front, all⟩ unquoted =>
      ⟨front.append, unquoted_append (fun member => absurd (all '(' member) (by decide)) unquoted⟩
  refine Leads.named (leads.bind fun _ => Leads.bind (Leads.optional leads_tagValue fun _ => Parted.unquoted)
    fun _ => leads_pure fun _ => id)

theorem keeps_tag (breaks : Breaks more) (kept : Kept more value longer) :
    Keeps (onward more) 1 (Spaced Parted) TagCarries (tag value) (tag longer) := by
  have given : Keeps (onward more) 0 (Spaced Parted) Carries (tagValue value) (tagValue longer) :=
    Keeps.after_spaces (Keeps.weaken (keeps_char.bind_eq fun _ => Keeps.after_spaces
        (kept.keeps.mono fun _ => Parted.apart) (leads_ne_nil (kept.absent [] stops_nil))))
      (leads_ne_nil (fails_of_found fun _ => rfl))
  have some : Keeps (onward more) 0 (Spaced Parted) (Option.Rel Carries) (Phrase.optional (tagValue value))
      (Phrase.optional (tagValue longer)) := by
    refine given.optional (fun _ => id) fun cursor _ _ parted => ?_
    refine fails_after_spaces (Parted.ne_nil parted) (Fails.bind (fails_char ?_))
    rcases parted with ender | ⟨starts, _⟩
    · exact ender.head?_ne rfl
    · exact starts.head?_ne (by decide)
  refine Keeps.named (breaks.tagName.keeps.bind_eq fun name => some.bind (fun here there related =>
    keeps_pure ⟨rfl, ?_⟩) fun _ => leads_pure fun _ => id)
  cases related with
  | none => exact carries_refl
  | some carries => exact carries

theorem fails_tag (stops : Stops isNameStart text) : Fails (tag value) text :=
  Fails.named (Fails.bind (fails_tagName stops))

/-- A further tag, after spaces and perhaps a comma. -/
def furtherTag (value : Phrase (Reading Value)) : Phrase (String × Reading Value) := do
  spaces
  let _ ← Phrase.optional (char ',')
  spaces
  tag value

/-- The tags of a dict. -/
def dictTags (value : Phrase (Reading Value)) : Phrase (List (String × Reading Value)) := do
  let first ← tag value
  let others ← many (furtherTag value)
  pure (first :: others)

theorem leads_tag_spaced : Leads (Spaced Parted) (tag value) (Spaced Parted) := leads_tag.mono fun _ named =>
  spaced_of_stops (named.1.stops fun c starts => by
    by_contra space
    rcases isSpace_cases (Bool.not_eq_false _ ▸ space) with rfl | rfl <;> exact absurd starts (by decide)) (.inr named)

theorem leads_furtherTag : Leads (Spaced Parted) (furtherTag value) (Spaced Parted) := by
  have comma : Leads (Spaced Parted) (Phrase.optional (char ',')) (Spaced Parted) :=
    Leads.optional (leads_char fun tail _ => spaced_parted_of_ended (spaced_of_ended ⟨',', tail, rfl, rfl⟩)) fun _ => id
  exact leads_spaces.bind fun _ => comma.bind fun _ => leads_spaces.bind fun _ => leads_tag_spaced

theorem keeps_furtherTag (breaks : Breaks more) (kept : Kept more value longer) :
    Keeps (onward more) 1 (Spaced Parted) TagCarries (furtherTag value) (furtherTag longer) := by
  have tag : Leads (· ≠ []) (tag value) (Spaced Parted) := leads_ne_nil (fails_tag stops_nil)
  have spaced : Leads (· ≠ []) (do spaces; Zinc.tag value) (Spaced Parted) := leads_spaces_ne_nil.bind fun _ => tag
  have comma : Leads (· ≠ []) (do let _ ← Phrase.optional (char ','); spaces; Zinc.tag value) (Spaced Parted) :=
    Leads.bind (Leads.optional (leads_ne_nil (fails_char (by simp))) fun _ => id) fun _ => spaced
  exact Keeps.after_spaces ((Keeps.after_spaces (keeps_tag breaks kept) tag).after_optional_char spaced) comma

/-- The end of a dict, perhaps after a comma. -/
def EndsDict : List Char → Prop := Spaced fun rest =>
  Front (· == '\x7d') rest ∨ ∃ tail, rest = ',' :: tail ∧ Spaced (Front (· == '\x7d')) tail

theorem EndsDict.ended (ends : EndsDict rest) : Spaced (Front isEnder) rest := by
  refine Spaced.mono ends fun tail here => ?_
  rcases here with brace | ⟨others, rfl, _⟩
  · exact brace.mono fun c same => by rw [beq_iff_eq.mp same]; rfl
  · exact ⟨',', others, rfl, rfl⟩

/-- A dict goes on only where a name is behind it. -/
theorem EndsDict.fails (ends : EndsDict rest) : Fails (furtherTag longer) (rest ++ more) := by
  have noName {tail : List Char} (brace : Front (· == '\x7d') tail) : Fails (tag longer) (tail ++ more) :=
    fails_tag (brace.append.stops fun c same => by rw [beq_iff_eq.mp same]; rfl)
  refine fails_after_spaces (Front.ne_nil ends.ended) ?_
  rcases ends with brace | ⟨tail, shape, spaced⟩
  · have noSpace : Stops isSpace (rest.dropWhile isSpace ++ more) :=
      brace.append.stops fun c same => by rw [beq_iff_eq.mp same]; rfl
    exact Reads.skip_fails (Fails.optional (fails_char (brace.head?_ne rfl)))
      (Reads.skip_fails (reads_spaces_nil noSpace) (noName brace))
  · rw [shape]
    change Fails _ ([','] ++ (tail ++ more))
    exact Reads.bind_fails (Reads.optional reads_char) (fails_after_spaces (Front.ne_nil spaced) (noName spaced))

theorem keeps_dictTags (breaks : Breaks more) (kept : Kept more value longer) :
    Keeps (onward more) 0 EndsDict (List.Forall₂ TagCarries) (dictTags value) (dictTags longer) := by
  have parted (rest : List Char) (ends : EndsDict rest) : Spaced Parted rest := spaced_parted_of_ended ends.ended
  have others : Keeps (onward more) 0 EndsDict (List.Forall₂ TagCarries) (many (furtherTag value))
      (many (furtherTag longer)) :=
    (keeps_furtherTag breaks kept).many leads_furtherTag parted fun _ _ => EndsDict.fails
  exact Keeps.weaken ((keeps_tag breaks kept).bind (fun _ _ carries => others.bind
      (fun _ _ related => keeps_pure (.cons carries related)) fun _ => leads_pure fun _ => id)
    fun _ => (leads_furtherTag.many parted).bind fun _ => leads_pure fun _ => id)

theorem leads_endsDict {p : Phrase α} : Leads EndsDict
    (do
      spaces
      let _ ← Phrase.optional (char ',')
      spaces
      let _ ← char '\x7d'
      p)
    ending := by
  have brace : Leads (Spaced (Front (· == '\x7d'))) (do let _ ← char '\x7d'; p) ending :=
    (leads_char fun tail _ => spaced_of_stops (stops_cons.mpr (by decide)) ⟨'\x7d', tail, rfl, rfl⟩).bind_first
  have comma : Leads EndsDict (Phrase.optional (char ',')) (Spaced (Front (· == '\x7d'))) :=
    Leads.optional (leads_char fun tail spaced => spaced_of_stops (stops_cons.mpr (by decide))
      (.inr ⟨tail, rfl, spaced⟩)) fun _ spaced => Spaced.mono spaced fun _ => .inl
  exact leads_spaces.bind fun _ => comma.bind fun _ => leads_spaces.bind fun _ => brace

theorem keeps_dict (breaks : Breaks more) (kept : Kept more value longer) :
    Keeps (onward more) 0 ending Carries (dict dialect value) (dict dialect longer) := by
  have none : Fails (dictTags value) [] := Fails.bind (fails_tag stops_nil)
  have tags : Keeps (onward more) 0 EndsDict (Option.Rel (List.Forall₂ TagCarries))
      (Phrase.optional (dictTags value)) (Phrase.optional (dictTags longer)) :=
    (keeps_dictTags breaks kept).optional (fun _ => id) fun _ _ _ ends =>
      Fails.bind (fails_tag (ends.ended.stops_of_ended (by decide)))
  refine Keeps.weaken (Keeps.named (keeps_here_bind fun _ _ => keeps_char.bind_eq fun _ =>
    Keeps.after_spaces (tags.bind (fun here there related => Keeps.after_spaces (Keeps.after_optional_char
        (Keeps.after_spaces (Keeps.weaken (keeps_char.bind_eq fun _ => keeps_pure ?_))
          (leads_ne_nil (fails_of_found fun _ => rfl)))
        (leads_ne_nil (fails_of_found fun _ => rfl)))
        (leads_ne_nil (fails_of_found fun _ => rfl))) fun _ => leads_endsDict)
      ((Leads.optional (leads_ne_nil none) fun _ => id).bind fun _ => leads_ne_nil (fails_of_found fun _ => rfl))))
  refine carries_requireThree.bind fun _ => Carries.bind (carries_readTags ?_) fun _ => carries_refl
  cases related with
  | none => exact .nil
  | some related => exact related

end Haystack.Zinc
