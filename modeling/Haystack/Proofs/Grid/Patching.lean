import Haystack.Proofs.Grid.Rows

/-!
Rows that a difference is applied to.

`PatchedRows` says what has become of them by their look-ups: under some names they are as on the
right, of the rows without an id the unmatched ones are gone, and all else is as it was. Each way to
change the rows is a step of this kind, and steps follow one another.
-/
namespace Haystack.GridOf

open OrderedMap Value Pairing

/-- Ids are distinct, and so are the keys in each row. -/
structure SoundRows (rows : List Entity) : Prop where
  ids : DistinctIds rows
  keys : ∀ row ∈ rows, row.Distinct

/-- Rows changed so that those of some names are as on the right and, of the rows without an id, the
unmatched are gone. -/
structure PatchedRows (right : List Entity) (names : List String) (unmatched before after : List Entity) :
    Prop where
  sound : SoundRows after
  named : ∀ name ∈ names, Option.Rel (fun a b => nearEntity a b = true)
    (rowNamed? name after) (rowNamed? name right)
  others : ∀ name, name ∉ names → rowNamed? name after = rowNamed? name before
  anonymous : anonymous after = removeEach nearEntity (anonymous before) unmatched

section PatchedRows

variable {right rows before middle after first last : List Entity} {row other : Entity}
  {name : String} {names others : List String} {position : Nat}

theorem PatchedRows.trans (step : PatchedRows right names first before middle)
    (rest : PatchedRows right others last middle after)
    (apart : ∀ name ∈ names, name ∉ others) :
    PatchedRows right (names ++ others) (first ++ last) before after where
  sound := rest.sound
  named := by
    intro name member
    rcases List.mem_append.mp member with here | later
    · rw [rest.others name (apart name here)]
      exact step.named name here
    · exact rest.named name later
  others := by
    intro name absent
    rw [List.mem_append, not_or] at absent
    rw [rest.others name absent.2, step.others name absent.1]
  anonymous := by
    rw [rest.anonymous, step.anonymous]
    simp [removeEach]

theorem patchedRows_refl (sound : SoundRows rows)
    (named : ∀ name ∈ names, Option.Rel (fun a b => nearEntity a b = true)
      (rowNamed? name rows) (rowNamed? name right)) :
    PatchedRows right names [] rows rows :=
  ⟨sound, named, fun _ _ => rfl, rfl⟩

/-- Rows of which only the one under a name has changed. -/
structure ChangedRow (name : String) (held : Option Entity) (before after : List Entity) : Prop where
  sound : SoundRows after
  here : rowNamed? name after = held
  others : ∀ other, other ≠ name → rowNamed? other after = rowNamed? other before
  anonymous : anonymous after = anonymous before

theorem ChangedRow.patchedRows {held : Option Entity} (changed : ChangedRow name held before after)
    (named : Option.Rel (fun a b => nearEntity a b = true) held (rowNamed? name right)) :
    PatchedRows right [name] [] before after where
  sound := changed.sound
  named := by
    intro asked member
    rwa [List.mem_singleton.mp member, changed.here]
  others := fun asked absent => changed.others asked fun same => absent (by simp [same])
  anonymous := changed.anonymous

theorem changedRow_refl (sound : SoundRows rows) : ChangedRow name (rowNamed? name rows) rows rows :=
  ⟨sound, rfl, fun _ _ => rfl, rfl⟩

/-- A row takes the place of the one with its id. -/
theorem changedRow_set (sound : SoundRows rows) (found : lastWithId? name rows = some position)
    (there : rows[position]? = some row) (distinct : other.Distinct)
    (known : other.name? = some name) :
    ChangedRow name (some other) rows (rows.set position other) := by
  have isNamed : rowNamed? name rows = some row := by simp [rowNamed?, found, there]
  obtain ⟨place, before, later, foundAgain, _, shape, size⟩ := exists_split_of_rowNamed? isNamed
  obtain rfl := Option.some.inj (found.symm.trans foundAgain)
  have rowKnown := (mem_of_rowNamed? isNamed).2
  obtain ⟨id, isId, sameName⟩ := Option.map_eq_some_iff.mp rowKnown
  obtain ⟨otherId, isOtherId, _⟩ := Option.map_eq_some_iff.mp known
  have outcome : rows.set position other = before ++ other :: later := by
    rw [shape, ← size]
    simp
  have ids : DistinctIds (before ++ row :: later) := shape ▸ sound.ids
  have sameIds : DistinctIds (before ++ other :: later) := by
    unfold DistinctIds at ids ⊢
    rw [idNames_append, idNames_cons_known rowKnown] at ids
    rw [idNames_append, idNames_cons_known known]
    exact ids
  rw [outcome, shape]
  refine ⟨⟨sameIds, fun held member => ?_⟩, ?_, fun asked differs => ?_, ?_⟩
  · rcases List.mem_append.mp member with inBefore | member
    · exact sound.keys held (by simp [shape, inBefore])
    · rcases List.mem_cons.mp member with rfl | inLater
      · exact distinct
      · exact sound.keys held (by simp [shape, inLater])
  · rw [rowNamed?_middle sameIds, if_pos known]
  · rw [rowNamed?_middle sameIds, rowNamed?_middle ids, known, rowKnown]
    simp [differs.symm]
  · simp [anonymous_append, anonymous_cons_known isId, anonymous_cons_known isOtherId]

/-- A row with a new id is added. -/
theorem changedRow_append (sound : SoundRows rows) (fresh : rowNamed? name rows = none)
    (distinct : other.Distinct) (known : other.name? = some name) :
    ChangedRow name (some other) rows (rows ++ [other]) := by
  obtain ⟨id, isId, _⟩ := Option.map_eq_some_iff.mp known
  have ids : DistinctIds (rows ++ [other]) := by
    unfold DistinctIds
    rw [idNames_append, idNames_cons_known known, List.nodup_append]
    refine ⟨sound.ids, by simp [idNames], fun asked inRows new isNew same => ?_⟩
    obtain rfl : new = name := by simpa [idNames] using isNew
    exact rowNamed?_eq_none_iff.mp fresh (same ▸ inRows)
  refine ⟨⟨ids, fun held member => ?_⟩, ?_, fun asked differs => ?_, ?_⟩
  · rcases List.mem_append.mp member with old | new
    · exact sound.keys held old
    · rwa [List.mem_singleton.mp new]
  · rw [rowNamed?_middle ids, if_pos known]
  · rw [rowNamed?_middle ids, known, List.append_nil]
    simp [differs.symm]
  · simp [anonymous, isId]

/-- The row of an id is taken out. -/
theorem changedRow_remove (sound : SoundRows rows) (found : lastWithId? name rows = some position) :
    ChangedRow name none rows (rows.eraseIdx position) := by
  obtain ⟨row, there, rowKnown⟩ := getElem?_of_lastWithId? found
  have isNamed : rowNamed? name rows = some row := by simp [rowNamed?, found, there]
  obtain ⟨place, before, later, foundAgain, _, shape, size⟩ := exists_split_of_rowNamed? isNamed
  obtain rfl := Option.some.inj (found.symm.trans foundAgain)
  obtain ⟨id, isId, _⟩ := Option.map_eq_some_iff.mp rowKnown
  have outcome : rows.eraseIdx position = before ++ later := by
    rw [shape, List.eraseIdx_append_of_length_le (Nat.le_of_eq size), size, Nat.sub_self]
    rfl
  have ids : DistinctIds (before ++ row :: later) := shape ▸ sound.ids
  have fewer : (before ++ later).Sublist (before ++ row :: later) :=
    (List.sublist_cons_self row later).append_left before
  have gone : name ∉ idNames (before ++ later) := by
    unfold DistinctIds at ids
    rw [idNames_append, idNames_cons_known rowKnown] at ids
    rw [idNames_append]
    exact (List.nodup_cons.mp (List.perm_middle.nodup_iff.mp ids)).1
  rw [outcome, shape]
  refine ⟨⟨(fewer.filterMap _).nodup ids, fun held member => ?_⟩, rowNamed?_eq_none_iff.mpr gone,
    fun asked differs => ?_, ?_⟩
  · exact sound.keys held (shape ▸ fewer.subset member)
  · rw [rowNamed?_middle ids, rowKnown]
    simp [differs.symm]
  · simp [anonymous_append, anonymous_cons_known isId]

theorem filter_eraseP {α : Type} {accepts keeps : α → Bool} {items : List α}
    (within : ∀ item ∈ items, accepts item = true → keeps item = true) :
    (items.eraseP accepts).filter keeps = (items.filter keeps).eraseP accepts := by
  induction items with
  | nil => rfl
  | cons item rest ih =>
      rw [List.forall_mem_cons] at within
      by_cases here : accepts item = true
      · rw [List.eraseP_cons_of_pos here, List.filter_cons_of_pos (within.1 here),
          List.eraseP_cons_of_pos here]
      · rw [List.eraseP_cons_of_neg here, List.filter_cons, List.filter_cons, ih within.2]
        split
        · rw [List.eraseP_cons_of_neg here]
        · rfl

/-- The first row that is near to one without an id is taken out. -/
theorem patchedRows_removeNear (sound : SoundRows rows) (distinct : row.Distinct)
    (unknown : row.id? = none) :
    PatchedRows right [] [row] rows (rows.eraseP (nearEntity · row)) := by
  have anonymousOnly : ∀ held ∈ rows, nearEntity held row = true → held.id? = none :=
    fun held member near => id?_eq_none_of_near (sound.keys held member) distinct unknown near
  have fewer : (rows.eraseP (nearEntity · row)).Sublist rows := List.eraseP_sublist
  refine ⟨⟨(fewer.filterMap _).nodup sound.ids, fun held member =>
    sound.keys held (fewer.subset member)⟩, fun _ absent => (nomatch absent), fun name _ => ?_, ?_⟩
  · by_cases some : ∃ held ∈ rows, nearEntity held row = true
    · obtain ⟨held, member, near⟩ := some
      obtain ⟨taken, before, later, _, takenNear, shape, erased⟩ :=
        List.exists_of_eraseP (p := (nearEntity · row)) member near
      have takenUnknown := anonymousOnly taken (by simp [shape]) takenNear
      have ids : DistinctIds (before ++ taken :: later) := shape ▸ sound.ids
      rw [erased, shape, rowNamed?_middle ids, Entity.id?_eq_none_iff.mp takenUnknown]
      simp
    · rw [List.eraseP_of_forall_not fun held member near => some ⟨held, member, near⟩]
  · exact filter_eraseP fun held member near => by simp [anonymousOnly held member near]

end PatchedRows

end Haystack.GridOf
