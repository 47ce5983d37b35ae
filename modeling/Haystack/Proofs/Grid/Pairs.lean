import Haystack.Proofs.Grid.Changes

/-!
Which rows of the right a difference has paired.

`unpaired` are the rows that are left over. Pairing one more position takes its name from them, or
one row from the count of those without an id.
-/
namespace Haystack.GridOf

open OrderedMap

variable {rows : List Entity} {row other : Entity} {paired : Paired} {position : Nat} {name : String}

theorem mem_unpaired :
    row ∈ unpaired rows paired ↔ ∃ position, rows[position]? = some row ∧ position ∉ paired := by
  simp only [unpaired, List.mem_map, List.mem_filter, Prod.exists, List.mem_zipIdx_iff_getElem?]
  constructor
  · rintro ⟨row, position, ⟨there, free⟩, rfl⟩
    exact ⟨position, there, by simpa using free⟩
  · rintro ⟨position, there, free⟩
    exact ⟨row, position, ⟨there, by simpa using free⟩, rfl⟩

theorem mem_of_mem_unpaired (member : row ∈ unpaired rows paired) : row ∈ rows := by
  obtain ⟨position, there, _⟩ := mem_unpaired.mp member
  exact List.mem_of_getElem? there

@[simp] theorem unpaired_nil : unpaired rows [] = rows := by
  have all : rows.zipIdx.filter (fun row => !([] : Paired).contains row.2) = rows.zipIdx :=
    List.filter_eq_self.mpr fun _ _ => rfl
  rw [unpaired, all, List.zipIdx_map_fst]

theorem sublist_unpaired : (unpaired rows paired).Sublist rows := by
  have smaller := (List.filter_sublist (l := rows.zipIdx)
    (p := fun row => !paired.contains row.2)).map Prod.fst
  rwa [List.zipIdx_map_fst] at smaller

theorem distinctIds_unpaired (distinct : DistinctIds rows) : DistinctIds (unpaired rows paired) :=
  (sublist_unpaired.filterMap _).nodup distinct

/-- A name is left over while its position is not paired. -/
theorem mem_idNames_unpaired (distinct : DistinctIds rows) :
    name ∈ idNames (unpaired rows paired) ↔
      ∃ position, lastWithId? name rows = some position ∧ position ∉ paired := by
  rw [mem_idNames]
  constructor
  · rintro ⟨row, member, known⟩
    obtain ⟨position, there, free⟩ := mem_unpaired.mp member
    exact ⟨position, lastWithId?_eq_some distinct there known, free⟩
  · rintro ⟨position, found, free⟩
    obtain ⟨row, there, known⟩ := getElem?_of_lastWithId? found
    exact ⟨row, mem_unpaired.mpr ⟨position, there, free⟩, known⟩

/-- Pairing a row with an id takes its name away. -/
theorem mem_idNames_unpaired_known (distinct : DistinctIds rows) {held : String}
    (found : lastWithId? held rows = some position) :
    name ∈ idNames (unpaired rows (position :: paired)) ↔
      name ∈ idNames (unpaired rows paired) ∧ name ≠ held := by
  rw [mem_idNames_unpaired distinct, mem_idNames_unpaired distinct]
  constructor
  · rintro ⟨place, there, free⟩
    rw [List.mem_cons, not_or] at free
    refine ⟨⟨place, there, free.2⟩, ?_⟩
    rintro rfl
    exact free.1 (Option.some.inj (there.symm.trans found))
  · rintro ⟨⟨place, there, free⟩, differs⟩
    refine ⟨place, there, ?_⟩
    rw [List.mem_cons, not_or]
    refine ⟨?_, free⟩
    rintro rfl
    obtain ⟨row, here, known⟩ := getElem?_of_lastWithId? found
    obtain ⟨same, alsoHere, alsoKnown⟩ := getElem?_of_lastWithId? there
    obtain rfl := Option.some.inj (here.symm.trans alsoHere)
    exact differs (Option.some.inj (alsoKnown.symm.trans known))

/-- Pairing a row without an id takes no name away. -/
theorem mem_idNames_unpaired_anonymous (distinct : DistinctIds rows)
    (there : rows[position]? = some row) (anonymous : row.id? = none) :
    name ∈ idNames (unpaired rows (position :: paired)) ↔ name ∈ idNames (unpaired rows paired) := by
  rw [mem_idNames_unpaired distinct, mem_idNames_unpaired distinct]
  refine exists_congr fun place => and_congr_right fun found => ?_
  have other : place ≠ position := by
    rintro rfl
    obtain ⟨held, here, known⟩ := getElem?_of_lastWithId? found
    obtain rfl := Option.some.inj (there.symm.trans here)
    exact nomatch (Entity.id?_eq_none_iff.mp anonymous).symm.trans known
  simp [other]

/-! ## Counts of rows without an id -/

/-- The rows left over, counted by position. -/
theorem countP_anonymous_unpaired (property : Entity → Bool) :
    (anonymous (unpaired rows paired)).countP property = rows.zipIdx.countP fun row =>
      property row.1 && row.1.id?.isNone && !paired.contains row.2 := by
  simp only [anonymous, unpaired, List.countP_filter, List.countP_map, Function.comp_def]

/-- One position is in one place. -/
theorem exists_zipIdx_split (there : rows[position]? = some row) :
    ∃ before after, rows.zipIdx = before ++ (row, position) :: after ∧
      (∀ other ∈ before, other.2 ≠ position) ∧ ∀ other ∈ after, other.2 ≠ position := by
  obtain ⟨bound, rfl⟩ := List.getElem?_eq_some_iff.mp there
  have shape : rows = rows.take position ++ rows[position] :: rows.drop (position + 1) := by
    rw [List.getElem_cons_drop, List.take_append_drop]
  have size : (rows.take position).length = position := by
    rw [List.length_take]
    omega
  refine ⟨(rows.take position).zipIdx, (rows.drop (position + 1)).zipIdx (position + 1), ?_, ?_, ?_⟩
  · conv_lhs => rw [shape, List.zipIdx_append, List.zipIdx_cons, size]
    simp
  · intro other member
    have below := List.snd_lt_of_mem_zipIdx member
    rw [size] at below
    omega
  · intro other member
    have above := List.le_snd_of_mem_zipIdx member
    omega

/-- Pairing a row takes it from the counts that it is in, unless it has an id. -/
theorem countP_anonymous_unpaired_cons (there : rows[position]? = some row)
    (free : position ∉ paired) (property : Entity → Bool) :
    (anonymous (unpaired rows paired)).countP property =
      (anonymous (unpaired rows (position :: paired))).countP property +
        if property row && row.id?.isNone then 1 else 0 := by
  obtain ⟨before, after, shape, outsideBefore, outsideAfter⟩ := exists_zipIdx_split there
  have unchanged (part : List (Entity × Nat)) (outside : ∀ other ∈ part, other.2 ≠ position) :
      part.countP (fun row => property row.1 && row.1.id?.isNone && !paired.contains row.2) =
        part.countP fun row =>
          property row.1 && row.1.id?.isNone && !(position :: paired).contains row.2 := by
    refine List.countP_congr fun other member => ?_
    simp [outside other member]
  have notPaired : paired.contains position = false := by simpa using free
  rw [countP_anonymous_unpaired, countP_anonymous_unpaired, shape]
  simp only [List.countP_append, List.countP_cons, unchanged before outsideBefore,
    unchanged after outsideAfter, notPaired, List.contains_cons, beq_self_eq_true, Bool.true_or,
    Bool.not_true, Bool.not_false, Bool.and_true, Bool.and_false, Bool.false_eq_true, if_false]
  omega

theorem countP_anonymous_unpaired_known (there : rows[position]? = some row)
    (known : row.id?.isSome = true) (property : Entity → Bool) :
    (anonymous (unpaired rows (position :: paired))).countP property =
      (anonymous (unpaired rows paired)).countP property := by
  by_cases free : position ∈ paired
  · have same : unpaired rows (position :: paired) = unpaired rows paired := by
      unfold unpaired
      congr 2
      funext row
      by_cases here : row.2 = position
      · simp [here, free]
      · simp [here]
    rw [same]
  · have named : row.id?.isNone = false := by
      obtain ⟨id, isId⟩ := Option.isSome_iff_exists.mp known
      simp [isId]
    rw [countP_anonymous_unpaired_cons there free]
    simp [named]

/-- A partner is on the right, is not paired yet, has no id and is near. -/
theorem partnerOf?_spec (found : partnerOf? rows paired row = some position) :
    ∃ other, rows[position]? = some other ∧ position ∉ paired ∧ other.id? = none ∧
      row.near other = true := by
  obtain ⟨⟨other, place⟩, isFound, rfl⟩ := Option.map_eq_some_iff.mp found
  have there := List.mem_zipIdx_iff_getElem?.mp (List.mem_of_find?_eq_some isFound)
  have accepted := List.find?_some isFound
  simp only [Bool.and_eq_true, Bool.not_eq_true', contains_eq_false_iff] at accepted
  obtain ⟨⟨free, noId⟩, near⟩ := accepted
  refine ⟨other, there, by simpa using free, ?_, near⟩
  simp [Entity.id?, get?_eq_none_iff.mpr noId]

/-- A row is found for one that has a near row without an id among those left over. -/
theorem exists_partnerOf? (member : other ∈ unpaired rows paired) (noId : other.contains "id" = false)
    (near : row.near other = true) : ∃ position, partnerOf? rows paired row = some position := by
  obtain ⟨position, there, free⟩ := mem_unpaired.mp member
  have isFound : (rows.zipIdx.find? fun other =>
      !paired.contains other.2 && !other.1.contains "id" && row.near other.1).isSome = true := by
    refine List.find?_isSome.mpr ⟨(other, position), List.mem_zipIdx_iff_getElem?.mpr there, ?_⟩
    simp [free, noId, near]
  obtain ⟨found, isFound⟩ := Option.isSome_iff_exists.mp isFound
  exact ⟨found.2, by rw [partnerOf?, isFound, Option.map_some]⟩

/-! ## Names after the rows on the left -/

variable {right : Grid} {left : List Entity}

/-- Of a name that rows on the left have, no row on the right is left over. -/
theorem mem_idNames_unpaired_differenceOfRow (ids : DistinctIds right.rows) :
    name ∈ idNames (unpaired right.rows (differenceOfRow right paired row).2) ↔
      name ∈ idNames (unpaired right.rows paired) ∧ name ∉ idNames [row] := by
  cases known : row.id? with
  | some id =>
      rw [idNames_cons_known (Entity.name?_of_id? known)]
      cases found : right.positionOf? id with
      | some position =>
          simp only [differenceOfRow, known, found]
          simpa [idNames] using mem_idNames_unpaired_known ids found
      | none =>
          have lacks := lastWithId?_eq_none_iff.mp found
          simp only [differenceOfRow, known, found]
          refine ⟨fun member => ⟨member, fun isName => ?_⟩, And.left⟩
          obtain rfl : name = id.name := by simpa [idNames] using isName
          exact lacks ((sublist_unpaired.filterMap _).subset member)
  | none =>
      rw [idNames_cons_anonymous (Entity.id?_eq_none_iff.mp known)]
      cases found : partnerOf? right.rows paired row with
      | some position =>
          obtain ⟨partner, there, _, unknown, _⟩ := partnerOf?_spec found
          simp only [differenceOfRow, known, found]
          simpa [idNames] using mem_idNames_unpaired_anonymous ids there unknown
      | none => simp [differenceOfRow, known, found, idNames]

theorem mem_idNames_unpaired_differenceOfRows (ids : DistinctIds right.rows) :
    name ∈ idNames (unpaired right.rows (differenceOfRows right paired left).2) ↔
      name ∈ idNames (unpaired right.rows paired) ∧ name ∉ idNames left := by
  induction left generalizing paired with
  | nil => simp [differenceOfRows, idNames]
  | cons row rest ih =>
      have split : idNames (row :: rest) = idNames [row] ++ idNames rest := @idNames_append [row] rest
      change name ∈ idNames (unpaired right.rows
        (differenceOfRows right (differenceOfRow right paired row).2 rest).2) ↔ _
      rw [ih, mem_idNames_unpaired_differenceOfRow ids, split, List.mem_append, not_or, and_assoc]

end Haystack.GridOf
