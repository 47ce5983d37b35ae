import Haystack.Grid.Basic
import Haystack.Proofs.OrderedMap
import Mathlib.Data.List.Induction

/-!
Rows known by an id, and rows without one.

`rowNamed?` is the row that an id stands for, the last of several. Where ids are distinct it is the
only one, and then a look-up follows every change of the rows.
-/
namespace Haystack

namespace Entity

/-- The name of the id of a row. -/
def name? (row : Entity) : Option String := row.id?.map (·.name)

theorem hasId_iff {name : String} {row : Entity} :
    hasId name row = true ↔ row.name? = some name := by
  unfold hasId name?
  cases row.id? with
  | none => simp
  | some id => simp

theorem name?_of_id? {row : Entity} {id : Ref} (known : row.id? = some id) :
    row.name? = some id.name := by
  simp [name?, known]

theorem id?_eq_none_iff {row : Entity} : row.id? = none ↔ row.name? = none := by
  simp [name?]

theorem id?_eq_some_iff {row : Entity} {id : Ref} :
    row.id? = some id ↔ row.get? "id" = some (.ref id) := by
  unfold id?
  cases row.get? "id" with
  | none => simp
  | some value => cases value <;> simp [Value.ref?]

end Entity

namespace GridOf

/-- The names of the ids of rows. -/
def idNames (rows : List Entity) : List String := rows.filterMap Entity.name?

/-- No two rows are known by the same name. -/
def DistinctIds (rows : List Entity) : Prop := (idNames rows).Nodup

instance (rows : List Entity) : Decidable (DistinctIds rows) :=
  inferInstanceAs (Decidable (List.Nodup _))

/-- The row that a name stands for. -/
def rowNamed? (name : String) (rows : List Entity) : Option Entity :=
  (lastWithId? name rows).bind (rows[·]?)

variable {name : String} {row : Entity} {rows others before after : List Entity} {index : Nat}

theorem mem_idNames : name ∈ idNames rows ↔ ∃ row ∈ rows, row.name? = some name :=
  List.mem_filterMap

theorem idNames_append : idNames (before ++ after) = idNames before ++ idNames after :=
  List.filterMap_append

theorem idNames_cons_known (known : row.name? = some name) :
    idNames (row :: rows) = name :: idNames rows :=
  List.filterMap_cons_some known

theorem idNames_cons_anonymous (anonymous : row.name? = none) :
    idNames (row :: rows) = idNames rows :=
  List.filterMap_cons_none anonymous

theorem lastWithId?_append_one :
    lastWithId? name (rows ++ [row]) =
      if Entity.hasId name row then some rows.length else lastWithId? name rows := by
  simp [lastWithId?, List.zipIdx_append]

/-- The position of a name is that of a row known by it. -/
theorem getElem?_of_lastWithId? (found : lastWithId? name rows = some index) :
    ∃ row, rows[index]? = some row ∧ row.name? = some name := by
  induction rows using List.reverseRec with
  | nil => simp [lastWithId?] at found
  | append_singleton rows row ih =>
      rw [lastWithId?_append_one] at found
      by_cases here : Entity.hasId name row = true
      · rw [if_pos here] at found
        obtain rfl := Option.some.inj found
        exact ⟨row, by simp, Entity.hasId_iff.mp here⟩
      · rw [if_neg here] at found
        obtain ⟨other, present, known⟩ := ih found
        have bound : index < rows.length := (List.getElem?_eq_some_iff.mp present).1
        exact ⟨other, by rw [List.getElem?_append_left bound, present], known⟩

theorem lastWithId?_eq_none_iff : lastWithId? name rows = none ↔ name ∉ idNames rows := by
  induction rows using List.reverseRec with
  | nil => simp [lastWithId?, idNames]
  | append_singleton rows row ih =>
      rw [lastWithId?_append_one, idNames_append]
      by_cases here : Entity.hasId name row = true
      · simp [here, idNames, Entity.hasId_iff.mp here]
      · have differs : row.name? ≠ some name := fun known => here (Entity.hasId_iff.mpr known)
        rw [if_neg here, ih]
        simp [idNames, List.mem_filterMap, differs]

theorem rowNamed?_eq_none_iff : rowNamed? name rows = none ↔ name ∉ idNames rows := by
  rw [← lastWithId?_eq_none_iff, rowNamed?]
  cases found : lastWithId? name rows with
  | none => simp
  | some index =>
      obtain ⟨row, present, _⟩ := getElem?_of_lastWithId? found
      simp [present]

theorem mem_of_rowNamed? (found : rowNamed? name rows = some row) :
    row ∈ rows ∧ row.name? = some name := by
  obtain ⟨index, position, present⟩ := Option.bind_eq_some_iff.mp found
  obtain ⟨other, here, known⟩ := getElem?_of_lastWithId? position
  obtain rfl : other = row := Option.some.inj (here.symm.trans present)
  exact ⟨List.mem_of_getElem? present, known⟩

/-- Two positions of one name are the same where ids are distinct. -/
theorem index_unique (distinct : DistinctIds rows) {other : Entity} {position : Nat}
    (here : rows[index]? = some row) (there : rows[position]? = some other)
    (known : row.name? = some name) (same : other.name? = some name) : index = position := by
  induction rows generalizing index position with
  | nil => simp at here
  | cons first rest ih =>
      have distinctRest : DistinctIds rest := by
        unfold DistinctIds idNames at *
        rw [List.filterMap_cons] at distinct
        split at distinct
        · exact distinct
        · exact (List.nodup_cons.mp distinct).2
      have fresh (name : String) (known : first.name? = some name) : name ∉ idNames rest := by
        unfold DistinctIds at distinct
        rw [idNames_cons_known known] at distinct
        exact (List.nodup_cons.mp distinct).1
      cases index with
      | zero =>
          cases position with
          | zero => rfl
          | succ position =>
              obtain rfl : first = row := by simpa using here
              have later : other ∈ rest := List.mem_of_getElem? (by simpa using there)
              exact absurd (mem_idNames.mpr ⟨other, later, same⟩) (fresh name known)
      | succ index =>
          cases position with
          | zero =>
              obtain rfl : first = other := by simpa using there
              have later : row ∈ rest := List.mem_of_getElem? (by simpa using here)
              exact absurd (mem_idNames.mpr ⟨row, later, known⟩) (fresh name same)
          | succ position =>
              exact congrArg (· + 1) (ih distinctRest (by simpa using here) (by simpa using there))

theorem lastWithId?_eq_some (distinct : DistinctIds rows) (here : rows[index]? = some row)
    (known : row.name? = some name) : lastWithId? name rows = some index := by
  cases found : lastWithId? name rows with
  | none =>
      have member : name ∈ idNames rows := mem_idNames.mpr ⟨row, List.mem_of_getElem? here, known⟩
      exact absurd member (lastWithId?_eq_none_iff.mp found)
  | some position =>
      obtain ⟨other, there, same⟩ := getElem?_of_lastWithId? found
      exact congrArg some (index_unique distinct there here same known)

theorem rowNamed?_eq_some_iff (distinct : DistinctIds rows) :
    rowNamed? name rows = some row ↔ row ∈ rows ∧ row.name? = some name := by
  refine ⟨mem_of_rowNamed?, fun ⟨member, known⟩ => ?_⟩
  obtain ⟨index, here⟩ := List.mem_iff_getElem?.mp member
  rw [rowNamed?, lastWithId?_eq_some distinct here known]
  exact here

theorem distinctIds_iff_of_perm (reordered : rows.Perm others) :
    DistinctIds rows ↔ DistinctIds others :=
  (reordered.filterMap Entity.name?).nodup_iff

theorem rowNamed?_of_perm (distinct : DistinctIds rows) (reordered : rows.Perm others)
    (name : String) : rowNamed? name rows = rowNamed? name others := by
  apply Option.ext
  intro row
  rw [rowNamed?_eq_some_iff distinct,
    rowNamed?_eq_some_iff ((distinctIds_iff_of_perm reordered).mp distinct), reordered.mem_iff]

/-- A row in the middle answers for its own name only. -/
theorem rowNamed?_middle (distinct : DistinctIds (before ++ row :: after)) :
    rowNamed? name (before ++ row :: after) =
      if row.name? = some name then some row else rowNamed? name (before ++ after) := by
  have shorter : DistinctIds (before ++ after) :=
    ((List.sublist_cons_self row after).append_left before |>.filterMap _).nodup distinct
  apply Option.ext
  intro other
  rw [rowNamed?_eq_some_iff distinct]
  split
  · next known =>
    constructor
    · intro ⟨member, same⟩
      have found := (rowNamed?_eq_some_iff distinct).mpr ⟨member, same⟩
      have inMiddle : row ∈ before ++ row :: after := by simp
      exact ((rowNamed?_eq_some_iff distinct).mpr ⟨inMiddle, known⟩).symm.trans found
    · intro same
      obtain rfl := Option.some.inj same
      exact ⟨by simp, known⟩
  · next differs =>
    rw [rowNamed?_eq_some_iff shorter]
    constructor
    · intro ⟨member, known⟩
      have other : other ≠ row := fun same => differs (same ▸ known)
      simp only [List.mem_append, List.mem_cons, other, false_or] at member ⊢
      exact ⟨member, known⟩
    · intro ⟨member, known⟩
      simp only [List.mem_append, List.mem_cons] at member ⊢
      exact ⟨member.imp_right .inr, known⟩

/-- Of rows in two parts one answers for a name, where ids are distinct. -/
theorem rowNamed?_append (distinct : DistinctIds (before ++ after)) :
    rowNamed? name (before ++ after) = (rowNamed? name before).or (rowNamed? name after) := by
  unfold DistinctIds at distinct
  rw [idNames_append, List.nodup_append] at distinct
  obtain ⟨firstDistinct, lastDistinct, apart⟩ := distinct
  have whole : DistinctIds (before ++ after) := by
    unfold DistinctIds
    rw [idNames_append, List.nodup_append]
    exact ⟨firstDistinct, lastDistinct, apart⟩
  apply Option.ext
  intro row
  rw [Option.or_eq_some_iff, rowNamed?_eq_some_iff whole, rowNamed?_eq_some_iff firstDistinct,
    rowNamed?_eq_some_iff lastDistinct, rowNamed?_eq_none_iff, List.mem_append]
  constructor
  · rintro ⟨inBefore | inAfter, known⟩
    · exact .inl ⟨inBefore, known⟩
    · refine .inr ⟨fun inNames => ?_, inAfter, known⟩
      exact apart name inNames name (mem_idNames.mpr ⟨row, inAfter, known⟩) rfl
  · rintro (⟨inBefore, known⟩ | ⟨_, inAfter, known⟩)
    · exact ⟨.inl inBefore, known⟩
    · exact ⟨.inr inAfter, known⟩

end GridOf

end Haystack
