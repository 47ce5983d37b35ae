import Haystack.Proofs.Grid.Pairs
import Haystack.Proofs.Grid.Patching

/-!
A difference applied to the left grid gives the right one.

Each row on the left is accounted for: it pairs a row on the right, is to be removed, or is left
unmatched. Applying what it gives brings the row of its name to the right and takes one unmatched row
out, and leaves all other look-ups alone. Then the rows on the right that are left over are added.
-/
namespace Haystack.GridOf

open OrderedMap Value Pairing

/-! ## What the rows on the left give -/

/-- Rows that a difference can tell apart: plain, with distinct ids, and without numbers and
coordinates where there is no id. -/
structure OrdinaryRows (rows : List Entity) : Prop where
  ids : DistinctIds rows
  plain : ∀ row ∈ rows, row.IsPlain
  keyed : ∀ row ∈ rows, ∀ part ∈ row.values, part.Throughout Keyed
  exact : ∀ row ∈ rows, row.id? = none → ∀ part ∈ row.values, part.Throughout Exact

/-- What rows on the left give: the positions they pair, the rows of the difference and the rows that
no partner is found for. -/
structure Accounts (right : List Entity) (fits : Value → Prop) (rows : List Entity)
    (paired later : Paired) (changes unmatched : List Entity) : Prop where
  names : ∀ name, name ∈ idNames (unpaired right later) ↔
    name ∈ idNames (unpaired right paired) ∧ name ∉ idNames rows
  counts : ∀ property, Respects (MapIn ExactThroughout) nearEntity property →
    (anonymous (unpaired right later)).countP property + (anonymous rows).countP property =
      (anonymous (unpaired right paired)).countP property + unmatched.countP property
  within : unmatched.Sublist (anonymous rows)
  patches : ∀ grid : Grid, SoundRows grid.rows →
    (∀ value, fits value → value.fits grid.version = true) →
    (∀ name ∈ idNames rows, rowNamed? name grid.rows = rowNamed? name rows) →
    ∃ after, (patchRows changes).apply grid = (.ok (), grid.withRows after) ∧
      PatchedRows right (idNames rows) unmatched grid.rows after

section Accounts

variable {right : Grid} {fits : Value → Prop} {row other : Entity} {rows rest : List Entity}
  {paired middle later : Paired} {position : Nat} {id : Ref}
  {first last unmatched others : List Entity}

theorem OrdinaryRows.mapIn (ordinary : OrdinaryRows rows) (member : row ∈ rows)
    (unknown : row.id? = none) : MapIn ExactThroughout row :=
  ⟨(ordinary.plain row member).distinct, fun part inside =>
    ⟨ordinary.exact row member unknown part inside, ordinary.keyed row member part inside⟩⟩

theorem OrdinaryRows.refl (ordinary : OrdinaryRows rows) (member : row ∈ rows) :
    ∀ part ∈ row.values, Value.near part part = true :=
  fun part inside => near_refl (ordinary.keyed row member part inside)

theorem Accounts.append (step : Accounts right.rows fits rows paired middle first unmatched)
    (run : Accounts right.rows fits rest middle later last others)
    (ids : DistinctIds (rows ++ rest)) :
    Accounts right.rows fits (rows ++ rest) paired later (first ++ last) (unmatched ++ others) := by
  have apart : ∀ name ∈ idNames rows, name ∉ idNames rest := by
    intro name here there
    unfold DistinctIds at ids
    rw [idNames_append, List.nodup_append] at ids
    exact ids.2.2 name here name there rfl
  refine ⟨fun name => ?_, fun property respects => ?_, ?_, fun grid sound version known => ?_⟩
  · rw [run.names, step.names, idNames_append, List.mem_append, not_or, and_assoc]
  · have here := step.counts property respects
    have there := run.counts property respects
    rw [anonymous_append, List.countP_append, List.countP_append]
    omega
  · rw [anonymous_append]
    exact step.within.append run.within
  · have inRows : ∀ name ∈ idNames rows, rowNamed? name grid.rows = rowNamed? name rows := by
      intro name member
      rw [known name (by rw [idNames_append]; exact List.mem_append_left _ member),
        rowNamed?_append ids, rowNamed?_eq_none_iff.mpr (apart name member), Option.or_none]
    obtain ⟨halfway, done, patched⟩ := step.patches grid sound version inRows
    have inRest : ∀ name ∈ idNames rest, rowNamed? name halfway = rowNamed? name rest := by
      intro name member
      have absent : name ∉ idNames rows := fun here => apart name here member
      rw [patched.others name absent,
        known name (by rw [idNames_append]; exact List.mem_append_right _ member),
        rowNamed?_append ids, rowNamed?_eq_none_iff.mpr absent, Option.none_or]
    obtain ⟨after, doneToo, patchedToo⟩ :=
      run.patches (grid.withRows halfway) patched.sound version inRest
    refine ⟨after, (patchRows_append done).trans doneToo, ?_⟩
    rw [idNames_append]
    exact patched.trans patchedToo apart

theorem rowNamed?_of_position (found : right.positionOf? id = some position)
    (there : right.rows[position]? = some other) : rowNamed? id.name right.rows = some other := by
  rw [positionOf?] at found
  simp [rowNamed?, found, there]

theorem rowNamed?_one (isId : row.id? = some id) : rowNamed? id.name [row] = some row := by
  simp [rowNamed?, lastWithId?, Entity.hasId, isId]

/-- The changes of a row with an id turn it into the one on the right. -/
theorem leads_changes_insert_id (plain : row.IsPlain) (otherPlain : other.IsPlain)
    (refl : ∀ part ∈ other.values, Value.near part part = true)
    (known : other.name? = some id.name) :
    ((row.changes other).insert "id" (.ref id)).Leads row other := by
  obtain ⟨otherId, isOther, same⟩ := Option.map_eq_some_iff.mp known
  exact (leads_changes plain.distinct otherPlain refl).insert rfl
    (Entity.id?_eq_some_iff.mp isOther) (near_ref_iff.mpr ⟨id, rfl, same.symm⟩)

/-- A row with the id of one on the right pairs it and gives its changes. -/
theorem accounts_changed (ordinary : OrdinaryRows right.rows)
    (fit : ∀ held ∈ right.rows, ∀ part ∈ held.values, fits part) (plain : row.IsPlain)
    (isId : row.id? = some id) (found : right.positionOf? id = some position)
    (there : right.rows[position]? = some other) :
    Accounts right.rows fits [row] paired (position :: paired)
      (if (row.changes other).isEmpty then [] else [(row.changes other).insert "id" (.ref id)])
      [] := by
  have rowNames : idNames [row] = [id.name] := idNames_cons_known (Entity.name?_of_id? isId)
  have inRight := rowNamed?_of_position found there
  obtain ⟨member, otherKnown⟩ := mem_of_rowNamed? inRight
  have otherPlain := ordinary.plain other member
  have refl := ordinary.refl member
  refine ⟨fun name => ?_, fun property _ => ?_, List.nil_sublist _, fun grid sound version known => ?_⟩
  · rw [rowNames, List.mem_singleton]
    exact mem_idNames_unpaired_known ordinary.ids found
  · obtain ⟨otherId, isOther, _⟩ := Option.map_eq_some_iff.mp otherKnown
    rw [countP_anonymous_unpaired_known there (by simp [isOther]), anonymous_cons_known isId]
    rfl
  · rw [rowNames] at known ⊢
    have inGrid : rowNamed? id.name grid.rows = some row :=
      (known id.name (List.mem_singleton_self _)).trans (rowNamed?_one isId)
    obtain ⟨place, here, present⟩ := Option.bind_eq_some_iff.mp inGrid
    split
    · next none =>
      -- Nothing changed, so the row on the left is near to the one on the right already.
      have agrees := (leads_changes plain.distinct otherPlain refl).agrees_of_empty none
      refine ⟨grid.rows, rfl, patchedRows_refl sound fun name isName => ?_⟩
      rw [List.mem_singleton.mp isName, inGrid, inRight]
      exact .some (nearEntity_of_agreesNear plain.distinct otherPlain.distinct agrees)
    · have changesDistinct : ((row.changes other).insert "id" (.ref id)).Distinct :=
        distinct_insert distinct_changes _ _
      have agrees := (leads_changes_insert_id plain otherPlain refl
        otherKnown).agrees_applyChanges plain.distinct changesDistinct
      have distinct : (row.applyChanges ((row.changes other).insert "id" (.ref id))).Distinct :=
        distinct_applyChanges plain.distinct
      have stays := stays_changes_insert_id plain otherPlain id
      have changeId : Entity.id? ((row.changes other).insert "id" (.ref id)) = some id :=
        Entity.id?_eq_some_iff.mpr (by rw [get?_insert, if_pos rfl])
      have fitting := agrees.fits distinct fun part inside => version part (fit other member part inside)
      refine ⟨_, (patchRows_one _).trans (patchRow_set changeId stays here present fitting), ?_⟩
      refine (changedRow_set sound here present distinct
        (name?_of_agreesNear agrees otherKnown)).patchedRows ?_
      rw [inRight]
      exact .some (nearEntity_of_agreesNear distinct otherPlain.distinct agrees)

/-- A row with an id that the right lacks gives its removal. -/
theorem accounts_removed (isId : row.id? = some id) (absent : right.positionOf? id = none) :
    Accounts right.rows fits [row] paired paired
      [.ofList [("id", .ref id), (removalKey, .remove)]] [] := by
  have rowNames : idNames [row] = [id.name] := idNames_cons_known (Entity.name?_of_id? isId)
  have lacks : id.name ∉ idNames right.rows := lastWithId?_eq_none_iff.mp absent
  refine ⟨fun name => ?_, fun property _ => ?_, List.nil_sublist _, fun grid sound version known => ?_⟩
  · rw [rowNames, List.mem_singleton]
    refine ⟨fun member => ⟨member, ?_⟩, And.left⟩
    rintro rfl
    exact lacks ((sublist_unpaired.filterMap _).subset member)
  · rw [anonymous_cons_known isId]
    rfl
  · rw [rowNames] at known ⊢
    have inGrid : rowNamed? id.name grid.rows = some row :=
      (known id.name (List.mem_singleton_self _)).trans (rowNamed?_one isId)
    obtain ⟨place, here, present⟩ := Option.bind_eq_some_iff.mp inGrid
    refine ⟨_, (patchRows_one _).trans (patchRow_remove rfl rfl here),
      (changedRow_remove sound here).patchedRows ?_⟩
    rw [rowNamed?_eq_none_iff.mpr lacks]
    exact .none

/-- A row without an id pairs its partner and gives nothing. -/
theorem accounts_partner (ordinary : OrdinaryRows right.rows) (one : OrdinaryRows [row])
    (unknown : row.id? = none) (found : partnerOf? right.rows paired row = some position) :
    Accounts right.rows fits [row] paired (position :: paired) [] [] := by
  have noNames : idNames [row] = [] := idNames_cons_anonymous (Entity.id?_eq_none_iff.mp unknown)
  obtain ⟨partner, there, free, partnerUnknown, near⟩ := partnerOf?_spec found
  have member := List.mem_of_getElem? there
  refine ⟨fun name => ?_, fun property respects => ?_, List.nil_sublist _,
    fun grid sound _ _ => ⟨grid.rows, rfl, patchedRows_refl sound ?_⟩⟩
  · rw [mem_idNames_unpaired_anonymous ordinary.ids there partnerUnknown, noNames]
    simp
  · have alike := respects row partner (one.mapIn (List.mem_singleton_self _) unknown)
      (ordinary.mapIn member partnerUnknown) near
    rw [countP_anonymous_unpaired_cons there free, anonymous_cons_anonymous unknown,
      List.countP_cons, alike]
    simp [partnerUnknown, anonymous]
  · rw [noNames]
    exact fun name absent => absurd absent List.not_mem_nil

/-- A row without an id and without a partner gives its own removal. -/
theorem accounts_unmatched (one : OrdinaryRows [row]) (unknown : row.id? = none) :
    Accounts right.rows fits [row] paired paired [row.insert removalKey .remove] [row] := by
  have noNames : idNames [row] = [] := idNames_cons_anonymous (Entity.id?_eq_none_iff.mp unknown)
  have plain := one.plain row (List.mem_singleton_self _)
  refine ⟨fun name => ?_, fun property _ => ?_, ?_, fun grid sound _ _ => ?_⟩
  · rw [noNames]
    simp
  · rw [anonymous_cons_anonymous unknown]
    rfl
  · rw [anonymous_cons_anonymous unknown]
    exact List.Sublist.cons_cons _ (List.nil_sublist _)
  · refine ⟨_, (patchRows_one _).trans (patchRow_removal plain.contains_removalKey unknown), ?_⟩
    rw [noNames]
    exact patchedRows_removeNear sound plain.distinct unknown

theorem accounts_differenceOfRow (ordinary : OrdinaryRows right.rows)
    (fit : ∀ held ∈ right.rows, ∀ part ∈ held.values, fits part) (one : OrdinaryRows [row]) :
    ∃ unmatched, Accounts right.rows fits [row] paired (differenceOfRow right paired row).2
      (differenceOfRow right paired row).1 unmatched := by
  cases known : row.id? with
  | some id =>
      cases found : right.positionOf? id with
      | some position =>
          obtain ⟨other, there, _⟩ := getElem?_of_lastWithId? found
          simp only [differenceOfRow, known, found, there, Option.getD_some]
          exact ⟨_, accounts_changed ordinary fit (one.plain row (List.mem_singleton_self _)) known
            found there⟩
      | none =>
          simp only [differenceOfRow, known, found]
          exact ⟨_, accounts_removed known found⟩
  | none =>
      cases found : partnerOf? right.rows paired row with
      | some position =>
          simp only [differenceOfRow, known, found]
          exact ⟨_, accounts_partner ordinary one known found⟩
      | none =>
          simp only [differenceOfRow, known, found]
          exact ⟨_, accounts_unmatched one known⟩

theorem OrdinaryRows.sublist (ordinary : OrdinaryRows rows) (within : rest.Sublist rows) :
    OrdinaryRows rest where
  ids := (within.filterMap _).nodup ordinary.ids
  plain := fun row member => ordinary.plain row (within.subset member)
  keyed := fun row member => ordinary.keyed row (within.subset member)
  exact := fun row member => ordinary.exact row (within.subset member)

/-- The rows on the left are accounted for one after the other. -/
theorem accounts_differenceOfRows (ordinary : OrdinaryRows right.rows)
    (fit : ∀ held ∈ right.rows, ∀ part ∈ held.values, fits part) (all : OrdinaryRows rows) :
    ∃ unmatched, Accounts right.rows fits rows paired (differenceOfRows right paired rows).2
      (differenceOfRows right paired rows).1 unmatched := by
  induction rows generalizing paired with
  | nil =>
      refine ⟨[], fun name => ?_, fun _ _ => rfl, List.Sublist.refl _, fun grid sound _ _ =>
        ⟨grid.rows, rfl, patchedRows_refl sound fun _ absent => (nomatch absent)⟩⟩
      simp [differenceOfRows, idNames]
  | cons row rest ih =>
      have one : OrdinaryRows [row] := all.sublist (List.Sublist.cons_cons _ (List.nil_sublist _))
      obtain ⟨unmatched, step⟩ : ∃ unmatched, Accounts right.rows fits [row] paired
          (differenceOfRow right paired row).2 (differenceOfRow right paired row).1 unmatched :=
        accounts_differenceOfRow ordinary fit one
      obtain ⟨others, run⟩ := @ih (differenceOfRow right paired row).2
        (all.sublist (List.sublist_cons_self _ _))
      exact ⟨unmatched ++ others, step.append run all.ids⟩

/-- The rows on the left without those that are unmatched, and the rows on the right that are left
over, pair off with the rows on the right: both have as many rows of every kind. -/
theorem anonymous_pairsOff {left halfway : List Entity} {fits : Value → Prop}
    (leftOrdinary : OrdinaryRows left) (rightOrdinary : OrdinaryRows right.rows)
    {changes : List Entity} (accounts : Accounts right.rows fits left [] paired changes unmatched)
    (removed : anonymous halfway = removeEach nearEntity (anonymous left) unmatched) :
    (anonymous (halfway ++ unpaired right.rows paired)).length = (anonymous right.rows).length ∧
      pairsOff nearEntity (anonymous (halfway ++ unpaired right.rows paired))
        (anonymous right.rows) = true := by
  have equivalence := equivalenceOn_nearEntity equivalenceOn_near
  have inScope {rows : List Entity} (ordinary : OrdinaryRows rows) :
      ∀ row ∈ anonymous rows, MapIn ExactThroughout row := fun row member =>
    ordinary.mapIn (mem_anonymous.mp member).1 (mem_anonymous.mp member).2
  have leftIn := inScope leftOrdinary
  have rightIn := inScope rightOrdinary
  have unmatchedIn : ∀ row ∈ unmatched, MapIn ExactThroughout row :=
    fun row member => leftIn row (accounts.within.subset member)
  have counts : ∀ property, Respects (MapIn ExactThroughout) nearEntity property →
      (anonymous (halfway ++ unpaired right.rows paired)).countP property =
        (anonymous right.rows).countP property := by
    intro property respects
    have kept := countP_removeEach equivalence leftIn unmatchedIn
      (fun x _ => accounts.within.countP_le) respects
    have accounted := accounts.counts property respects
    rw [unpaired_nil] at accounted
    rw [anonymous_append, List.countP_append, removed]
    omega
  have sizes := counts (fun _ => true) fun _ _ _ _ _ => rfl
  simp only [List.countP_true] at sizes
  refine ⟨sizes, (pairsOff_iff_countP_eq equivalence (fun row member => ?_) rightIn sizes).mpr
    fun x xIn => counts _ (equivalence.respects xIn)⟩
  rw [anonymous_append, removed] at member
  rcases List.mem_append.mp member with inLeft | inRight
  · exact leftIn row (removeEach_sublist.subset inLeft)
  · exact inScope (rightOrdinary.sublist sublist_unpaired) row inRight

/-- After the rows of a difference are applied to those on the left the rows are near to those on
the right. -/
theorem patchRows_difference {left : List Entity} (leftOrdinary : OrdinaryRows left)
    (rightOrdinary : OrdinaryRows right.rows) {grid : Grid} (start : grid.rows = left)
    (fit : ∀ held ∈ right.rows, ∀ part ∈ held.values, part.fits grid.version = true) :
    ∃ after, (patchRows ((differenceOfRows right [] left).1 ++
        unpaired right.rows (differenceOfRows right [] left).2)).apply grid =
          (.ok (), grid.withRows after) ∧
      DistinctIds after ∧ RowsNear after right.rows := by
  obtain ⟨unmatched, accounts⟩ : ∃ unmatched, Accounts right.rows
      (fun part => part.fits grid.version = true) left [] (differenceOfRows right [] left).2
      (differenceOfRows right [] left).1 unmatched :=
    accounts_differenceOfRows rightOrdinary fit leftOrdinary
  generalize differenceOfRows right [] left = difference at accounts ⊢
  obtain ⟨changes, paired⟩ := difference
  have sound : SoundRows grid.rows :=
    ⟨start ▸ leftOrdinary.ids, fun row member => (leftOrdinary.plain row (start ▸ member)).distinct⟩
  obtain ⟨halfway, done, patched⟩ := accounts.patches grid sound (fun _ fits => fits)
    fun name _ => by rw [start]
  have names := accounts.names
  simp only [unpaired_nil, start] at names patched
  have absentHalfway {name : String} (absent : name ∉ idNames left) :
      rowNamed? name halfway = none := by
    rw [patched.others name absent, rowNamed?_eq_none_iff.mpr absent]
  have addedOrdinary : OrdinaryRows (unpaired right.rows paired) :=
    rightOrdinary.sublist sublist_unpaired
  have ids : DistinctIds (halfway ++ unpaired right.rows paired) := by
    unfold DistinctIds
    rw [idNames_append, List.nodup_append]
    refine ⟨patched.sound.ids, addedOrdinary.ids, ?_⟩
    rintro name here _ there rfl
    exact rowNamed?_eq_none_iff.mp (absentHalfway ((names name).mp there).2) here
  obtain ⟨sizes, pairs⟩ :=
    anonymous_pairsOff leftOrdinary rightOrdinary accounts patched.anonymous
  refine ⟨halfway ++ unpaired right.rows paired, ?_, ids, fun name => ?_, sizes, pairs⟩
  · rw [patchRows_append done]
    exact patchRows_fresh ids (fun row member => (addedOrdinary.plain row member).contains_removalKey)
      fun row member => fit row (mem_of_mem_unpaired member)
  · rw [rowNamed?_append ids]
    by_cases inLeft : name ∈ idNames left
    · have paired : rowNamed? name (unpaired right.rows paired) = none :=
        rowNamed?_eq_none_iff.mpr fun member => ((names name).mp member).2 inLeft
      rw [paired, Option.or_none]
      exact patched.named name inLeft
    · rw [absentHalfway inLeft, Option.none_or]
      cases found : rowNamed? name (unpaired right.rows paired) with
      | none =>
          have absent : name ∉ idNames right.rows := fun inRight =>
            rowNamed?_eq_none_iff.mp found ((names name).mpr ⟨inRight, inLeft⟩)
          rw [rowNamed?_eq_none_iff.mpr absent]
          exact .none
      | some row =>
          obtain ⟨member, known⟩ := mem_of_rowNamed? found
          have inRight := mem_of_mem_unpaired member
          rw [(rowNamed?_eq_some_iff rightOrdinary.ids).mpr ⟨inRight, known⟩]
          exact .some (nearEntity_refl (rightOrdinary.plain row inRight).distinct
            (rightOrdinary.refl inRight))

end Accounts

/-! ## Grids -/

/-- A grid that a difference can be taken of: with distinct keys and ids at all depths, no reserved
key and no removal of its own, and no number or coordinate in a row without an id. -/
structure Ordinary (grid : Grid) : Prop where
  keyed : grid.Throughout Keyed
  metadata : grid.metadata.IsPlain
  columns : PlainColumns grid.columns
  rows : ∀ row ∈ grid.rows, row.IsPlain
  exact : ∀ row ∈ grid.rows, Entity.id? row = none → ∀ part ∈ row.values, part.Throughout Exact

/-- A grid with distinct keys and ids at all depths, no reserved key and no removal of its own. -/
structure Plain (grid : Grid) : Prop where
  keyed : grid.Throughout Keyed
  metadata : grid.metadata.IsPlain
  columns : PlainColumns grid.columns
  rows : ∀ row ∈ grid.rows, row.IsPlain

theorem Ordinary.plain {grid : Grid} (ordinary : grid.Ordinary) : grid.Plain :=
  ⟨ordinary.keyed, ordinary.metadata, ordinary.columns, ordinary.rows⟩

/-- Two rows, one of them without an id. -/
def sitesBefore : Grid where
  version := .three
  pinned := false
  metadata := ⟨[("dis", .str "Sites"), ("old", .marker)]⟩
  columns := ⟨[("id", .empty), ("dis", ⟨[("doc", .str "a name")]⟩), ("area", .empty)]⟩
  rows := [⟨[("id", .ref ⟨"a", none⟩), ("area", .number ⟨.zero false, some "m"⟩)]⟩,
    ⟨[("dis", .str "nameless")]⟩]

/-- The same sites later on: the metadata, a column, the rows and their order have changed. -/
def sitesAfter : Grid where
  version := .three
  pinned := true
  metadata := ⟨[("dis", .str "All sites")]⟩
  columns := ⟨[("dis", .empty), ("id", .empty)]⟩
  rows := [⟨[("dis", .na)]⟩, ⟨[("id", .ref ⟨"b", none⟩)]⟩,
    ⟨[("dis", .str "A"), ("id", .ref ⟨"a", some "A"⟩)]⟩]

/-- A grid of leaves is ordinary if its own parts are. -/
theorem ordinary_of_leaves {grid : Grid} (keyed : Keyed (.grid grid))
    (leaves : ∀ part ∈ grid.values, part.Keyed ∧ part.children = [])
    (metadata : grid.metadata.IsPlain) (columns : PlainColumns grid.columns)
    (rows : ∀ row ∈ grid.rows, row.IsPlain)
    (exact : ∀ row ∈ grid.rows, Entity.id? row = none → ∀ part ∈ row.values, part.Exact) :
    grid.Ordinary where
  keyed := .intro _ keyed fun part member =>
    throughout_of_childless (leaves part member).1 (leaves part member).2
  metadata := metadata
  columns := columns
  rows := rows
  exact := fun row inRows unknown part inside => throughout_of_childless
    (exact row inRows unknown part inside) (leaves part (mem_values_of_row inRows inside)).2

section Grids

variable {left right grid : Grid}

theorem Plain.near_refl (plain : grid.Plain) : ∀ part ∈ grid.values, Value.near part part = true :=
  fun _ member => Value.near_refl (plain.keyed.inside member)

theorem Ordinary.rows_ordinary (ordinary : grid.Ordinary) : OrdinaryRows grid.rows where
  ids := ordinary.keyed.here.2.2.2.2
  plain := ordinary.rows
  keyed := fun _ inRows _ inside => ordinary.keyed.inside (mem_values_of_row inRows inside)
  exact := ordinary.exact

theorem nearMetadata_patched (leftPlain : left.Plain) (rightPlain : right.Plain) :
    (left.metadata.applyChanges (left.metadata.changes right.metadata)).Distinct ∧
      (left.metadata.applyChanges (left.metadata.changes right.metadata)).AgreesNear
        right.metadata :=
  ⟨distinct_applyChanges leftPlain.metadata.distinct,
    (leads_changes leftPlain.metadata.distinct rightPlain.metadata fun part member =>
      rightPlain.near_refl part (mem_values_of_metadata member)).agrees_applyChanges
        leftPlain.metadata.distinct distinct_changes⟩

theorem agrees_patchedColumns (leftPlain : left.Plain) (rightPlain : right.Plain)
    {item : String × Metadata} (member : item ∈ right.columns.items) :
    (patchedColumn left.columns item).Distinct ∧
      (patchedColumn left.columns item).AgreesNear item.2 :=
  agrees_patchedColumn leftPlain.columns rightPlain.columns member fun part inside =>
    rightPlain.near_refl part (mem_values_of_column (mem_values_of_mem member) inside)

theorem nearColumns_patched (leftPlain : left.Plain) (rightPlain : right.Plain) :
    nearColumns (patchedColumns left.columns right.columns) right.columns = true := by
  have distinct : (patchedColumns left.columns right.columns).Distinct := by
    rw [Distinct, keys_patchedColumns]
    exact rightPlain.columns.distinct
  rw [nearColumns_iff distinct rightPlain.columns.distinct,
    agrees_iff distinct rightPlain.columns.distinct]
  refine ⟨by simp [patchedColumns, size], fun patched member => ?_⟩
  obtain ⟨item, inRight, rfl⟩ := List.mem_map.mp member
  obtain ⟨heldDistinct, agrees⟩ := agrees_patchedColumns leftPlain rightPlain inRight
  refine ⟨item.2, (get?_eq_some_iff rightPlain.columns.distinct).mpr inRight, ?_⟩
  exact (nearMetadata_iff heldDistinct
    (rightPlain.columns.held item.2 (mem_values_of_mem inRight)).distinct).mpr agrees

/-- A difference, applied to the grid that it starts from, gives the grid that it leads to. -/
theorem patch_difference (leftOrdinary : left.Ordinary) (rightOrdinary : right.Ordinary)
    (fits : ∀ part ∈ right.values, part.fits right.version = true) :
    ∃ merged, left.patch (left.difference right) = .ok merged ∧ merged.near right = true ∧
      merged.version = right.version ∧ merged.pinned = right.pinned ∧
      merged.columns.keys = right.columns.keys := by
  obtain ⟨metadataDistinct, metadataAgrees⟩ :=
    nearMetadata_patched leftOrdinary.plain rightOrdinary.plain
  have metadataFits := metadataAgrees.fits metadataDistinct fun part member =>
    fits part (mem_values_of_metadata member)
  have columnsFit := fits_patchedColumns leftOrdinary.columns rightOrdinary.columns
    fun held inColumns part inside => fits part (mem_values_of_column inColumns inside)
  let start : Grid := left.setVersion right.version right.pinned
  let described : Grid :=
    { start with metadata := left.metadata.applyChanges (left.metadata.changes right.metadata) }
  let declared : Grid := { described with columns := patchedColumns left.columns right.columns }
  have setsMetadata : (setMetadata _).apply start = (.ok (), described) :=
    setMetadata_apply metadataFits
  have setsColumns : (setColumns _).apply described = (.ok (), declared) :=
    setColumns_apply columnsFit
  have untouched : declared.rows = left.rows := rfl
  obtain ⟨rows, setsRows, ids, rowsNear⟩ := patchRows_difference leftOrdinary.rows_ordinary
    rightOrdinary.rows_ordinary untouched fun row inRows part inside =>
      fits part (mem_values_of_row inRows inside)
  refine ⟨⟨right.version, right.pinned,
    left.metadata.applyChanges (left.metadata.changes right.metadata),
    patchedColumns left.columns right.columns, rows⟩, ?_, ?_, rfl, rfl, keys_patchedColumns _ _⟩
  · unfold patch difference
    simp only [patchMetadata_differenceMetadata leftOrdinary.metadata rightOrdinary.metadata,
      patchColumns_differenceColumns leftOrdinary.columns rightOrdinary.columns]
    rw [(Edit.apply_bind setsMetadata).trans ((Edit.apply_bind setsColumns).trans setsRows)]
    rfl
  · exact (nearGrid_iff ids rightOrdinary.rows_ordinary.ids).mpr
      ⟨(nearMetadata_iff metadataDistinct rightOrdinary.metadata.distinct).mpr metadataAgrees,
        nearColumns_patched leftOrdinary.plain rightOrdinary.plain, rowsNear⟩

theorem patch_difference_sites :
    sitesBefore.Ordinary ∧ sitesAfter.Ordinary ∧
      (∀ part ∈ sitesAfter.values, part.fits sitesAfter.version = true) ∧
      ∃ merged, sitesBefore.patch (sitesBefore.difference sitesAfter) = .ok merged ∧
        merged.near sitesAfter = true ∧ merged.version = .three ∧ merged.pinned = true ∧
        merged.columns.keys = ["dis", "id"] := by
  have before : sitesBefore.Ordinary := ordinary_of_leaves (by decide) (by decide) (by decide)
    (by decide) (by decide) (by decide)
  have after : sitesAfter.Ordinary := ordinary_of_leaves (by decide) (by decide) (by decide)
    (by decide) (by decide) (by decide)
  have fits : ∀ part ∈ sitesAfter.values, part.fits sitesAfter.version = true := by decide
  exact ⟨before, after, fits, patch_difference before after fits⟩

end Grids

end Haystack.GridOf
