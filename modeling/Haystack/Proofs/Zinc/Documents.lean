import Haystack.Proofs.Zinc.Denoted

/-!
What grids can have been read from a text.

Each step that makes a grid of its lines keeps its names distinct words, its values ones that can be
read, and its rows without nulls. The column that stands for none is dropped in the end.
-/
namespace Haystack.Zinc

open Phrase

variable {dialect version : Version} {grid after : Grid}

/-- Columns whose names are distinct words, and so those of their metadata. -/
structure AreColumns (columns : Columns) : Prop where
  distinct : columns.Distinct
  names : ∀ name ∈ columns.keys, isTagName name = true
  metadata : ∀ held ∈ columns.values, AreTags held

/-- A row with values that can be read and are not null. -/
def IsEntity (row : Entity) : Prop :=
  ∀ held ∈ row.values, held.isNull = false ∧ held.Throughout Denotable

/-- A grid while its lines are added to it. -/
structure IsDrafted (grid : Grid) : Prop where
  version : grid.version.IsProper
  metadata : AreTags grid.metadata
  columns : AreColumns grid.columns
  rows : ∀ row ∈ grid.rows, IsEntity row

theorem areTags_empty : AreTags .empty where
  distinct := OrderedMap.distinct_empty
  names := fun _ none => nomatch none
  values := fun _ none => nomatch none

theorem areColumns_empty : AreColumns .empty where
  distinct := OrderedMap.distinct_empty
  names := fun _ none => nomatch none
  metadata := fun _ none => nomatch none

theorem AreColumns.append {columns : Columns} {name : String} {tags : Metadata}
    (areColumns : AreColumns columns) (fresh : name ∉ columns.keys) (isName : isTagName name = true)
    (areTags : AreTags tags) : AreColumns ⟨columns.items ++ [(name, tags)]⟩ where
  distinct := by
    rw [OrderedMap.Distinct, OrderedMap.keys, List.map_append]
    refine List.nodup_append.mpr ⟨areColumns.distinct, by simp, ?_⟩
    rintro other old last new rfl
    obtain rfl := List.mem_singleton.mp new
    exact fresh old
  names := by
    intro other member
    rw [OrderedMap.keys, List.map_append, List.mem_append] at member
    rcases member with old | new
    · exact areColumns.names other old
    · rwa [List.mem_singleton.mp new]
  metadata := by
    intro held member
    rw [OrderedMap.values, List.map_append, List.mem_append] at member
    rcases member with old | new
    · exact areColumns.metadata held old
    · rwa [List.mem_singleton.mp new]

/-! ## The steps -/

theorem isDrafted_withVersion (proper : version.IsProper) : IsDrafted (.withVersion version) where
  version := proper
  metadata := areTags_empty
  columns := areColumns_empty
  rows := fun _ none => nomatch none

/-- A check of values leaves a grid as it is but for its version. -/
theorem IsDrafted.checked {values : List Value} (drafted : IsDrafted grid)
    (checked : (GridOf.checkAll values).apply grid = (.ok (), after)) :
    IsDrafted after ∧ ∃ version, after = { grid with version } := by
  obtain ⟨version, raises, rfl⟩ := GridOf.exists_version_of_checkAll checked
  refine ⟨⟨?_, drafted.metadata, drafted.columns, drafted.rows⟩, version, rfl⟩
  rcases raises with rfl | ⟨_, _, rfl⟩
  · exact drafted.version
  · exact Version.isProper_three

theorem IsDrafted.setMetadata {metadata : Metadata} (drafted : IsDrafted grid) (areTags : AreTags metadata)
    (changed : (GridOf.setMetadata metadata).apply grid = (.ok (), after)) : IsDrafted after := by
  obtain ⟨_, middle, checked, set⟩ := Edit.of_bind changed
  obtain ⟨still, _, rfl⟩ := drafted.checked checked
  obtain ⟨_, rfl⟩ := Prod.mk.inj set
  exact ⟨still.version, areTags, still.columns, still.rows⟩

theorem IsDrafted.addColumn {name : String} {metadata : Metadata} (drafted : IsDrafted grid)
    (isName : isTagName name = true) (areTags : AreTags metadata)
    (added : (GridOf.addColumn name metadata).apply grid = (.ok (), after)) : IsDrafted after := by
  obtain ⟨_, middle, checked, added⟩ := Edit.of_bind added
  obtain ⟨still, _, rfl⟩ := drafted.checked checked
  rw [Edit.apply_get_bind] at added
  cases more : grid.columns.addItem name metadata .last false with
  | error refusal =>
      simp only [more] at added
      exact nomatch (Prod.mk.inj added).1
  | ok columns =>
      simp only [more] at added
      obtain ⟨_, rfl⟩ := Prod.mk.inj added
      obtain ⟨fresh, rfl⟩ := OrderedMap.of_addItem_last more
      exact ⟨still.version, still.metadata, still.columns.append fresh isName areTags, still.rows⟩

theorem IsDrafted.addColumns {columns : List DraftColumn} (drafted : IsDrafted grid)
    (denotes : ∀ column ∈ columns, isTagName column.name = true ∧ EachTag Denotes column.metadata)
    (added : addColumns grid columns = .ok after) : IsDrafted after := by
  induction columns generalizing grid with
  | nil => exact Except.ok.inj added ▸ drafted
  | cons column columns ih =>
      rw [List.forall_mem_cons] at denotes
      obtain ⟨⟨isName, tags⟩, others⟩ := denotes
      rw [Zinc.addColumns] at added
      obtain ⟨items, areItems, added⟩ := Outcome.of_bind added
      split at added
      · next middle applied =>
        exact ih (drafted.addColumn isName (areTags_of_readTags tags areItems) applied) others added
      · cases added

theorem IsDrafted.append {row : Entity} (drafted : IsDrafted grid) (isEntity : IsEntity row)
    (appended : (GridOf.append row).apply grid = (.ok (), after)) : IsDrafted after := by
  obtain ⟨_, middle, checked, set⟩ := Edit.of_bind appended
  obtain ⟨still, _, rfl⟩ := drafted.checked checked
  obtain ⟨_, rfl⟩ := Prod.mk.inj set
  refine ⟨still.version, still.metadata, still.columns, fun other member => ?_⟩
  rcases List.mem_append.mp member with old | new
  · exact still.rows other old
  · rwa [List.mem_singleton.mp new]

/-- The tags of a row are values of its cells that are not null. -/
theorem isEntity_of_readCells {offset limit : Nat} {row entity : Entity} {names : List String}
    {cells : List (Option (Reading Value))} (before : IsEntity row)
    (denotes : ∀ cell ∈ cells, ∀ reading ∈ cell, Denotes reading)
    (read : readCells offset limit row names cells = .ok entity) : IsEntity entity := by
  induction cells generalizing row names with
  | nil =>
      rw [readCells] at read
      exact Except.ok.inj read ▸ before
  | cons cell cells ih =>
      rw [List.forall_mem_cons] at denotes
      cases names with
      | nil => cases cell <;> cases read
      | cons name names =>
          cases cell with
          | none =>
              rw [readCells] at read
              exact ih before denotes.2 read
          | some reading =>
              rw [readCells] at read
              obtain ⟨value, isValue, read⟩ := Outcome.of_bind read
              refine ih ?_ denotes.2 read
              split
              · exact before
              · next notNull =>
                intro held member
                rcases OrderedMap.mem_values_insert member with rfl | old
                · exact ⟨by simpa using notNull, denotes.1 reading rfl held isValue⟩
                · exact before held old

theorem IsDrafted.addRows {names : List String} {rows : List DraftRow} (drafted : IsDrafted grid)
    (denotes : ∀ row ∈ rows, ∀ cell ∈ row.cells, ∀ reading ∈ cell, Denotes reading)
    (added : addRows names grid rows = .ok after) : IsDrafted after := by
  induction rows generalizing grid with
  | nil => exact Except.ok.inj added ▸ drafted
  | cons row rows ih =>
      rw [List.forall_mem_cons] at denotes
      rw [Zinc.addRows] at added
      split at added
      · exact ih drafted denotes.2 added
      · obtain ⟨entity, isEntity, added⟩ := Outcome.of_bind added
        obtain ⟨middle, appended, added⟩ := Outcome.of_bind added
        have none : IsEntity .empty := fun _ none => (List.not_mem_nil none).elim
        have more := drafted.append (isEntity_of_readCells none denotes.1 isEntity) (of_edited appended)
        exact ih more denotes.2 added

/-- Where the column for no columns would be written, it is dropped. -/
theorem IsDrafted.dropEmptyColumn (drafted : IsDrafted grid) :
    IsDrafted (dropEmptyColumn grid) ∧ ¬ IsBare (dropEmptyColumn grid) := by
  unfold Zinc.dropEmptyColumn
  split
  · next name metadata shape =>
    split
    · next isEmpty =>
      simp only [Bool.and_eq_true, beq_iff_eq] at isEmpty
      obtain rfl := isEmpty.1.1
      have none : grid.columns.erase emptyColumn = .empty := by
        simp [OrderedMap.erase, shape, OrderedMap.empty]
      rw [GridOf.removeColumn, none]
      exact ⟨⟨drafted.version, drafted.metadata, areColumns_empty, drafted.rows⟩,
        fun bare => absurd bare.1 (by simp)⟩
    · next some =>
      refine ⟨drafted, fun bare => some ?_⟩
      obtain ⟨rfl, rfl⟩ : name = emptyColumn ∧ metadata = .empty := by
        simpa using shape.symm.trans bare.1
      have absent : ∀ row ∈ grid.rows, row.contains emptyColumn = false := by
        intro row member
        rw [OrderedMap.contains_eq_false_iff, ← OrderedMap.get?_eq_none_iff]
        cases found : row.get? emptyColumn with
        | none => rfl
        | some held =>
            have isNull : held = .null := (Entity.valueOf_eq found).symm.trans (bare.2 row member)
            have notNull := (drafted.rows row member held (OrderedMap.mem_values_of_get? found)).1
            exact absurd notNull (by simp [isNull, Value.isNull])
      simpa [OrderedMap.isEmpty, OrderedMap.empty] using absent
  · next several => exact ⟨drafted, fun bare => several _ _ bare.1⟩

/-! ## Grids -/

theorem IsDrafted.isDocument (drafted : IsDrafted grid) (within : grid.Within) (notBare : ¬ IsBare grid) :
    IsDocument grid where
  version := drafted.version
  names := ⟨drafted.metadata.names, drafted.columns.names, fun held member =>
    (drafted.columns.metadata held member).names⟩
  distinct := ⟨drafted.metadata.distinct, drafted.columns.distinct, fun held member =>
    (drafted.columns.metadata held member).distinct⟩
  within := within
  notBare := notBare

/-- The grid of some lines is one that can be read, with all that is in it. -/
theorem throughout_of_draft {draft : Draft} (denotes : EachLine Denotes draft) (read : draft.grid = .ok grid) :
    grid.Throughout Denotable := by
  have within := within_of_draft read
  obtain ⟨text, _, read⟩ := Outcome.of_bind read
  obtain ⟨version, isVersion, read⟩ := Outcome.of_bind read
  obtain ⟨items, areItems, read⟩ := Outcome.of_bind read
  obtain ⟨headed, withMetadata, read⟩ := Outcome.of_bind read
  obtain ⟨titled, withColumns, read⟩ := Outcome.of_bind read
  obtain ⟨filled, withRows, read⟩ := Outcome.of_bind read
  obtain rfl := Except.ok.inj read
  have proper : version.IsProper := by
    have found := of_mapError isVersion
    unfold Version.read at found
    cases parsed : Version.read? text with
    | none => simp [parsed] at found
    | some other =>
        rw [parsed] at found
        obtain rfl := Except.ok.inj found
        exact Version.isProper_of_read? parsed
  have drafted : IsDrafted filled :=
    (((isDrafted_withVersion proper).setMetadata (areTags_of_readTags denotes.metadata areItems)
      (of_edited withMetadata)).addColumns denotes.columns withColumns).addRows denotes.rows withRows
  obtain ⟨drafted, notBare⟩ := drafted.dropEmptyColumn
  refine .intro _ (drafted.isDocument within notBare) (GridOf.forall_mem_values.mpr ⟨?_, ?_, ?_⟩)
  · exact drafted.metadata.values
  · exact fun held member => (drafted.columns.metadata held member).values
  · exact fun row member held inside => (drafted.rows row member held inside).2

/-! ## Values and whole texts -/

variable {value : Phrase (Reading Value)}

theorem yields_innerGrid (inside : Yields value Denotes) : Yields (innerGrid value dialect) Denotes := by
  refine Yields.named (yields_after fun _ => yields_after fun _ => yields_after fun _ => yields_after fun _ =>
    (yields_draft inside denotes_marker).bind fun draft denotes => yields_after fun _ => yields_pure fun value read => ?_)
  obtain ⟨_, _, read⟩ := Outcome.of_bind read
  obtain ⟨grid, isGrid, read⟩ := Outcome.of_bind read
  obtain rfl := Except.ok.inj read
  exact throughout_of_draft denotes isGrid

theorem yields_constant {p : Phrase Value} (leaf : Yields p fun value => value.Throughout Denotable) :
    Yields (do let v ← p; pure (Except.ok v : Reading Value)) Denotes :=
  leaf.bind fun _ denotable => yields_pure (denotes_ok denotable)

theorem yields_singleton {word : String} (constant : Value) (leaf : constant.IsLeaf)
    (denotable : Denotable constant) :
    Yields (singleton word constant) fun value => value.Throughout Denotable :=
  Yields.token (yields_after fun _ => yields_pure (throughout_of_leaf leaf denotable))

theorem yields_words (inside : Yields value Denotes) : Yields (words value dialect) Denotes := by
  refine Yields.orElse ?_ ((yields_constant (yields_singleton .null trivial trivial)).orElse
    ((yields_constant (yields_singleton .marker trivial trivial)).orElse
      ((yields_constant (yields_singleton .remove trivial trivial)).orElse
        ((yields_constant (Yields.token (Yields.orElse ?_ ?_))).orElse
          ((yields_list inside).orElse ((yields_dict inside).orElse (yields_innerGrid inside)))))))
  · refine Yields.token (yields_after fun _ => yields_after fun _ => yields_pure fun value read => ?_)
    obtain ⟨_, _, read⟩ := Outcome.of_bind read
    obtain rfl := Except.ok.inj read
    exact throughout_of_leaf trivial trivial
  · exact yields_after fun _ => yields_pure (throughout_of_leaf trivial trivial)
  · exact yields_after fun _ => yields_pure (throughout_of_leaf trivial trivial)

theorem yields_valueAround (inside : Yields value Denotes) : Yields (valueAround value dialect) Denotes := by
  rw [valueAround_eq]
  refine yields_reference.orElse (yields_str.orElse (yields_uri.orElse (yields_bin.orElse_of_fails
    fun cursor reading after noBin found => ?_)))
  rw [found_orElse, Option.or_eq_some_iff, found_orElse, Option.or_eq_some_iff] at found
  rcases found with isCoordinate | ⟨_, isEncoded | ⟨_, isOther⟩⟩
  · exact yields_coordinate cursor reading after isCoordinate
  · exact denotes_of_encoded noBin isEncoded
  · exact (yields_dateTime.orElse (yields_date.orElse (yields_time.orElse (yields_number.orElse
      (yields_words inside))))) cursor reading after isOther

theorem yields_valueWithin (depth : Nat) : Yields (valueWithin dialect depth) Denotes := by
  induction depth with
  | zero => exact fun _ _ _ found => nomatch found
  | succ depth ih => exact yields_valueAround ih

theorem yields_value : Yields (Zinc.value dialect) Denotes := fun cursor =>
  yields_valueWithin (cursor.rest.length + 1) cursor

/-- A grid that is read is a document, and all that is in it can be read. -/
theorem throughout_of_readGridChars {text : List Char} (read : readGridChars text = .ok grid) :
    grid.Throughout Denotable := by
  have yields {dialect : Version} : Yields (Zinc.grid dialect) fun reading => ∀ grid : Grid,
      reading = .ok grid → grid.Throughout Denotable :=
    Yields.named ((yields_draft yields_value denotes_marker).bind fun draft denotes => yields_pure fun grid isGrid =>
      throughout_of_draft denotes isGrid)
  obtain ⟨_, _, _, _, whole⟩ := readGridChars_ok_iff.mp read
  exact yields.of_readAll whole grid rfl

end Haystack.Zinc
