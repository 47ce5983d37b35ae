import Haystack.Proofs.Json.Values
import Haystack.Proofs.Value.Related

/-!
Arrays and objects of trees: lists, dicts, metadata, columns and rows.

The members of an object come back in order as tags with near values; under columns and in rows those
that are null are dropped.
-/
namespace Haystack.Json

open Value (KeepsKind TagsRelated ColumnsRelated null_of_related)

variable {version : Version} {related : Value → Value → Prop}

theorem requireThree_three (feature : String) : requireThree .three feature = .ok () :=
  if_neg (by decide)

/-! ## Lists -/

theorem exists_treesOf {items : List Value} (rereads : ∀ item ∈ items, Rereads related item)
    (atLeast : version.IsAtLeastThree) :
    ∃ trees backs, treesOf items version = .ok trees ∧ (∀ tree ∈ trees, tree.IsTextual) ∧
      valuesOf trees .three = .ok backs ∧ List.Forall₂ related backs items := by
  induction items with
  | nil => exact ⟨[], [], rfl, List.forall_mem_nil _, rfl, .nil⟩
  | cons item items ih =>
      rw [List.forall_mem_cons] at rereads
      obtain ⟨tree, back, made, textual, read, relates⟩ := rereads.1 version atLeast
      obtain ⟨trees, backs, others, areTextual, areRead, areRelated⟩ := ih rereads.2
      refine ⟨tree :: trees, back :: backs, ?_, List.forall_mem_cons.mpr ⟨textual, areTextual⟩, ?_,
        .cons relates areRelated⟩
      · rw [treesOf, made, others]
        rfl
      · rw [valuesOf, read, areRead]
        rfl

/-- A list comes back as one of what its items come back as. -/
theorem rereads_list {items : List Value} (rereads : ∀ item ∈ items, Rereads related item) :
    Rereads (fun back _ => ∃ backs, back = .list backs ∧ List.Forall₂ related backs items)
      (.list items) := by
  intro version atLeast
  obtain ⟨trees, backs, made, textual, read, areRelated⟩ := exists_treesOf rereads atLeast
  have fits : (Value.list items).ensureFits version = .ok () :=
    if_pos (Zinc.fits_of_isAtLeastThree atLeast _)
  refine ⟨.array trees, .list backs, ?_, .array trees textual, ?_, backs, rfl, areRelated⟩
  · rw [treeOf, fits, made]
    rfl
  · rw [valueOf, requireThree_three, read]
    rfl

/-! ## Members -/

/-- The members of an object and the tags that they are read as. -/
structure Members (members : List (String × Tree)) (tags : List (String × Value)) : Prop where
  textual : ∀ member ∈ members, member.2.IsTextual
  names : members.map (·.1) = tags.map (·.1)
  read : tagsOf none members .three = .ok tags

theorem exists_memberItemsOf {items : List (String × Value)}
    (rereads : ∀ item ∈ items, Rereads related item.2) (atLeast : version.IsAtLeastThree) :
    ∃ members tags, memberItemsOf items version = .ok members ∧ Members members tags ∧
      TagsRelated related tags items := by
  induction items with
  | nil => exact ⟨[], [], rfl, ⟨List.forall_mem_nil _, rfl, rfl⟩, .nil⟩
  | cons item items ih =>
      obtain ⟨name, held⟩ := item
      rw [List.forall_mem_cons] at rereads
      obtain ⟨tree, back, made, textual, read, relates⟩ := rereads.1 version atLeast
      obtain ⟨members, tags, others, areMembers, areRelated⟩ := ih rereads.2
      refine ⟨(name, tree) :: members, (name, back) :: tags, ?_,
        ⟨List.forall_mem_cons.mpr ⟨textual, areMembers.textual⟩, ?_, ?_⟩, .cons ⟨rfl, relates⟩ areRelated⟩
      · rw [memberItemsOf, made, others]
        rfl
      · rw [List.map_cons, List.map_cons, areMembers.names]
      · rw [tagsOf, if_neg (by simp), read, areMembers.read]
        rfl

theorem exists_membersOf {tags : OrderedMap Value}
    (rereads : ∀ held ∈ tags.values, Rereads related held) (atLeast : version.IsAtLeastThree) :
    ∃ members backs, membersOf tags version = .ok members ∧ Members members backs ∧
      TagsRelated related backs tags.items := by
  obtain ⟨items⟩ := tags
  exact exists_memberItemsOf (fun item member => rereads item.2 (List.mem_map_of_mem member)) atLeast

variable {members : List (String × Tree)} {tags : List (String × Value)}

theorem Members.isTextual (areMembers : Members members tags) (distinct : (tags.map (·.1)).Nodup) :
    (Tree.object (.ofList members)).IsTextual := by
  rw [← areMembers.names] at distinct
  rw [OrderedMap.ofList_of_nodup distinct]
  refine .object _ distinct fun tree member => ?_
  obtain ⟨item, inMembers, rfl⟩ := List.mem_map.mp member
  exact areMembers.textual item inMembers

/-- A member that is not there is passed over by no one. -/
theorem tagsOf_absent {name : String} {dialect : Version} (absent : name ∉ members.map (·.1)) :
    tagsOf (some name) members dialect = tagsOf none members dialect := by
  induction members with
  | nil => rfl
  | cons member members ih =>
      obtain ⟨key, tree⟩ := member
      rw [List.map_cons, List.mem_cons, not_or] at absent
      rw [tagsOf, tagsOf, if_neg (fun same => absent.1 (Option.some.inj same)), if_neg (by simp),
        ih absent.2]

/-- A member in front that is not read as a tag. -/
theorem tagsOf_cons {name : String} {tree : Tree} {dialect : Version}
    (absent : name ∉ members.map (·.1)) :
    tagsOf (some name) ((name, tree) :: members) dialect = tagsOf none members dialect := by
  rw [tagsOf, if_pos rfl, tagsOf_absent absent]

/-! ## Dicts -/

theorem isGrid_iff : isGrid members = true ↔ "meta" ∈ members.map (·.1) ∧
    "cols" ∈ members.map (·.1) ∧ "rows" ∈ members.map (·.1) := by
  have found (name : String) : (members.lookup name).isSome = true ↔ name ∈ members.map (·.1) :=
    OrderedMap.contains_eq_true_iff (m := ⟨members⟩)
  simp [isGrid, found]

/-- A dict comes back as one of what its values come back as, unless it looks like a grid. -/
theorem rereads_dict {tags : OrderedMap Value} (distinct : tags.Distinct)
    (noGrid : ¬ ("meta" ∈ tags.keys ∧ "cols" ∈ tags.keys ∧ "rows" ∈ tags.keys))
    (rereads : ∀ held ∈ tags.values, Rereads related held) :
    Rereads (fun back _ => ∃ backs, back = .dict ⟨backs⟩ ∧ TagsRelated related backs tags.items)
      (.dict tags) := by
  intro version atLeast
  obtain ⟨members, backs, made, areMembers, relates⟩ := exists_membersOf rereads atLeast
  have backsDistinct := relates.distinct distinct
  have names : members.map (·.1) = tags.keys :=
    areMembers.names.trans (OrderedMap.keys_eq_of_forall₂ relates)
  have fits : (Value.dict tags).ensureFits version = .ok () :=
    if_pos (Zinc.fits_of_isAtLeastThree atLeast _)
  refine ⟨.object (.ofList members), .dict ⟨backs⟩, ?_, areMembers.isTextual backsDistinct, ?_,
    backs, rfl, relates⟩
  · rw [treeOf, fits, made]
    rfl
  · rw [OrderedMap.ofList_of_nodup (names ▸ distinct), valueOf, requireThree_three]
    have notGrid : ¬ isGrid members = true := by
      rwa [isGrid_iff, names]
    simp only [bind, Except.bind, if_neg notGrid, areMembers.read]
    rw [OrderedMap.ofList_of_nodup backsDistinct]
    rfl

/-! ## Columns -/

theorem withoutNulls_of_notNull (distinct : (tags.map (·.1)).Nodup)
    (notNull : ∀ tag ∈ tags, tag.2 ≠ .null) : withoutNulls tags = ⟨tags⟩ := by
  have kept : tags.filter (fun tag => !tag.2.isNull) = tags := by
    rw [List.filter_eq_self]
    intro tag member
    have other : ¬ tag.2.isNull = true := fun isNull => notNull tag member (Value.isNull_iff.mp isNull)
    simpa using other
  rw [withoutNulls, kept, OrderedMap.ofList_of_nodup distinct]

theorem exists_columnItemTrees {items : List (String × Metadata)} (keeps : KeepsKind related)
    (names : ∀ item ∈ items, "name" ∉ item.2.keys)
    (notNull : ∀ item ∈ items, ∀ held ∈ item.2.values, held ≠ .null)
    (distinct : ∀ item ∈ items, item.2.Distinct)
    (rereads : ∀ item ∈ items, ∀ held ∈ item.2.values, Rereads related held)
    (atLeast : version.IsAtLeastThree) :
    ∃ trees backs, columnItemTrees items version = .ok trees ∧ (∀ tree ∈ trees, tree.IsTextual) ∧
      columnItems trees .three = backs.map .ok ∧ ColumnsRelated related backs items := by
  induction items with
  | nil => exact ⟨[], [], rfl, List.forall_mem_nil _, rfl, .nil⟩
  | cons item items ih =>
      obtain ⟨name, metadata⟩ := item
      rw [List.forall_mem_cons] at names notNull distinct rereads
      obtain ⟨members, tags, made, areMembers, relates⟩ := exists_membersOf rereads.1 atLeast
      obtain ⟨trees, backs, others, textual, read, columnsRelated⟩ :=
        ih names.2 notNull.2 distinct.2 rereads.2
      have memberNames : members.map (·.1) = metadata.keys :=
        areMembers.names.trans (OrderedMap.keys_eq_of_forall₂ relates)
      have fresh : "name" ∉ members.map (·.1) := memberNames ▸ names.1
      have objectDistinct : ((("name", Tree.string name) :: members).map (·.1)).Nodup :=
        List.nodup_cons.mpr ⟨fresh, memberNames ▸ distinct.1⟩
      have kept : withoutNulls tags = ⟨tags⟩ := by
        refine withoutNulls_of_notNull (relates.distinct distinct.1) fun tag member isNull => ?_
        obtain ⟨held, inItems, _, isRelated⟩ := Pairing.exists_mem_of_forall₂ relates member
        rw [isNull] at isRelated
        exact notNull.1 held.2 (List.mem_map_of_mem inItems) (null_of_related keeps isRelated)
      refine ⟨.object ⟨("name", .string name) :: members⟩ :: trees, (name, ⟨tags⟩) :: backs, ?_, ?_, ?_,
        .cons ⟨rfl, relates⟩ columnsRelated⟩
      · rw [columnItemTrees, made, others, ← OrderedMap.ofList_of_nodup objectDistinct]
        rfl
      · refine List.forall_mem_cons.mpr ⟨.object _ objectDistinct fun tree member => ?_, textual⟩
        rcases List.mem_cons.mp member with rfl | inMembers
        · exact .string name
        · obtain ⟨held, inside, rfl⟩ := List.mem_map.mp inMembers
          exact areMembers.textual held inside
      · rw [columnItems, read, List.map_cons, columnOf, tagsOf_cons fresh, areMembers.read]
        simp only [columnName, OrderedMap.get?_cons, if_pos, bind, Except.bind, kept]
        rfl

/-! ## Rows -/

/-- The tags of a row that columns declare, in the order of the columns. -/
def shownTags (names : List String) (row : Entity) : Entity := .ofCells names (names.map row.get?)

theorem cellTrees_eq (items : List (String × Value)) :
    cellTrees items version = items.map fun item => (item.1, treeOf item.2 version) := by
  induction items with
  | nil => rfl
  | cons item items ih => rw [cellTrees, ih, List.map_cons]

/-- The tree of a row is that of the tags that are shown. -/
theorem rowTree_eq (names : List String) (row : Entity) :
    rowTree names (cellTrees row.items version) =
      (memberItemsOf (shownTags names row).items version).map fun members => .object (.ofList members) := by
  have each : (names.filter fun name => ((cellTrees row.items version).lookup name).isSome).mapM
      (fun name => do
        let tree ← ((cellTrees row.items version).lookup name).getD (.ok .null)
        pure (name, tree)) = memberItemsOf (shownTags names row).items version := by
    induction names with
    | nil => rfl
    | cons name names ih =>
        have found : (cellTrees row.items version).lookup name =
            (row.get? name).map (treeOf · version) := by
          rw [cellTrees_eq]
          exact OrderedMap.lookup_map row.items (treeOf · version) name
        rw [shownTags, List.map_cons, OrderedMap.items_ofCells_cons, ← shownTags, List.filter_cons,
          found]
        cases present : row.get? name with
        | none => simpa using ih
        | some held =>
            simp only [Option.map_some, Option.isSome_some, if_true, List.mapM_cons, found, present,
              Option.getD_some, ih, Option.toList_some, List.singleton_append, memberItemsOf]
            cases treeOf held version <;> rfl
  rw [rowTree, each]
  rfl

theorem distinct_shownTags {names : List String} (distinct : names.Nodup) (row : Entity) :
    (shownTags names row).Distinct :=
  OrderedMap.distinct_ofCells distinct _

theorem get?_shownTags {names : List String} {row : Entity} (distinct : names.Nodup)
    (declared : ∀ name ∈ row.keys, name ∈ names) (key : String) :
    (shownTags names row).get? key = row.get? key := by
  by_cases isName : key ∈ names
  · have related : List.Forall₂ (fun name cell => cell = row.get? name) names (names.map row.get?) := by
      rw [List.forall₂_map_right_iff, List.forall₂_same]
      exact fun _ _ => rfl
    exact OrderedMap.forall_get?_ofCells distinct related key isName
  · have absent : row.get? key = none := OrderedMap.get?_eq_none_iff.mpr (isName <| declared key ·)
    rw [absent]
    exact OrderedMap.get?_ofCells_of_not_mem isName _

theorem withoutNulls_eq (distinct : (tags.map (·.1)).Nodup) :
    withoutNulls tags = ⟨tags.filter fun tag => !tag.2.isNull⟩ :=
  OrderedMap.ofList_of_nodup ((List.filter_sublist.map _).nodup distinct)

theorem distinct_withoutNulls (distinct : (tags.map (·.1)).Nodup) : (withoutNulls tags).Distinct := by
  rw [withoutNulls_eq distinct]
  exact (List.filter_sublist.map _).nodup distinct

/-- Dropping nulls does not change what stands under a name. -/
theorem valueOf_withoutNulls (distinct : (tags.map (·.1)).Nodup) (key : String) :
    Entity.valueOf (withoutNulls tags) key = Entity.valueOf ⟨tags⟩ key := by
  rw [withoutNulls_eq distinct]
  induction tags with
  | nil => rfl
  | cons tag tags ih =>
      obtain ⟨name, held⟩ := tag
      rw [List.map_cons, List.nodup_cons] at distinct
      have others := ih distinct.2
      unfold Entity.valueOf at others ⊢
      rw [OrderedMap.get?_cons]
      by_cases isNull : held = .null
      · subst isNull
        rw [List.filter_cons_of_neg (by simp [Value.isNull]), others]
        by_cases same : key = name
        · subst same
          have absent : (⟨tags⟩ : Entity).get? key = none :=
            OrderedMap.get?_eq_none_iff.mpr distinct.1
          rw [absent, if_pos rfl]
          rfl
        · rw [if_neg same]
      · rw [List.filter_cons_of_pos (by simpa [← Value.isNull_iff] using isNull), OrderedMap.get?_cons]
        by_cases same : key = name
        · rw [if_pos same, if_pos same]
        · rw [if_neg same, if_neg same, others]

/-- A row comes back with what its tags that columns declare come back as, less their nulls. -/
def RowRelated (related : Value → Value → Prop) (names : List String) (row back : Entity) : Prop :=
  ∃ tags, TagsRelated related tags (shownTags names row).items ∧ back = withoutNulls tags

theorem exists_rowTree {names : List String} {row : Entity} (distinct : names.Nodup)
    (rereads : ∀ held ∈ row.values, Rereads related held) (atLeast : version.IsAtLeastThree) :
    ∃ tree back, rowTree names (cellTrees row.items version) = .ok tree ∧ tree.IsTextual ∧
      rowOf tree .three = .ok back ∧ RowRelated related names row back := by
  have shownDistinct := distinct_shownTags distinct row
  have shownRereads : ∀ held ∈ (shownTags names row).values, Rereads related held := by
    intro held member
    have inCells := OrderedMap.mem_of_mem_values_ofCells member
    obtain ⟨name, _, found⟩ := List.mem_map.mp inCells
    exact rereads held (OrderedMap.mem_values_of_get? found)
  obtain ⟨members, tags, made, areMembers, relates⟩ := exists_membersOf shownRereads atLeast
  have tagsDistinct : (⟨tags⟩ : Entity).Distinct := relates.distinct shownDistinct
  have membersDistinct : (members.map (·.1)).Nodup := areMembers.names ▸ tagsDistinct
  refine ⟨.object ⟨members⟩, withoutNulls tags, ?_, ?_, ?_, tags, relates, rfl⟩
  · change memberItemsOf (shownTags names row).items version = .ok members at made
    rw [rowTree_eq, made, ← OrderedMap.ofList_of_nodup membersDistinct]
    rfl
  · have textual := areMembers.isTextual tagsDistinct
    rwa [OrderedMap.ofList_of_nodup membersDistinct] at textual
  · rw [rowOf, areMembers.read]
    rfl

theorem rowTrees_eq (rows : List Entity) :
    rowTrees rows version = rows.map fun row => cellTrees row.items version := by
  induction rows with
  | nil => rfl
  | cons row rows ih =>
      obtain ⟨items⟩ := row
      rw [rowTrees, ih]
      rfl

theorem rowItems_ok {trees : List Tree} {backs : List Entity} {dialect : Version}
    (read : List.Forall₂ (fun tree back => rowOf tree dialect = .ok back) trees backs) :
    rowItems trees dialect = backs.map .ok := by
  induction read with
  | nil => rfl
  | cons here _ ih => rw [rowItems, here, ih, List.map_cons]

/-- The rows come back in order. -/
theorem exists_rowTrees {names : List String} {rows : List Entity} (distinct : names.Nodup)
    (rereads : ∀ row ∈ rows, ∀ held ∈ row.values, Rereads related held)
    (atLeast : version.IsAtLeastThree) :
    ∃ trees backs, (rowTrees rows version).mapM (rowTree names) = .ok trees ∧
      (∀ tree ∈ trees, tree.IsTextual) ∧ rowItems trees .three = backs.map .ok ∧
      List.Forall₂ (RowRelated related names) rows backs := by
  have each : ∀ row ∈ rows, ∃ tree back, rowTree names (cellTrees row.items version) = .ok tree ∧
      (tree.IsTextual ∧ rowOf tree .three = .ok back) ∧ RowRelated related names row back := by
    intro row member
    obtain ⟨tree, back, made, textual, read, relates⟩ :=
      exists_rowTree distinct (rereads row member) atLeast
    exact ⟨tree, back, made, ⟨textual, read⟩, relates⟩
  obtain ⟨trees, backs, made, areTrees, relates⟩ := Pairing.exists_mapM each
  refine ⟨trees, backs, ?_, ?_, rowItems_ok (areTrees.imp fun _ _ isTree => isTree.2), relates⟩
  · rwa [rowTrees_eq, List.mapM_map]
  · intro tree member
    obtain ⟨_, _, textual, _⟩ := Pairing.exists_mem_of_forall₂ areTrees member
    exact textual

/-! ## Near rows -/

/-- A row whose tags all have columns comes back near to itself. -/
theorem RowRelated.near {names : List String} {row back : Entity}
    (relates : RowRelated (fun back value => Value.near back value = true) names row back)
    (distinct : names.Nodup) (rowDistinct : row.Distinct) (declared : ∀ name ∈ row.keys, name ∈ names) :
    back.Distinct ∧ Value.nearEntity back row = true := by
  obtain ⟨tags, near, rfl⟩ := relates
  have shownDistinct := distinct_shownTags distinct row
  have tagsDistinct : (⟨tags⟩ : Entity).Distinct := near.distinct shownDistinct
  have nearShown : Value.nearEntity ⟨tags⟩ (shownTags names row) = true :=
    Value.nearEntity_of_agrees tagsDistinct shownDistinct (Value.TagsNear.agrees near)
  refine ⟨distinct_withoutNulls tagsDistinct, ?_⟩
  rw [Value.nearEntity_iff (distinct_withoutNulls tagsDistinct) rowDistinct]
  intro key
  rw [Value.nearEntity_iff tagsDistinct shownDistinct] at nearShown
  have here := nearShown key
  rwa [← valueOf_withoutNulls tagsDistinct, Entity.valueOf, Entity.valueOf,
    get?_shownTags distinct declared] at here

end Haystack.Json
