import Haystack.Proofs.Filter.RoundTrip
import Haystack.Proofs.Sql.Following
import Std.Data.String.ToNat

/-!
What is selected, compared with what a filter keeps.

A statement of PostgreSQL joins the rows along a path, so that a row from which a path cannot be
followed is selected by no test of it, one that a tag is missing included. Where such tests are of
single tags, the entities selected are those of the rows that the filter keeps.
-/
namespace Haystack.Sql

/-! ## Joins -/

/-- A row is stored for the customer, for a span of time with the instant asked for. -/
structure Source.Stores (source : Source) (version : Version) (row : Entity) (stored : Stored) : Prop where
  admitted : stored.IsAdmitted source
  entity : Json.entityTree row version = .ok stored.entity

/-- The table has the rows as they are stored, and no others. -/
structure Source.Keeps (source : Source) (version : Version) (table : List Stored) (rows : List Entity) : Prop where
  all : ∀ row ∈ rows, ∃ stored ∈ table, source.Stores version row stored
  only : ∀ stored ∈ table, ∃ row ∈ rows, source.Stores version row stored

section Joins

variable {source : Source} {version : Version} {tables : Tables} {grid : Grid} {entity last : Entity} {stored : Stored}
  {rows final : Named} {row used : Nat} {steps : List String}

theorem Named.find?_add (rows : Named) (number other : Nat) (stored : Stored) :
    (rows.add (rowName number) stored).find? (rowName other) =
      if other = number then some stored else rows.find? (rowName other) := by
  have same : rowName other = rowName number ↔ other = number := by
    rw [rowName, rowName, String.append_right_inj, Nat.repr_inj]
  simp only [add, same]

theorem Named.find?_add_self (rows : Named) (name : String) (stored : Stored) :
    (rows.add name stored).find? name = some stored :=
  if_pos rfl

/-- A row is joined to another if the reference leads to it. -/
theorem satisfies_joinedOf (dialect : source.dialect = .postgres) (flat : grid.IsFlat) (member : entity ∈ grid.rows)
    (stores : source.Stores version entity stored) (found : rows.find? (rowName row) = some stored) (inside : row ≤ used)
    {next : Entity} (nextMember : next ∈ grid.rows) {other : Stored} (nextStores : source.Stores version next other)
    (tag : String) : (rows.add (rowName (used + 1)) other).Satisfies (source.joinedOf ⟨used + 1, ⟨row, tag⟩⟩).on ↔
      grid.follow entity tag = some next := by
  have here := rows.find?_add_self (rowName (used + 1)) other
  have before : (rows.add (rowName (used + 1)) other).find? (rowName row) = some stored := by
    rw [Named.find?_add, if_neg (by omega), found]
  have isJoined := @Named.satisfies_on _ source ⟨used + 1, ⟨row, tag⟩⟩ _ _ dialect here nextStores.admitted before
  exact isJoined.trans (follow_eq_some_iff flat member nextMember stores.entity nextStores.entity)

theorem mem_joined_cons {join : Joined} {joins : List Joined} : final ∈ joined tables (join :: joins) rows ↔
    ∃ stored ∈ tables join.table, (rows.add join.name stored).Satisfies join.on ∧
      final ∈ joined tables joins (rows.add join.name stored) := by
  rw [joined, List.mem_flatMap]
  refine exists_congr fun stored => and_congr_right fun _ => ?_
  dsimp only
  split
  · next holds => exact (and_iff_right holds).symm
  · next fails => exact iff_of_false List.not_mem_nil fun ⟨holds, _⟩ => fails holds

theorem endRow_cons (tag : String) (steps : List String) :
    endRow row used (tag :: steps) = endRow (used + 1) (used + 1) steps := by
  cases steps with
  | nil => rfl
  | cons next steps =>
      simp only [endRow, List.isEmpty_cons, List.length_cons, Bool.false_eq_true, if_false]
      omega

/-- What is joined along tags ends with the row that they lead to, and keeps the rows before. -/
theorem exists_of_mem_joined (dialect : source.dialect = .postgres) (flat : grid.IsFlat)
    (keeps : source.Keeps version (tables source.table) grid.rows) (member : entity ∈ grid.rows)
    (stores : source.Stores version entity stored) (found : rows.find? (rowName row) = some stored) (inside : row ≤ used)
    (isJoined : final ∈ joined tables ((joinsAlong row (used + 1) steps).map source.joinedOf) rows) :
    (∃ last own, grid.followAll entity steps = some last ∧ last ∈ grid.rows ∧ source.Stores version last own ∧
      final.find? (rowName (endRow row used steps)) = some own) ∧
      ∀ number ≤ used, final.find? (rowName number) = rows.find? (rowName number) := by
  induction steps generalizing row used rows entity stored with
  | nil =>
      obtain rfl := List.mem_singleton.mp isJoined
      exact ⟨⟨entity, stored, rfl, member, stores, found⟩, fun _ _ => rfl⟩
  | cons tag steps ih =>
      obtain ⟨other, isRow, satisfies, isJoined⟩ := mem_joined_cons.mp isJoined
      obtain ⟨next, nextMember, nextStores⟩ := keeps.only other isRow
      have leads := (satisfies_joinedOf dialect flat member stores found inside nextMember nextStores tag).mp satisfies
      have here := rows.find?_add_self (rowName (used + 1)) other
      obtain ⟨ends, before⟩ := ih nextMember nextStores here le_rfl isJoined
      refine ⟨?_, fun number small => ?_⟩
      · rw [endRow_cons, GridOf.followAll, leads]
        exact ends
      · have same := Named.find?_add rows (used + 1) number other
        rw [if_neg (by omega)] at same
        exact (before number (by omega)).trans same

/-- Where tags lead to a row, it is joined. -/
theorem exists_mem_joined (dialect : source.dialect = .postgres) (flat : grid.IsFlat)
    (keeps : source.Keeps version (tables source.table) grid.rows) (member : entity ∈ grid.rows)
    (stores : source.Stores version entity stored) (found : rows.find? (rowName row) = some stored) (inside : row ≤ used)
    (leads : grid.followAll entity steps = some last) :
    ∃ final, final ∈ joined tables ((joinsAlong row (used + 1) steps).map source.joinedOf) rows := by
  induction steps generalizing row used rows entity stored with
  | nil => exact ⟨rows, List.mem_singleton_self rows⟩
  | cons tag steps ih =>
      obtain ⟨next, follows, leads⟩ := Option.bind_eq_some_iff.mp leads
      have nextMember := GridOf.mem_of_follow flat member follows
      obtain ⟨other, isRow, nextStores⟩ := keeps.all next nextMember
      have satisfies := (satisfies_joinedOf dialect flat member stores found inside nextMember nextStores tag).mpr follows
      have here := rows.find?_add_self (rowName (used + 1)) other
      obtain ⟨final, isJoined⟩ := ih nextMember nextStores here le_rfl leads
      refine ⟨final, ?_⟩
      rw [joinsAlong, List.map_cons, mem_joined_cons]
      exact ⟨other, isRow, satisfies, isJoined⟩

end Joins

/-! ## Statements -/

section Statements

variable {source : Source} {version : Version} {tables : Tables} {grid : Grid} {condition : Condition} {text : String}

/-- A select gives the entities of the rows from which the tags lead to a row that the test holds of. -/
theorem mem_entities (dialect : source.dialect = .postgres) (flat : grid.IsFlat)
    (keeps : source.Keeps version (tables source.table) grid.rows) {first : Nat} {steps : List String} {test : Test}
    {items : List Item} (asks : test.Asks (endRow first first steps)) (tests : source.Tests first (some test) items)
    (tree : Json.Tree) : tree ∈ Block.entities tables ⟨rowName first, source.table, rowName first,
        (joinsAlong first (first + 1) steps).map source.joinedOf, items⟩ ↔
      ∃ row ∈ grid.rows, Json.entityTree row version = .ok tree ∧
        (grid.followAll row steps).any (fun last => test.holds last.contains) = true := by
  have start := Named.empty.find?_add_self (rowName first)
  rw [Block.entities, List.mem_flatMap]
  constructor
  · rintro ⟨stored, isRow, selected⟩
    obtain ⟨final, isJoined, selected⟩ := List.mem_filterMap.mp selected
    obtain ⟨row, member, stores⟩ := keeps.only stored isRow
    obtain ⟨⟨last, own, leads, lastMember, ownStores, found⟩, before⟩ :=
      exists_of_mem_joined dialect flat keeps member stores (start stored) le_rfl isJoined
    have here := (before first le_rfl).trans (start stored)
    split at selected
    · next satisfies =>
      rw [here] at selected
      obtain rfl := Option.some.inj selected
      have holds := (Named.satisfies_tests dialect here stores.admitted found asks tests).mp satisfies
      rw [Stored.hasKey_eq (flat.rows last lastMember).distinct ownStores.entity] at holds
      refine ⟨row, member, stores.entity, ?_⟩
      rwa [leads, Option.any_some]
    · exact nomatch selected
  · rintro ⟨row, member, isTree, reaches⟩
    obtain ⟨stored, isRow, stores⟩ := keeps.all row member
    obtain rfl := Except.ok.inj (isTree.symm.trans stores.entity)
    cases leads : grid.followAll row steps with
    | none =>
        rw [leads] at reaches
        exact nomatch reaches
    | some last =>
        rw [leads, Option.any_some] at reaches
        obtain ⟨final, isJoined⟩ := exists_mem_joined dialect flat keeps member stores (start stored) le_rfl leads
        obtain ⟨⟨other, own, alsoLeads, lastMember, ownStores, found⟩, before⟩ :=
          exists_of_mem_joined dialect flat keeps member stores (start stored) le_rfl isJoined
        obtain rfl := Option.some.inj (leads.symm.trans alsoLeads)
        have here := (before first le_rfl).trans (start stored)
        rw [← Stored.hasKey_eq (flat.rows last lastMember).distinct ownStores.entity] at reaches
        have satisfies := (Named.satisfies_tests dialect here stores.admitted found asks tests).mpr reaches
        refine ⟨stored, isRow, List.mem_filterMap.mpr ⟨final, isJoined, ?_⟩⟩
        rw [if_pos satisfies, here, Option.map_some]

/-- The query of a plan gives the entities of the rows whose paths can be followed as the plan asks. -/
theorem exists_queryFrom (dialect : source.dialect = .postgres) (flat : grid.IsFlat)
    (keeps : source.Keeps version (tables source.table) grid.rows) {plan : Plan} (isPresence : plan.IsPresence)
    (first : Nat) : ∃ query used, queryFrom first plan = .ok (query, used) ∧
      ∀ reading, source.Reads query reading → ∀ tree, reading.Selects tables tree ↔
        ∃ row ∈ grid.rows, Json.entityTree row version = .ok tree ∧ plan.follows grid row = true := by
  induction plan generalizing first with
  | rows test =>
      obtain ⟨steps, made, used, isMade, asks, follows⟩ := exists_prepare isPresence first
      refine ⟨.select ⟨first, joinsAlong first (first + 1) steps, some made⟩, used, ?_, fun reading reads tree => ?_⟩
      · rw [queryFrom, Outcome.bind_ok isMade]
        rfl
      · cases reads with
        | select _ tests =>
            simp only [Plan.follows, follows]
            exact mem_entities dialect flat keeps asks tests tree
  | intersect left right leftIh rightIh =>
      obtain ⟨one, between, isLeft, leftSelects⟩ := leftIh isPresence.1 first
      obtain ⟨other, used, isRight, rightSelects⟩ := rightIh isPresence.2 (between + 1)
      refine ⟨.intersect one other, used, ?_, fun reading reads tree => ?_⟩
      · rw [queryFrom, Outcome.bind_ok isLeft]
        dsimp only
        rw [Outcome.bind_ok isRight]
        rfl
      · cases reads with
        | intersect isFirst isSecond =>
            rw [Reading.Selects, leftSelects _ isFirst, rightSelects _ isSecond]
            constructor
            · rintro ⟨⟨row, member, isTree, follows⟩, ⟨next, nextMember, nextTree, alsoFollows⟩⟩
              obtain rfl := eq_of_entityTree flat member nextMember isTree nextTree
              exact ⟨row, member, isTree, Bool.and_eq_true_iff.mpr ⟨follows, alsoFollows⟩⟩
            · rintro ⟨row, member, isTree, follows⟩
              obtain ⟨onLeft, onRight⟩ := Bool.and_eq_true_iff.mp follows
              exact ⟨⟨row, member, isTree, onLeft⟩, ⟨row, member, isTree, onRight⟩⟩
  | union left right leftIh rightIh =>
      obtain ⟨one, between, isLeft, leftSelects⟩ := leftIh isPresence.1 first
      obtain ⟨other, used, isRight, rightSelects⟩ := rightIh isPresence.2 (between + 1)
      refine ⟨.union one other, used, ?_, fun reading reads tree => ?_⟩
      · rw [queryFrom, Outcome.bind_ok isLeft]
        dsimp only
        rw [Outcome.bind_ok isRight]
        rfl
      · cases reads with
        | union isFirst isSecond =>
            rw [Reading.Selects, leftSelects _ isFirst, rightSelects _ isSecond]
            simp only [Plan.follows, Bool.or_eq_true, and_or_left, exists_or]

/-- A blank text is no condition. -/
theorem trim_ne_nil (isCondition : Condition.read (String.ofList (Text.trim text.toList)) = .ok condition) :
    Text.trim text.toList ≠ [] := by
  obtain ⟨filter, read, _⟩ := Outcome.of_bind isCondition
  simpa using Filter.nonempty_of_read read

theorem ofFilter_of_read (isCondition : Condition.read (String.ofList (Text.trim text.toList)) = .ok condition) :
    Query.ofFilter text = Query.ofPlan (.ofCondition condition) := by
  have some : (Text.trim text.toList).isEmpty = false := List.isEmpty_eq_false_iff.mpr (trim_ne_nil isCondition)
  obtain ⟨filter, read, denotes⟩ := Outcome.of_bind isCondition
  simp only [Query.ofFilter, some, Bool.false_eq_true, if_false]
  rw [Outcome.bind_ok read, Outcome.bind_ok denotes]

theorem filter_of_read (isCondition : Condition.read text = .ok condition)
    (trimmed : Condition.read (String.ofList (Text.trim text.toList)) = .ok condition) :
    grid.filter text none = .ok (grid.withRows (grid.rows.filter (condition.holds grid))) := by
  have some : Text.isAllBlank text.toList = false := by
    refine Bool.eq_false_iff.mpr fun blank => trim_ne_nil trimmed ?_
    rw [Text.trim, Text.trimStart, List.dropWhile_eq_nil_iff.mpr (List.all_eq_true.mp blank)]
    rfl
  rw [GridOf.filter, GridOf.filterBy, some, if_neg Bool.false_ne_true, Outcome.bind_ok isCondition,
    GridOf.satisfying, GridOf.firstKept_eq]
  rfl

theorem nonempty_of_read (isCondition : Condition.read text = .ok condition) :
    ∀ path ∈ condition.paths, path.segments ≠ [] := by
  obtain ⟨filter, read, isCondition⟩ := Outcome.of_bind isCondition
  obtain ⟨denoted, rfl, isDenoted⟩ := Filter.isDenoted_of_read read
  obtain rfl := Except.ok.inj (denoted.condition_filter.symm.trans isCondition)
  exact fun path member => (isDenoted.named path member).nonempty

/-- What the statement of a condition on what is there selects. -/
theorem exists_selects (dialect : source.dialect = .postgres) (plain : IsPlainName source.table) (flat : grid.IsFlat)
    (keeps : source.Keeps version (tables source.table) grid.rows)
    (isCondition : Condition.read (String.ofList (Text.trim text.toList)) = .ok condition)
    (isPresence : condition.IsPresence) : ∃ statement reading,
      source.statement text none = .ok statement ∧ read? statement = some (reading, none) ∧
      ∀ tree, reading.Selects tables tree ↔
        ∃ row ∈ grid.rows, Json.entityTree row version = .ok tree ∧ condition.follows grid row = true := by
  obtain ⟨planned, follows⟩ := Plan.follows_ofCondition isPresence
  obtain ⟨query, used, made, selects⟩ := exists_queryFrom dialect flat keeps planned 1
  have isQuery : Query.ofFilter text = .ok query := by
    rw [ofFilter_of_read isCondition, Query.ofPlan, made]
    rfl
  have written : source.statement text none = .ok _ := Outcome.bind_ok isQuery
  obtain ⟨other, reading, isOther, reads, read⟩ := Source.exists_read? plain written
  obtain rfl := Except.ok.inj (isQuery.symm.trans isOther)
  refine ⟨_, reading, written, read, fun tree => ?_⟩
  simpa only [follows] using selects reading reads tree

/-- The entities that the statement of a condition on what is there selects are among those of the rows
that the filter keeps, and are all of them where tags are missed in the row itself. -/
theorem selects_of_filter (dialect : source.dialect = .postgres) (plain : IsPlainName source.table) (flat : grid.IsFlat)
    (keeps : source.Keeps version (tables source.table) grid.rows) (isCondition : Condition.read text = .ok condition)
    (trimmed : Condition.read (String.ofList (Text.trim text.toList)) = .ok condition)
    (isPresence : condition.IsPresence) : ∃ statement reading kept,
      source.statement text none = .ok statement ∧ read? statement = some (reading, none) ∧
      grid.filter text none = .ok kept ∧
      (∀ tree, reading.Selects tables tree → ∃ row ∈ kept.rows, Json.entityTree row version = .ok tree) ∧
      (condition.MissesTags →
        ∀ tree, (∃ row ∈ kept.rows, Json.entityTree row version = .ok tree) → reading.Selects tables tree) := by
  obtain ⟨statement, reading, written, read, selects⟩ :=
    exists_selects dialect plain flat keeps trimmed isPresence
  have some := nonempty_of_read isCondition
  refine ⟨statement, reading, _, written, read, filter_of_read isCondition trimmed, fun tree isSelected => ?_,
    fun misses tree ⟨row, isKept, isTree⟩ => ?_⟩
  · obtain ⟨row, member, isTree, follows⟩ := (selects tree).mp isSelected
    have holds := Condition.holds_of_follows flat member some follows
    exact ⟨row, List.mem_filter.mpr ⟨member, holds⟩, isTree⟩
  · obtain ⟨member, holds⟩ := List.mem_filter.mp isKept
    have follows := Condition.follows_of_holds flat member some isPresence misses holds
    exact (selects tree).mpr ⟨row, member, isTree, follows⟩

/-- A row and one that it refers to. -/
def sites : Grid := ⟨.three, false, .empty, .empty,
  [⟨[("id", .ref ⟨"x", none⟩), ("a", .ref ⟨"y", none⟩)]⟩, ⟨[("id", .ref ⟨"y", none⟩), ("b", .marker)]⟩]⟩

/-- The rows as they are stored. -/
def storedSites : List Stored :=
  [⟨"acme", fun _ => true, fun _ => true, .object ⟨[("id", .string "r:x"), ("a", .string "r:y")]⟩⟩,
    ⟨"acme", fun _ => true, fun _ => true, .object ⟨[("id", .string "r:y"), ("b", .string "m:")]⟩⟩]

theorem isFlat_sites : sites.IsFlat := by
  have x : Entity.IsFlat ⟨[("id", .ref ⟨"x", none⟩), ("a", .ref ⟨"y", none⟩)]⟩ :=
    ⟨by decide, rfl, by decide, by decide⟩
  have y : Entity.IsFlat ⟨[("id", .ref ⟨"y", none⟩), ("b", .marker)]⟩ := ⟨by decide, rfl, by decide, by decide⟩
  exact ⟨List.forall_mem_cons.mpr ⟨x, List.forall_mem_singleton.mpr y⟩, by decide⟩

theorem keeps_sites : (Source.mk .postgres "haystack" "acme" 0).Keeps .latest storedSites sites.rows := by
  have x : (Source.mk .postgres "haystack" "acme" 0).Stores .latest
      ⟨[("id", .ref ⟨"x", none⟩), ("a", .ref ⟨"y", none⟩)]⟩ storedSites[0] := ⟨⟨rfl, rfl, rfl⟩, rfl⟩
  have y : (Source.mk .postgres "haystack" "acme" 0).Stores .latest
      ⟨[("id", .ref ⟨"y", none⟩), ("b", .marker)]⟩ storedSites[1] := ⟨⟨rfl, rfl, rfl⟩, rfl⟩
  constructor
  · exact List.forall_mem_cons.mpr ⟨⟨_, List.mem_cons_self, x⟩, List.forall_mem_singleton.mpr
      ⟨_, List.mem_cons_of_mem _ List.mem_cons_self, y⟩⟩
  · exact List.forall_mem_cons.mpr ⟨⟨_, List.mem_cons_self, x⟩, List.forall_mem_singleton.mpr
      ⟨_, List.mem_cons_of_mem _ List.mem_cons_self, y⟩⟩

/-- The text of a condition is read as the condition, with or without blanks around it. -/
theorem condition_read_text {condition : Condition} (spelled : condition.filter.IsSpelled)
    (trimmed : Text.trim condition.filter.text.toList = condition.filter.text.toList) :
    Condition.read condition.filter.text = .ok condition ∧
      Condition.read (String.ofList (Text.trim condition.filter.text.toList)) = .ok condition := by
  have read : Condition.read condition.filter.text = .ok condition :=
    (Outcome.bind_ok (Filter.read_text spelled)).trans condition.condition_filter
  rw [trimmed, String.ofList_toList]
  exact ⟨read, read⟩

theorem selects_of_filter_sites :
    let acme : Source := ⟨.postgres, "haystack", "acme", 0⟩
    let condition : Condition := .and (.has ⟨["a", "b"]⟩) (.missing ⟨["c"]⟩)
    sites.IsFlat ∧ acme.Keeps .latest storedSites sites.rows ∧ ∃ statement reading kept,
      acme.statement condition.filter.text none = .ok statement ∧ read? statement = some (reading, none) ∧
      sites.filter condition.filter.text none = .ok kept ∧
      (∀ tree, reading.Selects (fun _ => storedSites) tree →
        ∃ row ∈ kept.rows, Json.entityTree row .latest = .ok tree) ∧
      (condition.MissesTags → ∀ tree, (∃ row ∈ kept.rows, Json.entityTree row .latest = .ok tree) →
        reading.Selects (fun _ => storedSites) tree) := by
  intro acme condition
  have named : Path.IsNamed ⟨["a", "b"]⟩ := ⟨by decide, by decide⟩
  have spelled : condition.filter.IsSpelled := .and _ _ (.has _ named (by decide)) (.missing _ ⟨by decide, by decide⟩)
  obtain ⟨isCondition, trimmed⟩ := condition_read_text spelled (by decide +kernel)
  have keeps : acme.Keeps .latest ((fun _ => storedSites : Tables) acme.table) sites.rows := keeps_sites
  have plain : IsPlainName acme.table := by decide
  exact ⟨isFlat_sites, keeps_sites, selects_of_filter rfl plain isFlat_sites keeps isCondition trimmed ⟨trivial, trivial⟩⟩

/-- A filter keeps the row that refers to nothing, since the path leads nowhere, but no statement for
the filter selects it. -/
theorem not_selects_unfollowed :
    let acme : Source := ⟨.postgres, "haystack", "acme", 0⟩
    let condition : Condition := .missing ⟨["a", "b"]⟩
    sites.IsFlat ∧ acme.Keeps .latest storedSites sites.rows ∧ ∃ statement reading kept tree,
      acme.statement condition.filter.text none = .ok statement ∧ read? statement = some (reading, none) ∧
      sites.filter condition.filter.text none = .ok kept ∧
      (∃ row ∈ kept.rows, Json.entityTree row .latest = .ok tree) ∧
      ¬reading.Selects (fun _ => storedSites) tree := by
  intro acme condition
  have spelled : condition.filter.IsSpelled := .missing _ ⟨by decide, by decide⟩
  obtain ⟨isCondition, trimmed⟩ := condition_read_text spelled (by decide +kernel)
  have keeps : acme.Keeps .latest ((fun _ => storedSites : Tables) acme.table) sites.rows := keeps_sites
  have plain : IsPlainName acme.table := by decide
  obtain ⟨statement, reading, written, read, selects⟩ :=
    @exists_selects acme .latest (fun _ => storedSites) sites condition _ rfl plain isFlat_sites keeps trimmed trivial
  -- No row has a path to follow to a row without the tag.
  have none (row : Entity) (member : row ∈ sites.rows) : condition.follows sites row = false := by
    rcases List.mem_cons.mp member with rfl | member
    · decide
    · obtain rfl := List.mem_singleton.mp member
      decide
  refine ⟨isFlat_sites, keeps_sites, statement, reading, _, .object ⟨[("id", .string "r:y"), ("b", .string "m:")]⟩,
    written, read, filter_of_read isCondition trimmed, ⟨sites.rows[1], ?_, rfl⟩, fun isSelected => ?_⟩
  · exact List.mem_filter.mpr ⟨List.mem_cons_of_mem _ List.mem_cons_self, by decide⟩
  · obtain ⟨row, member, _, follows⟩ := (selects _).mp isSelected
    rw [none row member] at follows
    exact nomatch follows

end Statements

end Haystack.Sql
