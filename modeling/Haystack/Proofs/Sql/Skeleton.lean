import Haystack.Proofs.Decimal
import Haystack.Proofs.Sql.Quoting
import Haystack.Sql.Statement

/-!
The shapes of queries, and the quotes in what is written for them.

A query has the shape of another if they differ in what they look for between quotes only. What is
written for it has quotes in pairs: no other piece holds one, but for the name of the table.
-/
namespace Haystack.Sql

/-! ## Shapes of tests and queries -/

def Match.shape : Match → Match
  | .container _ => .container ""
  | .stored _ => .stored ""
  | other => other

def Limit.shape : Limit → Limit
  | .str _ => .str ""
  | other => other

def Test.shape : Test → Test
  | .equal holds field value => .equal holds field value.shape
  | .ordered comparison field limit => .ordered comparison field limit.shape
  | .and left right => .and left.shape right.shape
  | .or left right => .or left.shape right.shape
  | other => other

def Select.shape (select : Select) : Select := { select with test := select.test.map Test.shape }

def Query.shape : Query → Query
  | .select one => .select one.shape
  | .intersect left right => .intersect left.shape right.shape
  | .union left right => .union left.shape right.shape

theorem Dialect.shape_equal (dialect : Dialect) (holds : Bool) (field : Field) (value : Match) :
    (dialect.equal holds field value).shape = (dialect.equal holds field value.shape).shape := by
  cases value with
  | container json => cases dialect <;> simp [equal, Match.shape]
  | stored text => simp [equal, Match.shape]
  | _ => rfl

theorem Dialect.shape_ordered (dialect : Dialect) (comparison : Comparison) (field : Field) (limit : Limit) :
    (dialect.ordered comparison field limit).shape = (dialect.ordered comparison field limit.shape).shape := by
  cases limit with
  | str s => cases dialect <;> simp [ordered, Limit.shape]
  | _ => rfl

theorem Dialect.shape_test (dialect : Dialect) (test : Test) :
    (dialect.test test).shape = (dialect.test test.shape).shape := by
  induction test with
  | equal holds field value => exact dialect.shape_equal holds field value
  | ordered comparison field limit => exact dialect.shape_ordered comparison field limit
  | and left right leftIh rightIh => simp [Dialect.test, Test.shape, leftIh, rightIh]
  | or left right leftIh rightIh => simp [Dialect.test, Test.shape, leftIh, rightIh]
  | _ => rfl

namespace Source

variable {source other : Source}

theorem shape_validity (dialect : source.dialect = other.dialect) (row : Nat) :
    (source.validity row).shape = (other.validity row).shape := by
  unfold validity
  rw [dialect]
  cases other.dialect <;> simp

theorem shape_ownership (source other : Source) (row : Nat) :
    (source.ownership row).shape = (other.ownership row).shape := by
  simp [ownership]

theorem shape_join (dialect : source.dialect = other.dialect) (table : source.table = other.table) (join : Join) :
    (source.join join).shape = (other.join join).shape := by
  simp only [Source.join, Script.shape_append, shape_validity dialect, shape_ownership source other, dialect, table]

theorem shape_joins (dialect : source.dialect = other.dialect) (table : source.table = other.table)
    (joins : List Join) :
    Script.shape (joins.flatMap source.join) = Script.shape (joins.flatMap other.join) := by
  induction joins with
  | nil => rfl
  | cons join joins ih =>
      rw [List.flatMap_cons, List.flatMap_cons, Script.shape_append, Script.shape_append,
        shape_join dialect table, ih]

theorem shape_select (dialect : source.dialect = other.dialect) (table : source.table = other.table)
    (select : Select) : (source.select select).shape = (other.select select.shape).shape := by
  obtain ⟨row, joins, test⟩ := select
  simp only [Source.select, Select.shape, Script.shape_append, shape_joins dialect table,
    shape_validity dialect, shape_ownership source other, table]
  cases test with
  | none => rfl
  | some test => simp only [Option.map_some, Script.shape_append, Dialect.shape_test _ test, dialect]

theorem isCompound_shape (query : Query) : query.shape.isCompound = query.isCompound := by
  cases query with
  | _ => rfl

theorem shape_side (dialect : source.dialect = other.dialect) {query : Query} {script rewritten : Script}
    (same : script.shape = rewritten.shape) :
    (source.side query script).shape = (other.side query.shape rewritten).shape := by
  unfold side
  rw [dialect, isCompound_shape]
  cases other.dialect with
  | postgres => simp [same]
  | sqlite => cases query.isCompound <;> simp [same]

/-- The shape of what is written for a query is that of its shape, whoever asks. -/
theorem shape_query (dialect : source.dialect = other.dialect) (table : source.table = other.table)
    (query : Query) : (source.query query).shape = (other.query query.shape).shape := by
  induction query with
  | select one => exact shape_select dialect table one
  | intersect left right leftIh rightIh =>
      simp only [Source.query, Query.shape, Script.shape_append, shape_side dialect leftIh,
        shape_side dialect rightIh]
  | union left right leftIh rightIh =>
      simp only [Source.query, Query.shape, Script.shape_append, shape_side dialect leftIh,
        shape_side dialect rightIh]

end Source

/-! ## Quotes in tests and queries -/

/-- The tags that a test names. -/
def Test.names : Test → List String
  | .present field | .absent field | .equal _ field _ | .ordered _ field _ => [field.tag]
  | .tags _ _ _ names => names
  | .and left right | .or left right => left.names ++ right.names

def Select.names (select : Select) : List String :=
  select.joins.map (·.reference.tag) ++ (select.test.map Test.names).getD []

def Query.names : Query → List String
  | .select one => one.names
  | .intersect left right | .union left right => left.names ++ right.names

/-- No name has a quote in it. -/
def Quoteless (names : List String) : Prop := ∀ name ∈ names, '\'' ∉ name.toList

theorem quoteless_append {names more : List String} :
    Quoteless (names ++ more) ↔ Quoteless names ∧ Quoteless more :=
  List.forall_mem_append

namespace Dialect

variable (dialect : Dialect) {field : Field} {script : Script}

theorem isPaired_value (quoteless : '\'' ∉ field.tag.toList) : (dialect.value field).IsPaired := by
  cases dialect with
  | postgres => simp [value, Script.isPaired_tag quoteless, IsPaired]
  | sqlite =>
      have place : (Script.tag ("$." ++ field.tag)).IsPaired := Script.isPaired_tag (by simpa using quoteless)
      simp [value, place, IsPaired]

theorem isPaired_firstWord (paired : script.IsPaired) : (dialect.firstWord script).IsPaired := by
  cases dialect <;> simp [firstWord, paired, IsPaired]

theorem isPaired_payload (quoteless : '\'' ∉ field.tag.toList) : (dialect.payload field).IsPaired := by
  cases dialect <;> simp [payload, isPaired_value _ quoteless, IsPaired]

theorem isPaired_ofKind (letter : String) (quoteless : '\'' ∉ field.tag.toList) :
    (dialect.ofKind letter field script).IsPaired ↔ script.IsPaired := by
  simp [ofKind, dialect.isPaired_value quoteless, IsPaired]

theorem isPaired_present (quoteless : '\'' ∉ field.tag.toList) : (dialect.present field).IsPaired := by
  cases dialect with
  | postgres => simp [present, Script.isPaired_tag quoteless, IsPaired]
  | sqlite => simp [present, isPaired_value _ quoteless, IsPaired]

theorem isPaired_absent (quoteless : '\'' ∉ field.tag.toList) : (dialect.absent field).IsPaired := by
  cases dialect with
  | postgres => simp [absent, Script.isPaired_tag quoteless, IsPaired]
  | sqlite => simp [absent, isPaired_value _ quoteless, IsPaired]

theorem isPaired_separated {separator : String} (paired : IsPaired separator.toList) (single : String → Script)
    {names : List String} (each : ∀ name ∈ names, (single name).IsPaired) :
    (Script.separated separator (names.map single)).IsPaired := by
  induction names with
  | nil => exact Script.isPaired_nil
  | cons name names ih =>
      obtain ⟨here, rest⟩ := List.forall_mem_cons.mp each
      cases names with
      | nil => exact here
      | cons next names => exact (here.append (Script.isPaired_code.mpr paired)).append (ih rest)

theorem isPaired_tags (row : Nat) (junction : Junction) (presence : Presence) {names : List String}
    (quoteless : Quoteless names) : (dialect.tags row junction presence names).IsPaired := by
  cases dialect with
  | postgres =>
      have listed := @isPaired_separated "," (by decide) Script.tag names fun name member =>
        Script.isPaired_tag (quoteless name member)
      cases junction <;> cases presence <;> simp [tags, arrayOperator, listed, IsPaired]
  | sqlite =>
      cases presence with
      | present =>
          have tests (name : String) (member : name ∈ names) : (sqlite.present ⟨row, name⟩).IsPaired :=
            isPaired_present _ (quoteless name member)
          have all := @isPaired_separated " AND " (by decide) _ names tests
          have any := @isPaired_separated " OR " (by decide) _ names tests
          cases junction <;> simp [tags, all, any, IsPaired]
      | absent =>
          have tests (name : String) (member : name ∈ names) : (sqlite.absent ⟨row, name⟩).IsPaired :=
            isPaired_absent _ (quoteless name member)
          have all := @isPaired_separated " AND " (by decide) _ names tests
          have any := @isPaired_separated " OR " (by decide) _ names tests
          cases junction <;> simp [tags, all, any, IsPaired]

theorem not_mem_write (x : Binary64) : '\'' ∉ (Decimal.write Decimal.plain x).toList := by
  intro member
  cases x with
  | nan => exact absurd member (by decide)
  | infinity negative => cases negative <;> exact absurd member (by decide)
  | finite negative significand exponent stored =>
      rcases (Decimal.isSigned_write Decimal.plain rfl).chars _ member with isDigit | minus | point
      · exact absurd isDigit (by decide)
      · exact absurd minus (by decide)
      · exact absurd point (by decide)

theorem isPaired_equal (holds : Bool) (value : Match) (quoteless : '\'' ∉ field.tag.toList) :
    (dialect.equal holds field value).IsPaired := by
  have found := dialect.isPaired_value quoteless
  cases holds <;> cases value with
  | null => simp [equal, found, IsPaired]
  | bool b => cases dialect <;> cases b <;> simp [equal, found, equalitySign, IsPaired]
  | ref name => simp [equal, dialect.isPaired_firstWord found, equalitySign, IsPaired]
  | magnitude stored => simp [equal, found, IsPaired]
  | container json => cases dialect <;> simp [equal, found, Script.isPaired_tag quoteless, equalitySign, IsPaired]
  | stored text => simp [equal, found, equalitySign, IsPaired]

theorem isPaired_ordered (comparison : Comparison) (limit : Limit) (quoteless : '\'' ∉ field.tag.toList) :
    (dialect.ordered comparison field limit).IsPaired := by
  have found := dialect.isPaired_value quoteless
  have payload := dialect.isPaired_payload quoteless
  have first := dialect.isPaired_firstWord payload
  have symbol : comparison.symbol.toList.count '\'' = 0 := by
    cases comparison <;> decide
  have number (x : Binary64) : (Decimal.write Decimal.plain x).toList.count '\'' = 0 :=
    List.count_eq_zero_of_not_mem (not_mem_write x)
  cases dialect <;> cases limit with
  | _ => simp [ordered, isPaired_ofKind _ _ quoteless, found, payload, first, symbol, number, IsPaired]

theorem isPaired_test {test : Test} (quoteless : Quoteless test.names) : (dialect.test test).IsPaired := by
  induction test with
  | present field => exact dialect.isPaired_present (quoteless _ List.mem_cons_self)
  | absent field => exact dialect.isPaired_absent (quoteless _ List.mem_cons_self)
  | tags row junction presence names => exact dialect.isPaired_tags row junction presence quoteless
  | equal holds field value => exact dialect.isPaired_equal holds value (quoteless _ List.mem_cons_self)
  | ordered comparison field limit =>
      exact dialect.isPaired_ordered comparison limit (quoteless _ List.mem_cons_self)
  | and left right leftIh rightIh =>
      obtain ⟨isLeft, isRight⟩ := quoteless_append.mp quoteless
      simp [Dialect.test, leftIh isLeft, rightIh isRight, IsPaired]
  | or left right leftIh rightIh =>
      obtain ⟨isLeft, isRight⟩ := quoteless_append.mp quoteless
      simp [Dialect.test, leftIh isLeft, rightIh isRight, IsPaired]

end Dialect

namespace Source

variable {source : Source}

theorem isPaired_validity (row : Nat) : (source.validity row).IsPaired := by
  unfold validity
  cases source.dialect <;> simp [IsPaired]

theorem isPaired_ownership (row : Nat) : (source.ownership row).IsPaired := by
  simp [ownership, IsPaired]

theorem isPaired_join (table : IsPaired source.table.toList) {join : Join}
    (quoteless : '\'' ∉ join.reference.tag.toList) : (source.join join).IsPaired := by
  have reference := source.dialect.isPaired_firstWord (source.dialect.isPaired_value quoteless)
  have named : '\'' ∉ "id".toList := by decide
  have id := source.dialect.isPaired_firstWord (@Dialect.isPaired_value source.dialect ⟨join.row, "id"⟩ named)
  have counted : source.table.toList.count '\'' % 2 = 0 := table
  simp [Source.join, isPaired_validity, isPaired_ownership, reference, id, counted, IsPaired]

theorem isPaired_select (table : IsPaired source.table.toList) {select : Select}
    (quoteless : Quoteless select.names) : (source.select select).IsPaired := by
  obtain ⟨row, joins, test⟩ := select
  obtain ⟨onJoins, onTest⟩ := quoteless_append.mp quoteless
  have joined : Script.IsPaired (joins.flatMap source.join) := by
    intro piece member
    obtain ⟨join, isJoin, inside⟩ := List.mem_flatMap.mp member
    exact isPaired_join table (onJoins _ (List.mem_map_of_mem isJoin)) piece inside
  have counted : source.table.toList.count '\'' % 2 = 0 := table
  cases test with
  | none => simp [Source.select, isPaired_validity, isPaired_ownership, joined, counted, IsPaired]
  | some test =>
      simp [Source.select, isPaired_validity, isPaired_ownership, joined, counted,
        source.dialect.isPaired_test onTest, IsPaired]

theorem isPaired_side (query : Query) {script : Script} (paired : script.IsPaired) :
    (source.side query script).IsPaired := by
  unfold side
  cases source.dialect with
  | postgres => simp [paired, IsPaired]
  | sqlite => cases query.isCompound <;> simp [paired, IsPaired]

/-- In what is written for a query, quotes come in pairs if they do in the name of the table. -/
theorem isPaired_query (table : IsPaired source.table.toList) {query : Query}
    (quoteless : Quoteless query.names) : (source.query query).IsPaired := by
  induction query with
  | select one => exact isPaired_select table quoteless
  | intersect left right leftIh rightIh =>
      obtain ⟨isLeft, isRight⟩ := quoteless_append.mp quoteless
      simp [Source.query, isPaired_side left (leftIh isLeft), isPaired_side right (rightIh isRight), IsPaired]
  | union left right leftIh rightIh =>
      obtain ⟨isLeft, isRight⟩ := quoteless_append.mp quoteless
      simp [Source.query, isPaired_side left (leftIh isLeft), isPaired_side right (rightIh isRight), IsPaired]

theorem isPaired_limitClause (limit : Option Nat) : (limitClause limit).IsPaired := by
  match limit with
  | none | some 0 => exact Script.isPaired_nil
  | some (count + 1) =>
      have digits : (Nat.toDigits 10 (count + 1)).count '\'' = 0 :=
        List.count_eq_zero_of_not_mem fun member =>
          absurd (Nat.isDigit_of_mem_toDigits (by omega) (by omega) member) (by decide)
      simp [limitClause, digits, IsPaired]

end Source

end Haystack.Sql
