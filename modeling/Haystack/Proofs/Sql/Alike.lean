import Haystack.Proofs.Filter.RoundTrip
import Haystack.Proofs.Sql.Skeleton
import Haystack.Proofs.Sql.Truth

/-!
Requests that differ in texts only.

Two filters are alike if one is the other with other contents of strings, URIs and MIME types. The
statements of alike requests have one skeleton, whoever the customers are: no text that comes from a
literal or a customer is read as anything but the content of a literal.
-/
namespace Haystack

inductive Value.Alike : Value → Value → Prop where
  | same (value : Value) : Alike value value
  | str (s t : String) : Alike (.str s) (.str t)
  | uri (s t : String) : Alike (.uri s) (.uri t)
  | bin (mime other : String) : Alike (.bin mime) (.bin other)
  | list {items others : List Value} (each : List.Forall₂ Alike items others) : Alike (.list items) (.list others)
  | dict {tags others : OrderedMap Value} (keys : tags.keys = others.keys)
      (each : List.Forall₂ Alike tags.values others.values) : Alike (.dict tags) (.dict others)

inductive Filter.Alike : Filter → Filter → Prop where
  | path (tags : Path) : Alike (.path tags) (.path tags)
  | value {literal other : Value} (alike : literal.Alike other) : Alike (.value literal) (.value other)
  | has {operand other : Filter} (alike : Alike operand other) : Alike (.has operand) (.has other)
  | missing {operand other : Filter} (alike : Alike operand other) : Alike (.missing operand) (.missing other)
  | compare (comparison : Comparison) {left right first second : Filter} (isLeft : Alike left first)
      (isRight : Alike right second) : Alike (.compare comparison left right) (.compare comparison first second)
  | and {left right first second : Filter} (isLeft : Alike left first) (isRight : Alike right second) :
      Alike (.and left right) (.and first second)
  | or {left right first second : Filter} (isLeft : Alike left first) (isRight : Alike right second) :
      Alike (.or left right) (.or first second)

namespace Sql

/-! ## Plans -/

inductive RowTest.Alike : RowTest → RowTest → Prop where
  | same (test : RowTest) : Alike test test
  | compare (comparison : Comparison) (path : Path) {literal other : Value} (alike : literal.Alike other) :
      Alike (.compare comparison path literal) (.compare comparison path other)
  | and {left right first second : RowTest} (isLeft : Alike left first) (isRight : Alike right second) :
      Alike (.and left right) (.and first second)
  | or {left right first second : RowTest} (isLeft : Alike left first) (isRight : Alike right second) :
      Alike (.or left right) (.or first second)

inductive Plan.Alike : Plan → Plan → Prop where
  | rows {test other : RowTest} (alike : test.Alike other) : Alike (.rows test) (.rows other)
  | intersect {left right first second : Plan} (isLeft : Alike left first) (isRight : Alike right second) :
      Alike (.intersect left right) (.intersect first second)
  | union {left right first second : Plan} (isLeft : Alike left first) (isRight : Alike right second) :
      Alike (.union left right) (.union first second)

variable {junction : Junction}

theorem RowTest.Alike.tagTests?_eq {test other : RowTest} (alike : test.Alike other) :
    test.tagTests? junction = other.tagTests? junction := by
  cases alike with
  | _ => rfl

theorem RowTest.Alike.followsPath_eq {test other : RowTest} (alike : test.Alike other) :
    test.followsPath = other.followsPath := by
  cases alike with
  | _ => rfl

theorem RowTest.Alike.merge?_eq {left right first second : RowTest} (isLeft : left.Alike first)
    (isRight : right.Alike second) : left.merge? junction right = first.merge? junction second := by
  simp only [merge?, isLeft.tagTests?_eq, isRight.tagTests?_eq]

theorem RowTest.Alike.join {left right first second : RowTest} (isLeft : left.Alike first)
    (isRight : right.Alike second) : (left.join junction right).Alike (first.join junction second) := by
  cases junction with
  | all => exact .and isLeft isRight
  | any => exact .or isLeft isRight

theorem Plan.Alike.combine {left right first second : Plan} (isLeft : left.Alike first)
    (isRight : right.Alike second) : (combine junction left right).Alike (combine junction first second) := by
  cases junction with
  | all => exact .intersect isLeft isRight
  | any => exact .union isLeft isRight

theorem Plan.Alike.join {left right first second : Plan} (isLeft : left.Alike first)
    (isRight : right.Alike second) : (left.join junction right).Alike (first.join junction second) := by
  cases isLeft with
  | rows onLeft =>
      cases isRight with
      | rows onRight =>
          simp only [Plan.join, onLeft.merge?_eq onRight, onLeft.followsPath_eq, onRight.followsPath_eq]
          split
          · exact .rows (.same _)
          · split
            · exact (Alike.rows onLeft).combine (.rows onRight)
            · exact .rows (onLeft.join onRight)
      | intersect isFirst isSecond => exact (Alike.rows onLeft).combine (.intersect isFirst isSecond)
      | union isFirst isSecond => exact (Alike.rows onLeft).combine (.union isFirst isSecond)
  | intersect isFirst isSecond => exact (Alike.intersect isFirst isSecond).combine isRight
  | union isFirst isSecond => exact (Alike.union isFirst isSecond).combine isRight

/-- Alike filters are planned alike. -/
theorem alike_ofCondition {filter other : Filter} (alike : filter.Alike other) {condition similar : Condition}
    (isCondition : filter.condition = .ok condition) (isSimilar : other.condition = .ok similar) :
    (Plan.ofCondition condition).Alike (.ofCondition similar) := by
  induction alike generalizing condition similar with
  | path tags =>
      obtain rfl := Except.ok.inj (isCondition.symm.trans isSimilar)
      obtain rfl := Except.ok.inj isCondition
      exact .rows (.same _)
  | value literals => exact nomatch isCondition
  | has operands =>
      cases operands with
      | path tags =>
          obtain rfl := Except.ok.inj isCondition
          obtain rfl := Except.ok.inj isSimilar
          exact .rows (.same _)
      | _ => exact nomatch isCondition
  | missing operands =>
      cases operands with
      | path tags =>
          obtain rfl := Except.ok.inj isCondition
          obtain rfl := Except.ok.inj isSimilar
          exact .rows (.same _)
      | _ => exact nomatch isCondition
  | compare comparison isLeft isRight =>
      cases isLeft with
      | path tags =>
          cases isRight with
          | value literals =>
              obtain rfl := Except.ok.inj isCondition
              obtain rfl := Except.ok.inj isSimilar
              exact .rows (.compare comparison tags literals)
          | _ => exact nomatch isCondition
      | _ => exact nomatch isCondition
  | and isLeft isRight leftIh rightIh | or isLeft isRight leftIh rightIh =>
      obtain ⟨first, isFirst, isCondition⟩ := Outcome.of_bind isCondition
      obtain ⟨second, isSecond, isCondition⟩ := Outcome.of_bind isCondition
      obtain ⟨third, isThird, isSimilar⟩ := Outcome.of_bind isSimilar
      obtain ⟨fourth, isFourth, isSimilar⟩ := Outcome.of_bind isSimilar
      obtain rfl := Except.ok.inj isCondition
      obtain rfl := Except.ok.inj isSimilar
      exact (leftIh isFirst isThird).join (rightIh isSecond isFourth)

/-! ## Queries -/

/-- Alike literals are looked for alike. -/
theorem shape_matchOf {literal other : Value} (alike : literal.Alike other) {value similar : Match}
    (isValue : matchOf literal = .ok value) (isSimilar : matchOf other = .ok similar) :
    value.shape = similar.shape := by
  cases alike with
  | same => rw [Except.ok.inj (isValue.symm.trans isSimilar)]
  | str s t | uri s t | bin mime other =>
      obtain rfl := Except.ok.inj isValue
      obtain rfl := Except.ok.inj isSimilar
      rfl
  | list each | dict keys each =>
      obtain ⟨_, _, rfl⟩ := Outcome.of_map isValue
      obtain ⟨_, _, rfl⟩ := Outcome.of_map isSimilar
      rfl

theorem shape_limitOf {comparison : Comparison} {literal other : Value} (alike : literal.Alike other)
    {limit similar : Limit} (isLimit : limitOf comparison literal = .ok limit)
    (isSimilar : limitOf comparison other = .ok similar) : limit.shape = similar.shape := by
  cases alike with
  | same => rw [Except.ok.inj (isLimit.symm.trans isSimilar)]
  | str s t =>
      obtain rfl := Except.ok.inj isLimit
      obtain rfl := Except.ok.inj isSimilar
      rfl
  | _ => exact nomatch isLimit

theorem shape_compareField {comparison : Comparison} {field : Field} {literal other : Value}
    (alike : literal.Alike other) {test similar : Test} (isTest : compareField comparison field literal = .ok test)
    (isSimilar : compareField comparison field other = .ok similar) : test.shape = similar.shape := by
  cases comparison with
  | eq | ne =>
      obtain ⟨_, isValue, rfl⟩ := Outcome.of_map isTest
      obtain ⟨_, isOther, rfl⟩ := Outcome.of_map isSimilar
      rw [Test.shape, Test.shape, shape_matchOf alike isValue isOther]
  | lt | le | gt | ge =>
      obtain ⟨_, isLimit, rfl⟩ := Outcome.of_map isTest
      obtain ⟨_, isOther, rfl⟩ := Outcome.of_map isSimilar
      rw [Test.shape, Test.shape, shape_limitOf alike isLimit isOther]

def Prepared.shape (prepared : Prepared) : Prepared := { prepared with test := prepared.test.shape }

theorem shape_prepare {row used : Nat} {test other : RowTest} (alike : test.Alike other)
    {prepared similar : Prepared} (isPrepared : prepare row used test = .ok prepared)
    (isSimilar : prepare row used other = .ok similar) : prepared.shape = similar.shape := by
  induction alike generalizing used prepared similar with
  | same test => rw [Except.ok.inj (isPrepared.symm.trans isSimilar)]
  | compare comparison path literals =>
      obtain ⟨test, isTest, isPrepared⟩ := Outcome.of_bind isPrepared
      obtain ⟨other, isOther, isSimilar⟩ := Outcome.of_bind isSimilar
      obtain rfl := Except.ok.inj isPrepared
      obtain rfl := Except.ok.inj isSimilar
      simp only [Prepared.shape, Walk.prepare, shape_compareField literals isTest isOther]
  | and isLeft isRight leftIh rightIh | or isLeft isRight leftIh rightIh =>
      obtain ⟨first, isFirst, isPrepared⟩ := Outcome.of_bind isPrepared
      obtain ⟨second, isSecond, isPrepared⟩ := Outcome.of_bind isPrepared
      obtain ⟨third, isThird, isSimilar⟩ := Outcome.of_bind isSimilar
      obtain ⟨fourth, isFourth, isSimilar⟩ := Outcome.of_bind isSimilar
      obtain rfl := Except.ok.inj isPrepared
      obtain rfl := Except.ok.inj isSimilar
      obtain ⟨joins, tests, used⟩ := Prepared.mk.inj (leftIh isFirst isThird)
      rw [used] at isSecond
      obtain ⟨moreJoins, moreTests, moreUsed⟩ := Prepared.mk.inj (rightIh isSecond isFourth)
      simp only [Prepared.shape, Test.shape, joins, tests, moreJoins, moreTests, moreUsed]

/-- Alike plans take queries of one shape, over the same rows. -/
theorem shape_queryFrom {first : Nat} {plan other : Plan} (alike : plan.Alike other) {query similar : Query}
    {used taken : Nat} (isQuery : queryFrom first plan = .ok (query, used))
    (isSimilar : queryFrom first other = .ok (similar, taken)) : query.shape = similar.shape ∧ used = taken := by
  induction alike generalizing first query similar used taken with
  | rows tests =>
      obtain ⟨prepared, isPrepared, isQuery⟩ := Outcome.of_bind isQuery
      obtain ⟨again, isAgain, isSimilar⟩ := Outcome.of_bind isSimilar
      obtain ⟨rfl, rfl⟩ := Prod.mk.inj (Except.ok.inj isQuery)
      obtain ⟨rfl, rfl⟩ := Prod.mk.inj (Except.ok.inj isSimilar)
      obtain ⟨joins, shapes, used⟩ := Prepared.mk.inj (shape_prepare tests isPrepared isAgain)
      exact ⟨by simp only [Query.shape, Select.shape, Option.map_some, joins, shapes], used⟩
  | intersect isLeft isRight leftIh rightIh | union isLeft isRight leftIh rightIh =>
      obtain ⟨⟨_, _⟩, isFirst, isQuery⟩ := Outcome.of_bind isQuery
      obtain ⟨⟨_, _⟩, isSecond, isQuery⟩ := Outcome.of_bind isQuery
      obtain ⟨⟨_, _⟩, isThird, isSimilar⟩ := Outcome.of_bind isSimilar
      obtain ⟨⟨_, _⟩, isFourth, isSimilar⟩ := Outcome.of_bind isSimilar
      obtain ⟨rfl, rfl⟩ := Prod.mk.inj (Except.ok.inj isQuery)
      obtain ⟨rfl, rfl⟩ := Prod.mk.inj (Except.ok.inj isSimilar)
      obtain ⟨lefts, rfl⟩ := leftIh isFirst isThird
      obtain ⟨rights, rfl⟩ := rightIh isSecond isFourth
      exact ⟨by rw [Query.shape, Query.shape, lefts, rights], rfl⟩

/-! ## Names -/

def Prepared.names (prepared : Prepared) : List String :=
  prepared.joins.map (·.reference.tag) ++ prepared.test.names

theorem tags_joinsAlong (row next : Nat) (steps : List String) :
    (joinsAlong row next steps).map (·.reference.tag) = steps := by
  induction steps generalizing row next with
  | nil => rfl
  | cons tag steps ih => rw [joinsAlong, List.map_cons, ih]

theorem quoteless_walk (row used : Nat) {path : Path} (quoteless : Quoteless path.segments) :
    Quoteless ((walk row used path).joins.map (·.reference.tag)) ∧
      '\'' ∉ (walk row used path).field.tag.toList := by
  constructor
  · intro name member
    rw [walk, tags_joinsAlong] at member
    exact quoteless name (List.dropLast_subset _ member)
  · obtain ⟨segments⟩ := path
    cases segments with
    | nil => exact fun member => nomatch member
    | cons first others =>
        have isLast : (first :: others).getLastD "" ∈ first :: others := by
          rw [List.getLastD_cons]
          exact List.getLastD_mem_cons ..
        exact quoteless _ isLast

theorem names_compareField {comparison : Comparison} {field : Field} {literal : Value} {test : Test}
    (isTest : compareField comparison field literal = .ok test) : test.names = [field.tag] := by
  cases comparison with
  | eq | ne | lt | le | gt | ge =>
      obtain ⟨_, _, rfl⟩ := Outcome.of_map isTest
      rfl

theorem quoteless_prepare {row used : Nat} {test : RowTest} {prepared : Prepared}
    (quoteless : Quoteless test.tagNames) (isPrepared : prepare row used test = .ok prepared) :
    Quoteless prepared.names := by
  induction test generalizing used prepared with
  | has path | missing path =>
      obtain rfl := Except.ok.inj isPrepared
      obtain ⟨onJoins, onField⟩ := quoteless_walk row used quoteless
      exact quoteless_append.mpr ⟨onJoins, List.forall_mem_singleton.mpr onField⟩
  | tags junction presence names =>
      obtain rfl := Except.ok.inj isPrepared
      exact quoteless
  | compare comparison path literal =>
      obtain ⟨test, isTest, isPrepared⟩ := Outcome.of_bind isPrepared
      obtain rfl := Except.ok.inj isPrepared
      obtain ⟨onJoins, onField⟩ := quoteless_walk row used quoteless
      refine quoteless_append.mpr ⟨onJoins, ?_⟩
      rw [Walk.prepare, names_compareField isTest]
      exact List.forall_mem_singleton.mpr onField
  | and left right leftIh rightIh | or left right leftIh rightIh =>
      obtain ⟨first, isFirst, isPrepared⟩ := Outcome.of_bind isPrepared
      obtain ⟨second, isSecond, isPrepared⟩ := Outcome.of_bind isPrepared
      obtain rfl := Except.ok.inj isPrepared
      obtain ⟨onLeft, onRight⟩ := quoteless_append.mp quoteless
      obtain ⟨leftJoins, leftTest⟩ := quoteless_append.mp (leftIh onLeft isFirst)
      obtain ⟨rightJoins, rightTest⟩ := quoteless_append.mp (rightIh onRight isSecond)
      refine quoteless_append.mpr ⟨?_, quoteless_append.mpr ⟨leftTest, rightTest⟩⟩
      rw [List.map_append]
      exact quoteless_append.mpr ⟨leftJoins, rightJoins⟩

theorem quoteless_queryFrom {first : Nat} {plan : Plan} {query : Query} {used : Nat}
    (quoteless : Quoteless plan.tagNames) (isQuery : queryFrom first plan = .ok (query, used)) :
    Quoteless query.names := by
  induction plan generalizing first query used with
  | rows test =>
      obtain ⟨prepared, isPrepared, isQuery⟩ := Outcome.of_bind isQuery
      obtain ⟨rfl, rfl⟩ := Prod.mk.inj (Except.ok.inj isQuery)
      exact quoteless_prepare quoteless isPrepared
  | intersect left right leftIh rightIh | union left right leftIh rightIh =>
      obtain ⟨⟨_, _⟩, isFirst, isQuery⟩ := Outcome.of_bind isQuery
      obtain ⟨⟨_, _⟩, isSecond, isQuery⟩ := Outcome.of_bind isQuery
      obtain ⟨rfl, rfl⟩ := Prod.mk.inj (Except.ok.inj isQuery)
      obtain ⟨onLeft, onRight⟩ := quoteless_append.mp quoteless
      exact quoteless_append.mpr ⟨leftIh onLeft isFirst, rightIh onRight isSecond⟩

/-! ## Statements -/

/-- The filter of a request, if it is not blank. -/
def requested (text : String) : Except Error (Option Filter) :=
  let body := Text.trim text.toList
  if body.isEmpty then .ok none else (Filter.read (String.ofList body)).map some

def Query.ofRequest : Option Filter → Except Error Query
  | none => .ok everything
  | some filter => do
      let condition ← filter.condition
      ofPlan (.ofCondition condition)

theorem Query.ofFilter_eq (text : String) : Query.ofFilter text = requested text >>= Query.ofRequest := by
  cases blank : (Text.trim text.toList).isEmpty with
  | true =>
      simp only [Query.ofFilter, requested, blank, if_true]
      rfl
  | false =>
      simp only [Query.ofFilter, requested, blank, Bool.false_eq_true, if_false]
      cases Filter.read (String.ofList (Text.trim text.toList)) with
      | error refusal => rfl
      | ok filter => rfl

theorem read_of_requested {text : String} {filter : Filter} (isFilter : requested text = .ok (some filter)) :
    ∃ body, Filter.read body = .ok filter := by
  cases blank : (Text.trim text.toList).isEmpty with
  | true =>
      simp only [requested, blank, if_true] at isFilter
      exact nomatch isFilter
  | false =>
      simp only [requested, blank, Bool.false_eq_true, if_false] at isFilter
      obtain ⟨_, read, same⟩ := Outcome.of_map isFilter
      exact ⟨_, Option.some.inj same ▸ read⟩

theorem shape_ofPlan {plan other : Plan} (alike : plan.Alike other) {query similar : Query}
    (isQuery : Query.ofPlan plan = .ok query) (isSimilar : Query.ofPlan other = .ok similar) :
    query.shape = similar.shape := by
  obtain ⟨⟨_, _⟩, made, rfl⟩ := Outcome.of_map isQuery
  obtain ⟨⟨_, _⟩, again, rfl⟩ := Outcome.of_map isSimilar
  exact (shape_queryFrom alike made again).1

theorem shape_ofRequest {filter similar : Option Filter} (alike : Option.Rel Filter.Alike filter similar)
    {query other : Query} (isQuery : Query.ofRequest filter = .ok query)
    (isOther : Query.ofRequest similar = .ok other) : query.shape = other.shape := by
  cases alike with
  | none => rw [Except.ok.inj (isQuery.symm.trans isOther)]
  | some alike =>
      obtain ⟨condition, isCondition, isQuery⟩ := Outcome.of_bind isQuery
      obtain ⟨more, isMore, isOther⟩ := Outcome.of_bind isOther
      exact shape_ofPlan (alike_ofCondition alike isCondition isMore) isQuery isOther

/-- No tag that a query names has a quote in it: names of tags are identifiers. -/
theorem quoteless_ofFilter {text : String} {query : Query} (isQuery : Query.ofFilter text = .ok query) :
    Quoteless query.names := by
  rw [Query.ofFilter_eq] at isQuery
  obtain ⟨filter, isFilter, isQuery⟩ := Outcome.of_bind isQuery
  cases filter with
  | none =>
      obtain rfl := Except.ok.inj isQuery
      exact fun _ member => nomatch member
  | some filter =>
      obtain ⟨_, read⟩ := read_of_requested isFilter
      obtain ⟨condition, isCondition, isQuery⟩ := Outcome.of_bind isQuery
      obtain ⟨⟨_, _⟩, made, rfl⟩ := Outcome.of_map isQuery
      exact quoteless_queryFrom (Plan.quoteless_of_read read isCondition) made

theorem withoutRemark_remark (text : String) (rest : List Char) :
    withoutRemark ((Source.remark text).toList ++ rest) = rest := by
  have line : (Source.remark text).toList ++ rest =
      ("-- ".toList ++ text.toList.map fun c => if c = '\r' ∨ c = '\n' then ' ' else c) ++ '\n' :: rest := by
    simp [Source.remark]
  rw [line, withoutRemark, List.dropWhile_append_of_pos]
  · rfl
  · intro c member
    rcases List.mem_append.mp member with opening | shown
    · exact List.all_eq_true.mp (by decide : "-- ".toList.all (· != '\n') = true) c opening
    · obtain ⟨d, _, rfl⟩ := List.mem_map.mp shown
      split
      · decide
      · next other => simpa using fun isBreak => other (.inr isBreak)

/-- A statement has the skeleton of the shape of its script. -/
theorem skeleton?_remark {script : Script} (paired : script.IsPaired) (text : String) :
    skeleton? (Source.remark text ++ script.text) = some (Quoting.outside.marks script.shape.text.toList) := by
  obtain ⟨marks, ends⟩ := @Script.reads_shape _ .outside rfl paired
  rw [skeleton?, String.toList_append, withoutRemark_remark, ends, marks]
  rfl

/-- Statements of alike requests have one skeleton, in which no literal is left open. -/
theorem skeleton?_eq {source other : Source} (dialect : source.dialect = other.dialect)
    (table : source.table = other.table) (paired : IsPaired source.table.toList) {text request : String}
    {filter similar : Option Filter} (isFilter : requested text = .ok filter)
    (isSimilar : requested request = .ok similar) (alike : Option.Rel Filter.Alike filter similar)
    {limit : Option Nat} {statement rewritten : String} (written : source.statement text limit = .ok statement)
    (again : other.statement request limit = .ok rewritten) :
    ∃ marks, skeleton? statement = some marks ∧ skeleton? rewritten = some marks := by
  obtain ⟨query, isQuery, written⟩ := Outcome.of_bind written
  obtain ⟨more, isMore, again⟩ := Outcome.of_bind again
  obtain rfl := Except.ok.inj written
  obtain rfl := Except.ok.inj again
  have shapes : query.shape = more.shape := by
    refine shape_ofRequest alike ?_ ?_
    · rw [← isQuery, Query.ofFilter_eq, isFilter]
      rfl
    · rw [← isMore, Query.ofFilter_eq, isSimilar]
      rfl
  have same : (source.query query ++ Source.limitClause limit).shape =
      (other.query more ++ Source.limitClause limit).shape := by
    rw [Script.shape_append, Script.shape_append, Source.shape_query dialect table, shapes,
      ← @Source.shape_query other other rfl rfl more]
  refine ⟨_, skeleton?_remark ?_ text, ?_⟩
  · exact (Source.isPaired_query paired (quoteless_ofFilter isQuery)).append (Source.isPaired_limitClause limit)
  · rw [same]
    refine skeleton?_remark ?_ request
    exact (Source.isPaired_query (table ▸ paired) (quoteless_ofFilter isMore)).append
      (Source.isPaired_limitClause limit)

/-- A test for a list of one text. -/
def notesAre (text : String) : Filter := .compare .eq (.path ⟨["notes"]⟩) (.value (.list [.str text]))

theorem requested_notesAre {text content : String}
    (shown : String.ofList (Text.trim text.toList) = (notesAre content).text)
    (some : (Text.trim text.toList).isEmpty = false) : requested text = .ok (.some (notesAre content)) := by
  have isSpelled : (notesAre content).IsSpelled := by
    refine .compare _ _ _ ⟨by simp, by decide⟩ (.intro _ trivial (List.forall_mem_singleton.mpr ?_))
    exact Value.throughout_of_childless trivial rfl
  simp only [requested, some, Bool.false_eq_true, if_false, shown, Filter.read_text isSpelled]
  rfl

theorem skeleton?_eq_notesAre :
    let acme : Source := ⟨.postgres, "haystack", "acme", 0⟩
    let other : Source := ⟨.postgres, "haystack", "x' OR '1'='1", 0⟩
    ∃ statement rewritten, acme.statement "notes == [\"\"]" none = .ok statement ∧
      other.statement "notes == [\"'; DROP\"]" none = .ok rewritten ∧
      ∃ marks, skeleton? statement = some marks ∧ skeleton? rewritten = some marks := by
  intro acme other
  have isFilter : requested "notes == [\"\"]" = .ok (some (notesAre "")) :=
    requested_notesAre (by decide +kernel) (by decide +kernel)
  have isSimilar : requested "notes == [\"'; DROP\"]" = .ok (some (notesAre "'; DROP")) :=
    requested_notesAre (by decide +kernel) (by decide +kernel)
  have alike : (notesAre "").Alike (notesAre "'; DROP") :=
    .compare _ (.path _) (.value (.list (.cons (.str _ _) .nil)))
  obtain ⟨statement, written⟩ : ∃ statement, acme.statement "notes == [\"\"]" none = .ok statement :=
    Outcome.succeeds_of_isOk (by decide +kernel)
  obtain ⟨rewritten, again⟩ : ∃ rewritten, other.statement "notes == [\"'; DROP\"]" none = .ok rewritten :=
    Outcome.succeeds_of_isOk (by decide +kernel)
  have dialect : acme.dialect = other.dialect := rfl
  have table : acme.table = other.table := rfl
  have paired : IsPaired acme.table.toList := by decide
  exact ⟨statement, rewritten, written, again,
    skeleton?_eq dialect table paired isFilter isSimilar (.some alike) written again⟩

/-- A quote in the name of the table, which is written as it is, leaves a literal open. -/
theorem skeleton?_openTable : ∃ statement,
    (Source.mk .postgres "o'x" "acme" 0).statement "a" none = .ok statement ∧ skeleton? statement = none := by
  have open? : ((Source.mk .postgres "o'x" "acme" 0).statement "a" none).toOption.map skeleton? = some none := by
    decide +kernel
  cases made : (Source.mk .postgres "o'x" "acme" 0).statement "a" none with
  | error refusal =>
      rw [made] at open?
      exact nomatch open?
  | ok statement =>
      rw [made] at open?
      exact ⟨statement, rfl, Option.some.inj open?⟩

end Sql

end Haystack
