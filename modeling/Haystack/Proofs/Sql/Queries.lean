import Haystack.Proofs.Sql.Clauses

/-!
What is written for a query is read as the query.

The words between selects, and those between the clauses of a select, are found where they are
written, since no other part of a statement has them outside parentheses.
-/
namespace Haystack.Sql

/-! ## Words that divide -/

/-- The words at which statements and selects are cut. -/
def dividers : List String := ["INNER", "WHERE", "INTERSECT", "UNION", "LIMIT"]

def Item.divides : Item → Bool
  | .word own => dividers.contains own
  | _ => false

/-- The words between selects and after them. -/
def Item.isOuter (item : Item) : Bool := isSetWord item || item.isWord "LIMIT"

/-- No item divides those before it from those after it. -/
def Undivided (items : List Item) : Prop := ∀ item ∈ items, item.divides = false

section Undivided

variable {items others : List Item} {letters : String} {source : Source}

theorem Undivided.isWord (undivided : Undivided items) (divider : dividers.contains letters = true) :
    ∀ item ∈ items, item.isWord letters = false := by
  intro item member
  cases item with
  | group inner => rfl
  | token token =>
      cases token with
      | word own =>
          refine Bool.eq_false_iff.mpr fun same => ?_
          have here : dividers.contains own = false := undivided _ member
          rw [eq_of_beq same, divider] at here
          exact nomatch here
      | _ => rfl

theorem Undivided.isOuter (undivided : Undivided items) : ∀ item ∈ items, item.isOuter = false := by
  intro item member
  have noIntersect : item.isWord "INTERSECT" = false := undivided.isWord (by decide) item member
  have noUnion : item.isWord "UNION" = false := undivided.isWord (by decide) item member
  have noLimit : item.isWord "LIMIT" = false := undivided.isWord (by decide) item member
  simp only [Item.isOuter, isSetWord, noIntersect, noUnion, noLimit, Bool.or_self]

@[simp] theorem undivided_nil : Undivided [] := fun _ member => nomatch member

theorem undivided_cons {item : Item} : Undivided (item :: items) ↔ item.divides = false ∧ Undivided items :=
  List.forall_mem_cons

@[simp] theorem undivided_word :
    Undivided (.word letters :: items) ↔ dividers.contains letters = false ∧ Undivided items :=
  undivided_cons

@[simp] theorem undivided_literal {content : String} : Undivided (.literal content :: items) ↔ Undivided items :=
  undivided_cons.trans (and_iff_right rfl)

@[simp] theorem undivided_sign {c : Char} : Undivided (.sign c :: items) ↔ Undivided items :=
  undivided_cons.trans (and_iff_right rfl)

@[simp] theorem undivided_group {inner : List Item} : Undivided (.group inner :: items) ↔ Undivided items :=
  undivided_cons.trans (and_iff_right rfl)

@[simp] theorem undivided_append : Undivided (items ++ others) ↔ Undivided items ∧ Undivided others :=
  List.forall_mem_append

theorem divides_of_keyword (notKeyword : keywords.contains letters = false) : dividers.contains letters = false := by
  refine Bool.eq_false_iff.mpr fun divider => ?_
  have subset : dividers ⊆ keywords := by decide
  rw [List.contains_iff_mem.mpr (subset (List.contains_iff_mem.mp divider))] at notKeyword
  exact nomatch notKeyword

@[simp] theorem rowName_not_mem_dividers (row : Nat) : rowName row ∉ dividers := by
  simpa using divides_of_keyword (not_mem_keywords row)

theorem Plain.undivided {rows : List Nat} (plain : Plain rows items) : Undivided items := by
  intro item member
  have whole := plain.whole item member
  cases item with
  | group inner => rfl
  | token token =>
      cases token with
      | word own => exact divides_of_keyword whole
      | _ => rfl

theorem Dialect.Displays.undivided {dialect : Dialect} {test : Test} (displays : dialect.Displays test items) :
    Undivided items := by
  cases displays with
  | single whole plain known => exact plain.undivided
  | and isLeft isRight | or isLeft isRight => simp +decide

theorem Source.undivided_admissionItems (row : Nat) : Undivided (source.admissionItems (rowName row)) := by
  unfold Source.admissionItems Source.validityItems Source.ownershipItems
  cases source.dialect with
  | postgres => simp +decide
  | sqlite => simp +decide

theorem Source.Tests.undivided {row : Nat} {test : Option Test} (tests : source.Tests row test items) :
    Undivided items := by
  cases tests with
  | none => exact Source.undivided_admissionItems row
  | some displays => simp +decide [Source.undivided_admissionItems, displays.undivided]

theorem Source.plain_linkItems {rows : List Nat} {join : Join} (isReference : join.reference.row ∈ rows)
    (isRow : join.row ∈ rows) : Plain rows (source.linkItems join) := by
  have reference := source.dialect.plain_firstWordItems (source.dialect.plain_valueItems isReference)
  have id := source.dialect.plain_firstWordItems (@Dialect.plain_valueItems source.dialect ⟨join.row, "id"⟩ rows isRow)
  simp [Source.linkItems, reference, id]

theorem Source.undivided_on (source : Source) (join : Join) : Undivided (source.joinedOf join).on := by
  have link := (@Source.plain_linkItems source [join.reference.row, join.row] join (by simp) (by simp)).undivided
  simp +decide [Source.joinedOf, Source.undivided_admissionItems, link]

end Undivided

/-! ## Blocks -/

theorem cut_joins {before : List Item} (whole : ∀ item ∈ before, item.isWord "INNER" = false) {joins : List Joined}
    (undivided : ∀ join ∈ joins, Undivided join.items.tail) :
    cut (Item.isWord "INNER") (before ++ joins.flatMap Joined.items) = before :: joins.map (·.items.tail) := by
  induction joins generalizing before with
  | nil => rw [List.flatMap_nil, List.append_nil, cut_of_whole whole, List.map_nil]
  | cons join joins ih =>
      obtain ⟨here, rest⟩ := List.forall_mem_cons.mp undivided
      have first : Joined.items join = .word "INNER" :: join.items.tail := rfl
      rw [List.flatMap_cons, first, List.cons_append, cut_append whole (by decide),
        ih (here.isWord (by decide)) rest, List.map_cons]

theorem mapM_joined? (joins : List Joined) : (joins.map (·.items.tail)).mapM joined? = some joins := by
  induction joins with
  | nil => rfl
  | cons join joins ih =>
      rw [List.map_cons, List.mapM_cons, ih]
      rfl

/-- A block is read from its items if nothing divides the parts of it. -/
theorem block?_items {block : Block} (head : Undivided [.word block.selected, .word block.table, .word block.name])
    (joins : ∀ join ∈ block.joins, Undivided join.items.tail) (condition : Undivided block.condition) :
    block? block.items = some block := by
  have opening : Undivided [.word "SELECT", .word block.selected, .sign '.', .word "entity", .word "FROM",
      .word block.table, .word "as", .word block.name] := by
    simpa +decide using head
  have before : ∀ item ∈ [.word "SELECT", .word block.selected, .sign '.', .word "entity", .word "FROM",
      .word block.table, .word "as", .word block.name] ++ block.joins.flatMap Joined.items,
      item.isWord "WHERE" = false := by
    refine List.forall_mem_append.mpr ⟨opening.isWord (by decide), List.forall_mem_flatMap.mpr fun join member => ?_⟩
    exact List.forall_mem_cons.mpr ⟨by decide, (joins join member).isWord (by decide)⟩
  unfold block? Block.items
  rw [cut_append before (by decide), cut_of_whole (condition.isWord (by decide))]
  simp only [cut_joins (opening.isWord (by decide)) joins, mapM_joined?]
  rfl

/-! ## Queries -/

section Combined

variable {items left right : List Item} {first second reading : Reading} {block : Block}

theorem foldEach_append {α : Type} {leaf : α} {combine : List (Item × α) → α} :
    foldEach leaf combine (left ++ right) = foldEach leaf combine left ++ foldEach leaf combine right := by
  rw [foldEach_eq_map, List.map_append, ← foldEach_eq_map, ← foldEach_eq_map]

theorem fst_foldEach {α : Type} {leaf : α} {combine : List (Item × α) → α} :
    (foldEach leaf combine items).map (·.1) = items := by
  rw [foldEach_eq_map, List.map_map]
  exact List.map_id items

/-- The items are read as one side of a query. -/
def IsSide (items : List Item) (reading : Reading) : Prop :=
  (∀ item ∈ items, item.isOuter = false) ∧ side? (foldEach none combined? items) = some reading

theorem whole_foldEach (inner : ∀ item ∈ items, item.isOuter = false) :
    ∀ element ∈ foldEach none combined? items, isSetWord element.1 = false := by
  rw [foldEach_eq_map]
  exact List.forall_mem_map.mpr fun item member => (Bool.or_eq_false_iff.mp (inner item member)).1

theorem IsSide.query (side : IsSide items reading) : query? items = some reading := by
  rw [query?, combined?, cut_of_whole (whole_foldEach side.1)]
  exact side.2

theorem isSide_group (isQuery : query? items = some reading) : IsSide [.group items] reading := by
  refine ⟨fun item member => List.mem_singleton.mp member ▸ rfl, ?_⟩
  have inner : (Item.group items).fold none combined? = some reading := isQuery
  rw [foldEach, inner]
  rfl

theorem isSide_all (isQuery : query? items = some reading) :
    IsSide [.word "SELECT", .word "entity", .word "FROM", .group items] reading := by
  refine ⟨by simp +decide [Item.isOuter, isSetWord, Item.isWord], ?_⟩
  have inner : (Item.group items).fold none combined? = some reading := isQuery
  simp only [foldEach, inner]
  rfl

theorem isSide_block (inner : ∀ item ∈ block.items, item.isOuter = false) (isBlock : block? block.items = some block) :
    IsSide block.items (.block block) := by
  refine ⟨inner, ?_⟩
  have shape : foldEach none combined? block.items = (.word "SELECT", none) :: (.word block.selected, none) ::
      (.sign '.', none) :: (.word "entity", none) :: (.word "FROM", none) ::
        foldEach none combined? (block.items.drop 5) := rfl
  have read : side? (foldEach none combined? block.items) =
      (block? ((foldEach none combined? block.items).map (·.1))).map .block := by
    rw [shape]
    rfl
  rw [read, fst_foldEach, isBlock]
  rfl

theorem query?_joined {connective : String} (isConnective : isSetWord (.word connective) = true)
    (isLeft : IsSide left first) (isRight : IsSide right second) : query? (left ++ .word connective :: right) =
      if Item.isWord "INTERSECT" (.word connective) then some (.intersect first second)
      else some (.union first second) := by
  have parts : cut (fun element => isSetWord element.1) (foldEach none combined? (left ++ .word connective :: right)) =
      [foldEach none combined? left, foldEach none combined? right] := by
    rw [foldEach_append, foldEach, cut_append (whole_foldEach isLeft.1) isConnective,
      cut_of_whole (whole_foldEach isRight.1)]
  have words : (foldEach none combined? (left ++ .word connective :: right)).filter (fun element => isSetWord element.1) =
      [(.word connective, none)] := by
    have none_ {items : List Item} {reading : Reading} (side : IsSide items reading) :
        (foldEach none combined? items).filter (fun element => isSetWord element.1) = [] :=
      List.filter_eq_nil_iff.mpr fun element member => by simp [whole_foldEach side.1 element member]
    rw [foldEach_append, foldEach, List.filter_append, List.filter_cons, none_ isLeft, none_ isRight]
    simp only [isConnective, if_true]
    rfl
  rw [query?, combined?, parts, words]
  simp only [isLeft.2, isRight.2]
  rfl

end Combined

namespace Source

variable {source : Source}

theorem isSide_select (plain : IsPlainName source.table) (select : Select) {condition : List Item}
    (tests : source.Tests select.row select.test condition) :
    let block : Block :=
      ⟨rowName select.row, source.table, rowName select.row, select.joins.map source.joinedOf, condition⟩
    IsSide block.items (.block block) := by
  intro block
  have table : dividers.contains source.table = false := divides_of_keyword plain.2.2
  have name : Undivided [.word source.table] := undivided_word.mpr ⟨table, undivided_nil⟩
  have joins : ∀ join ∈ block.joins, Undivided join.items.tail := by
    refine List.forall_mem_map.mpr fun join _ => ?_
    have named : Undivided [.word "JOIN", .word source.table, .word "AS", .word (rowName join.row), .word "ON"] := by
      simpa +decide using name
    exact undivided_append.mpr ⟨named, source.undivided_on join⟩
  refine isSide_block ?_ (block?_items (by simpa +decide [block] using name) joins tests.undivided)
  have head : Undivided [.word "SELECT", .word block.selected, .sign '.', .word "entity", .word "FROM",
      .word block.table, .word "as", .word block.name] := by
    simpa +decide [block] using name
  refine List.forall_mem_append.mpr ⟨List.forall_mem_append.mpr ⟨head.isOuter, ?_⟩, ?_⟩
  · refine List.forall_mem_flatMap.mpr fun join member => ?_
    exact List.forall_mem_cons.mpr ⟨rfl, (joins join member).isOuter⟩
  · exact List.forall_mem_cons.mpr ⟨rfl, tests.undivided.isOuter⟩

/-- A query that has been read: as a whole, and as a side of another. -/
structure IsRead (source : Source) (query : Query) (items : List Item) (reading : Reading) : Prop where
  shut : (source.query query).Shuts items
  read : query? items = some reading
  unlimited : ∀ item ∈ items, item.isWord "LIMIT" = false
  side : ∃ others, (source.side query (source.query query)).Shuts others ∧ IsSide others reading

theorem isRead_of_shuts {query : Query} {items : List Item} {reading : Reading}
    (shut : (source.query query).Shuts items) (read : query? items = some reading)
    (unlimited : ∀ item ∈ items, item.isWord "LIMIT" = false)
    (single : query.isCompound = false → IsSide items reading) : source.IsRead query items reading := by
  refine ⟨shut, read, unlimited, ?_⟩
  unfold side
  cases source.dialect with
  | postgres =>
      exact ⟨_, shut.shows.enclosed "(\n" ")\n" [] [] (by decide) (by decide) (by decide), by
        simpa using isSide_group read⟩
  | sqlite =>
      cases compound : query.isCompound with
      | true =>
          exact ⟨_, shut.shows.enclosed "SELECT entity FROM (\n" ")\n" [.word "SELECT", .word "entity", .word "FROM"] []
            (by decide) (by decide) (by decide), by simpa using isSide_all read⟩
      | false => exact ⟨items, shut, single compound⟩

theorem IsRead.joined {left right : Query} {items others : List Item} {first second reading : Reading}
    (isLeft : source.IsRead left items first) (isRight : source.IsRead right others second) (query : Query)
    (compound : query.isCompound = true) {text : String} (connective : String)
    (script : source.query query = source.side left (source.query left) ++ Script.code text ++
      source.side right (source.query right))
    (runs : Scan.gap.run text.toList = ([.word connective], .gap)) (isConnective : isSetWord (.word connective) = true)
    (inside : Item.isWord "LIMIT" (.word connective) = false)
    (same : (if Item.isWord "INTERSECT" (.word connective) then some (.intersect first second)
      else some (.union first second)) = some reading) : ∃ items, source.IsRead query items reading := by
  obtain ⟨left, shutLeft, sideLeft⟩ := isLeft.side
  obtain ⟨right, shutRight, sideRight⟩ := isRight.side
  have shut := (shutLeft.append (Script.shuts_code [.word connective] (by simp) runs)).append shutRight
  rw [← script, List.append_assoc] at shut
  refine ⟨_, isRead_of_shuts shut ((query?_joined isConnective sideLeft sideRight).trans same) ?_ ?_⟩
  · have onLeft (item : Item) (member : item ∈ left) := (Bool.or_eq_false_iff.mp (sideLeft.1 item member)).2
    have onRight (item : Item) (member : item ∈ right) := (Bool.or_eq_false_iff.mp (sideRight.1 item member)).2
    exact List.forall_mem_append.mpr ⟨onLeft, List.forall_mem_cons.mpr ⟨inside, onRight⟩⟩
  · intro single
    rw [compound] at single
    exact nomatch single

/-- What is written for a query is read as the query. -/
theorem exists_isRead (plain : IsPlainName source.table) {query : Query} (quoteless : Quoteless query.names) :
    ∃ items reading, source.IsRead query items reading ∧ source.Reads query reading := by
  induction query with
  | select one =>
      obtain ⟨condition, tests, shut⟩ := exists_select plain quoteless
      have side := isSide_select plain one tests
      refine ⟨_, _, isRead_of_shuts shut side.query (fun item member => ?_) (fun _ => side), .select one tests⟩
      exact (Bool.or_eq_false_iff.mp (side.1 item member)).2
  | intersect left right leftIh rightIh =>
      obtain ⟨onLeft, onRight⟩ := quoteless_append.mp quoteless
      obtain ⟨_, first, isLeft, readsLeft⟩ := leftIh onLeft
      obtain ⟨_, second, isRight, readsRight⟩ := rightIh onRight
      obtain ⟨items, isRead⟩ := isLeft.joined isRight (.intersect left right) rfl "INTERSECT" rfl (by decide) (by decide)
        (by decide) rfl
      exact ⟨items, _, isRead, .intersect readsLeft readsRight⟩
  | union left right leftIh rightIh =>
      obtain ⟨onLeft, onRight⟩ := quoteless_append.mp quoteless
      obtain ⟨_, first, isLeft, readsLeft⟩ := leftIh onLeft
      obtain ⟨_, second, isRight, readsRight⟩ := rightIh onRight
      obtain ⟨items, isRead⟩ := isLeft.joined isRight (.union left right) rfl "UNION" rfl (by decide) (by decide)
        (by decide) rfl
      exact ⟨items, _, isRead, .union readsLeft readsRight⟩

/-- What the clause of a limit is read as. -/
def limitOf? : Option Nat → Option String
  | some (count + 1) => some (Nat.repr (count + 1))
  | _ => none

theorem shuts_limit (count : Nat) :
    Script.Shuts (limitClause (some (count + 1))) [.word "LIMIT", .word (Nat.repr (count + 1))] := by
  have digits : ∀ c ∈ (Nat.repr (count + 1)).toList, isWordChar c = true := by
    intro c member
    rw [Nat.toList_repr] at member
    have isDigit := Nat.isDigit_of_mem_toDigits (by omega) (by omega) member
    simp [isWordChar, Char.isAlphanum, isDigit]
  have some : Nat.repr (count + 1) ≠ "" := by
    intro none
    have letters := congrArg String.toList none
    simp at letters
  exact Script.shuts_letters some digits "LIMIT " "\n" [.word "LIMIT"] [] (by decide) (by decide) (by decide)

theorem read?_remark (text : String) {query : Query} {items : List Item} {reading : Reading}
    (isRead : source.IsRead query items reading) (limit : Option Nat) :
    read? (remark text ++ (source.query query ++ limitClause limit).text) = some (reading, limitOf? limit) := by
  have unlimited : read? (remark text ++ (source.query query).text) = some (reading, none) := by
    unfold read?
    rw [String.toList_append, withoutRemark_remark, Script.items?_of_shuts isRead.shut]
    simp only [Option.bind_eq_bind, Option.bind_some, cut_of_whole isRead.unlimited, isRead.read]
  match limit with
  | none | some 0 => rwa [← List.append_nil (source.query query)] at unlimited
  | some (count + 1) =>
      have isLimit : Item.isWord "LIMIT" (.word "LIMIT") = true := by decide
      have last : ∀ item ∈ [Item.word (Nat.repr (count + 1))], item.isWord "LIMIT" = false := by
        refine List.forall_mem_singleton.mpr (beq_false_of_ne fun same => ?_)
        have letter : 'L' ∈ (Nat.repr (count + 1)).toList := by
          rw [same]
          decide
        rw [Nat.toList_repr] at letter
        exact absurd (Nat.isDigit_of_mem_toDigits (by omega) (by omega) letter) (by decide)
      unfold read?
      rw [String.toList_append, withoutRemark_remark, Script.items?_of_shuts (isRead.shut.append (shuts_limit count))]
      simp only [Option.bind_eq_bind, Option.bind_some, cut_append isRead.unlimited isLimit, cut_of_whole last,
        isRead.read]
      rfl

/-- A statement is read as the query of its filter. -/
theorem exists_read? (plain : IsPlainName source.table) {text statement : String} {limit : Option Nat}
    (written : source.statement text limit = .ok statement) : ∃ query reading, Query.ofFilter text = .ok query ∧
      source.Reads query reading ∧ read? statement = some (reading, limitOf? limit) := by
  obtain ⟨query, isQuery, written⟩ := Outcome.of_bind written
  obtain rfl := Except.ok.inj written
  obtain ⟨_, reading, isRead, reads⟩ := exists_isRead plain (quoteless_ofFilter isQuery)
  exact ⟨query, reading, isQuery, reads, read?_remark text isRead limit⟩

end Source

end Haystack.Sql
