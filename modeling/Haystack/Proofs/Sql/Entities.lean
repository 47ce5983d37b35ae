import Haystack.Proofs.Grid.Writing
import Haystack.Proofs.Sql.Meaning
import Haystack.Proofs.Value.RowsById

/-!
Rows as they are stored.

A row is stored as a JSON object whose members are the texts of its tags. The text of a reference
begins with its name, and no other text begins like that of a reference; so rows are joined by what a
reference leads to.
-/
namespace Haystack

/-! ## Rows of single values -/

/-- The value is none that is made of others, and not null. -/
def Value.isSingle : Value → Bool
  | .null | .list _ | .dict _ | .grid _ => false
  | _ => true

/-- Rows with an id, whose tags hold single values. No name of a reference has a space in it: the name
ends where the display name would begin. -/
structure Entity.IsFlat (row : Entity) : Prop where
  distinct : row.Distinct
  id : row.id?.isSome = true
  single : ∀ value ∈ row.values, value.isSingle = true
  spaceless : ∀ value ∈ row.values, ∀ ref ∈ value.ref?, ' ' ∉ ref.name.toList

structure GridOf.IsFlat (grid : Grid) : Prop where
  rows : ∀ row ∈ grid.rows, Entity.IsFlat row
  ids : GridOf.DistinctIds grid.rows

namespace Json

variable {version : Version} {row : Entity} {members : List (String × Tree)} {value : Value} {tree : Tree}

/-- The object that a row is stored as. -/
def entityTree (row : Entity) (version : Version) : Except Error Tree :=
  (membersOf row version).map fun members => .object (.ofList members)

theorem writeEntity_eq (row : Entity) (version : Version) :
    writeEntity row version = (entityTree row version).map Tree.print := by
  rw [writeEntity, entityTree]
  cases membersOf row version <;> rfl

/-- The tree of each tag is found under its name. -/
theorem get?_memberItemsOf {items : List (String × Value)} (made : memberItemsOf items version = .ok members)
    (tag : String) : (∀ value, items.lookup tag = some value →
        ∃ tree, treeOf value version = .ok tree ∧ members.lookup tag = some tree) ∧
      (items.lookup tag = none → members.lookup tag = none) := by
  induction items generalizing members with
  | nil =>
      obtain rfl := Except.ok.inj made
      exact ⟨fun _ found => (nomatch found), fun _ => rfl⟩
  | cons item items ih =>
      obtain ⟨name, value⟩ := item
      obtain ⟨tree, isTree, made⟩ := Outcome.of_bind made
      obtain ⟨others, rest, made⟩ := Outcome.of_bind made
      obtain rfl := Except.ok.inj made
      rw [List.lookup_cons, List.lookup_cons]
      cases tag == name with
      | true =>
          refine ⟨fun _ same => ?_, nofun⟩
          obtain rfl := Option.some.inj same
          exact ⟨tree, isTree, rfl⟩
      | false => exact ih rest

theorem keys_memberItemsOf {items : List (String × Value)} (made : memberItemsOf items version = .ok members) :
    members.map (·.1) = items.map (·.1) := by
  induction items generalizing members with
  | nil =>
      obtain rfl := Except.ok.inj made
      rfl
  | cons item items ih =>
      obtain ⟨tree, _, made⟩ := Outcome.of_bind made
      obtain ⟨others, rest, made⟩ := Outcome.of_bind made
      obtain rfl := Except.ok.inj made
      rw [List.map_cons, List.map_cons, ih rest]

/-! ## Texts -/

open Sql (content?)

theorem head?_removeText (version : Version) : (removeText version).toList.head? ≠ some 'r' := by
  unfold removeText
  split <;> decide

/-- The texts of single values other than references do not begin with the letter of references. -/
theorem head?_of_content? {text : String} (single : value.isSingle = true) (other : value.ref? = none)
    (made : treeOf value version = .ok tree) (isText : content? tree = some text) : text.toList.head? ≠ some 'r' := by
  cases value with
  | null | list items | dict tags | grid g => exact nomatch single
  | ref r => exact nomatch other
  | marker =>
      obtain rfl := Except.ok.inj made
      obtain rfl := Option.some.inj isText
      decide
  | na =>
      obtain ⟨_, _, rfl⟩ := Outcome.of_map made
      obtain rfl := Option.some.inj isText
      decide
  | remove =>
      obtain rfl := Except.ok.inj made
      obtain rfl := Option.some.inj isText
      exact head?_removeText version
  | bool b =>
      obtain rfl := Except.ok.inj made
      obtain rfl := Option.some.inj isText
      cases b <;> decide
  | number n =>
      obtain rfl := Except.ok.inj made
      obtain rfl := Option.some.inj isText
      unfold numberText
      split <;> simp
  | str s | uri s | bin s | xstr s | date s | time s | dateTime s | coord s =>
      obtain rfl := Except.ok.inj made
      obtain rfl := Option.some.inj isText
      simp [coordinateText]

end Json

namespace Sql

variable {grid : Grid} {version : Version} {row next : Entity} {stored other : Stored} {tag : String}

theorem firstWord_referenceText {ref : Ref} (spaceless : ' ' ∉ ref.name.toList) :
    firstWord (Json.referenceText ref) = "r:" ++ ref.name := by
  have name : ∀ c ∈ ("r:" ++ ref.name).toList, (c != ' ') = true := by
    intro c member
    rw [String.toList_append] at member
    rcases List.mem_append.mp member with opening | inName
    · exact List.all_eq_true.mp (by decide : "r:".toList.all (· != ' ') = true) c opening
    · exact bne_iff_ne.mpr fun isSpace => spaceless (isSpace ▸ inName)
  have whole : ("r:" ++ ref.name).toList.takeWhile (· != ' ') = ("r:" ++ ref.name).toList :=
    List.takeWhile_eq_self_iff.mpr name
  unfold firstWord Json.referenceText
  cases ref.display with
  | none => rw [whole, String.ofList_toList]
  | some display =>
      have parts : ("r:" ++ ref.name ++ " " ++ display).toList = ("r:" ++ ref.name).toList ++ ' ' :: display.toList := by
        simp [String.toList_append]
      rw [parts, List.takeWhile_append_of_pos name, List.takeWhile_cons_of_neg (by decide), List.append_nil,
        String.ofList_toList]

theorem head?_of_firstWord {text name : String} (same : firstWord text = "r:" ++ name) :
    text.toList.head? = some 'r' := by
  have letters := congrArg String.toList same
  rw [firstWord, String.toList_ofList, String.toList_append] at letters
  cases opening : text.toList with
  | nil =>
      rw [opening] at letters
      exact nomatch letters
  | cons c rest =>
      rw [opening, List.takeWhile_cons] at letters
      split at letters
      · exact congrArg some (List.cons.inj letters).1
      · exact nomatch letters

namespace Stored

/-- The members of a stored row are the trees of its tags. -/
theorem member?_of_entityTree (distinct : row.Distinct) (isStored : Json.entityTree row version = .ok stored.entity)
    (tag : String) : (∀ value, row.get? tag = some value →
        ∃ tree, Json.treeOf value version = .ok tree ∧ stored.member? tag = some tree) ∧
      (row.get? tag = none → stored.member? tag = none) := by
  obtain ⟨members, made, isObject⟩ := Outcome.of_map isStored
  obtain ⟨items⟩ := row
  have keys : (members.map (·.1)).Nodup := (Json.keys_memberItemsOf made).symm ▸ distinct
  have found : stored.member? tag = members.lookup tag := by
    rw [member?, ← isObject, OrderedMap.ofList_of_nodup keys]
    rfl
  rw [found]
  exact Json.get?_memberItemsOf made tag

theorem hasKey_eq (distinct : row.Distinct) (isStored : Json.entityTree row version = .ok stored.entity) :
    stored.hasKey = row.contains := by
  funext tag
  obtain ⟨present, absent⟩ := member?_of_entityTree distinct isStored tag
  rw [hasKey, OrderedMap.contains]
  cases found : row.get? tag with
  | none =>
      rw [absent found]
      rfl
  | some value =>
      obtain ⟨tree, _, member⟩ := present value found
      rw [member]
      rfl

theorem text?_of_ref (distinct : row.Distinct) (isStored : Json.entityTree row version = .ok stored.entity) {ref : Ref}
    (found : row.get? tag = some (.ref ref)) : stored.text? tag = some (Json.referenceText ref) := by
  obtain ⟨_, made, member⟩ := (member?_of_entityTree distinct isStored tag).1 _ found
  obtain rfl := Except.ok.inj made
  rw [text?, member]
  rfl

/-- The text of a tag begins like that of a reference only if the tag holds the reference. -/
theorem ref_of_firstWord (flat : row.IsFlat) (isStored : Json.entityTree row version = .ok stored.entity)
    {text name : String} (isText : stored.text? tag = some text) (same : firstWord text = "r:" ++ name) :
    ∃ ref, row.get? tag = some (.ref ref) ∧ ref.name = name := by
  obtain ⟨present, absent⟩ := member?_of_entityTree flat.distinct isStored tag
  obtain ⟨tree, member, isContent⟩ := Option.bind_eq_some_iff.mp isText
  cases found : row.get? tag with
  | none => exact nomatch (absent found).symm.trans member
  | some value =>
      obtain ⟨own, made, isMember⟩ := present value found
      obtain rfl := Option.some.inj (isMember.symm.trans member)
      have inRow := OrderedMap.mem_values_of_get? found
      cases value with
      | ref ref =>
          obtain rfl := Except.ok.inj made
          obtain rfl := Option.some.inj isContent
          rw [firstWord_referenceText (flat.spaceless _ inRow _ rfl)] at same
          exact ⟨ref, rfl, String.append_right_inj "r:" |>.mp same⟩
      | _ => exact absurd (head?_of_firstWord same) (Json.head?_of_content? (flat.single _ inRow) rfl made isContent)

end Stored

/-! ## References -/

theorem exists_ref_of_id (flat : row.IsFlat) : ∃ ref, row.get? "id" = some (.ref ref) ∧ row.name? = some ref.name := by
  obtain ⟨ref, isId⟩ := Option.isSome_iff_exists.mp flat.id
  exact ⟨ref, Entity.id?_eq_some_iff.mp isId, Entity.name?_of_id? isId⟩

/-- A reference leads to the row whose id begins with the same word. -/
theorem follow_eq_some_iff (flat : grid.IsFlat) (member : row ∈ grid.rows) (nextMember : next ∈ grid.rows)
    (isStored : Json.entityTree row version = .ok stored.entity)
    (nextStored : Json.entityTree next version = .ok other.entity) :
    (∃ text id, stored.text? tag = some text ∧ other.text? "id" = some id ∧ firstWord text = firstWord id) ↔
      grid.follow row tag = some next := by
  have here := flat.rows row member
  have there := flat.rows next nextMember
  obtain ⟨id, isId, named⟩ := exists_ref_of_id there
  have idText := Stored.text?_of_ref there.distinct nextStored isId
  have idWord := firstWord_referenceText (there.spaceless _ (OrderedMap.mem_values_of_get? isId) _ rfl)
  constructor
  · rintro ⟨text, _, isText, isId, same⟩
    obtain rfl := Option.some.inj (idText.symm.trans isId)
    obtain ⟨ref, found, sameName⟩ := Stored.ref_of_firstWord here isStored isText (same.trans idWord)
    rw [GridOf.follow, found]
    exact (GridOf.rowNamed?_eq_some_iff flat.ids).mpr ⟨nextMember, sameName ▸ named⟩
  · intro leads
    unfold GridOf.follow at leads
    split at leads
    · next ref found =>
      obtain ⟨_, sameName⟩ := GridOf.mem_of_rowNamed? leads
      have text := Stored.text?_of_ref here.distinct isStored found
      have word := firstWord_referenceText (here.spaceless _ (OrderedMap.mem_values_of_get? found) _ rfl)
      refine ⟨_, _, text, idText, ?_⟩
      rw [word, idWord, Option.some.inj (sameName.symm.trans named)]
    · next found => exact nomatch here.single _ (OrderedMap.mem_values_of_get? found)
    · exact nomatch leads

/-- Different rows are stored as different entities. -/
theorem eq_of_entityTree (flat : grid.IsFlat) (member : row ∈ grid.rows) (nextMember : next ∈ grid.rows)
    {entity : Json.Tree} (isStored : Json.entityTree row version = .ok entity)
    (nextStored : Json.entityTree next version = .ok entity) : row = next := by
  have here := flat.rows row member
  have there := flat.rows next nextMember
  obtain ⟨ref, isRef, named⟩ := exists_ref_of_id here
  obtain ⟨id, isId, isNamed⟩ := exists_ref_of_id there
  let stored : Stored := ⟨"", fun _ => false, fun _ => false, entity⟩
  have text : stored.text? "id" = some (Json.referenceText ref) := Stored.text?_of_ref here.distinct isStored isRef
  have same := text.symm.trans (Stored.text?_of_ref there.distinct nextStored isId)
  have names := congrArg firstWord (Option.some.inj same)
  rw [firstWord_referenceText (here.spaceless _ (OrderedMap.mem_values_of_get? isRef) _ rfl),
    firstWord_referenceText (there.spaceless _ (OrderedMap.mem_values_of_get? isId) _ rfl)] at names
  rw [String.append_right_inj "r:" |>.mp names] at named
  have found := (GridOf.rowNamed?_eq_some_iff flat.ids).mpr ⟨member, named⟩
  exact Option.some.inj (found.symm.trans ((GridOf.rowNamed?_eq_some_iff flat.ids).mpr ⟨nextMember, isNamed⟩))

end Sql

end Haystack
