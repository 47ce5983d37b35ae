import Haystack.Error
import Haystack.Proofs.Decimal
import Haystack.Proofs.Phrase
import Haystack.Proofs.Text.Pieces
import Haystack.Proofs.Version.Order
import Mathlib.Data.Option.Basic

/-!
Versions and their texts.

A version that was read from a text is read again from its own, and every version from 3.0 on is read
and written in the dialect of 3.0.
-/
namespace Haystack.Version

open Phrase (Stops stops_cons)

variable {v : Version}

/-- What holds of every version that is read from a text: it has groups, which are not too great, and
its extra text starts with a character that goes on with no group. -/
structure IsProper (v : Version) : Prop where
  nonempty : v.groups ≠ []
  small : ∀ group ∈ v.groups, group ≤ groupLimit
  extra : ∀ extra ∈ v.extra, ∃ c rest, extra.toList = c :: rest ∧ isGroupChar c = false ∧ '\n' ∉ rest

theorem isProper_three : three.IsProper := ⟨by decide, by decide, fun _ none => nomatch none⟩

/-! ## Groups -/

/-- The groups as they are written, with points between them. -/
def groupsText (groups : List Nat) : List Char :=
  List.intercalate ['.'] (groups.map (Nat.toDigits 10))

theorem groupsText_cons (first : Nat) (others : List Nat) :
    groupsText (first :: others) =
      Nat.toDigits 10 first ++ others.flatMap fun group => '.' :: Nat.toDigits 10 group := by
  induction others generalizing first with
  | nil => simp [groupsText]
  | cons second others ih =>
      have rest := ih second
      rw [groupsText, List.map_cons] at rest ⊢
      rw [List.map_cons, List.intercalate_cons_cons, rest]
      simp

theorem isGroupChar_of_mem {groups : List Nat} {c : Char} (member : c ∈ groupsText groups) :
    c.isDigit = true ∨ c = '.' := by
  cases groups with
  | nil => simp [groupsText] at member
  | cons first others =>
      rw [groupsText_cons, List.mem_append, List.mem_flatMap] at member
      rcases member with inFirst | ⟨group, _, inGroup⟩
      · exact .inl (allDigits_toDigits first c inFirst)
      · rcases List.mem_cons.mp inGroup with rfl | inDigits
        · exact .inr rfl
        · exact .inl (allDigits_toDigits group c inDigits)

theorem group?_toDigits {group : Nat} (small : group ≤ groupLimit) :
    group? (Nat.toDigits 10 group) = some group := by
  have all : (Nat.toDigits 10 group).all Char.isDigit = true :=
    List.all_eq_true.mpr (allDigits_toDigits group)
  have value : (Nat.toDigits 10 group).foldl (fun total c => 10 * total + (c.toNat - '0'.toNat)) 0 =
      group := naturalOf_toDigits group
  rw [group?, if_pos all]
  simp only [value, if_pos small]

theorem mapM_group? {groups : List Nat} (small : ∀ group ∈ groups, group ≤ groupLimit) :
    (groups.map (Nat.toDigits 10)).mapM group? = some groups := by
  induction groups with
  | nil => rfl
  | cons first others ih =>
      rw [List.forall_mem_cons] at small
      rw [List.map_cons, List.mapM_cons, group?_toDigits small.1, ih small.2]
      rfl

theorem isGroupChar_groupsText {groups : List Nat} : ∀ c ∈ groupsText groups, isGroupChar c = true := by
  intro c member
  rcases isGroupChar_of_mem member with isDigit | rfl
  · simp [isGroupChar, Text.isDecimalDigit_of_isDigit isDigit]
  · decide

theorem exists_head?_groupsText {groups : List Nat} (nonempty : groups ≠ []) (tail : List Char) :
    ∃ first ∈ (groupsText groups ++ tail).head?, Text.isDecimalDigit first = true := by
  obtain ⟨first, others, rfl⟩ := List.exists_cons_of_ne_nil nonempty
  obtain ⟨digit, digits, shape⟩ := List.exists_cons_of_ne_nil (Nat.toDigits_ne_nil (n := first) (b := 10))
  refine ⟨digit, by simp [groupsText_cons, shape], ?_⟩
  exact Text.isDecimalDigit_of_isDigit (allDigits_toDigits first digit (by simp [shape]))

/-- Groups with a text after them that goes on with none of them. -/
theorem read?_groupsText {groups : List Nat} (nonempty : groups ≠ [])
    (small : ∀ group ∈ groups, group ≤ groupLimit) {tail : List Char}
    (stops : Stops isGroupChar tail) (noFeed : '\n' ∉ tail.drop 1) :
    read? (String.ofList (groupsText groups ++ tail)) =
      some ⟨groups, if tail = [] then none else some (String.ofList tail)⟩ := by
  have isPieces : Text.pieces (· == '.') (groupsText groups) = groups.map (Nat.toDigits 10) := by
    refine Text.pieces_intercalate (by simpa using nonempty) ?_ (by decide)
    intro part member c inPart
    obtain ⟨group, _, rfl⟩ := List.mem_map.mp member
    have isDigit := allDigits_toDigits group c inPart
    by_contra point
    obtain rfl : c = '.' := by simpa using point
    exact absurd isDigit (by decide)
  obtain ⟨first, isFirst, isDigit⟩ := exists_head?_groupsText nonempty tail
  rw [read?, String.toList_ofList, List.takeWhile_append_of_pos isGroupChar_groupsText,
    List.dropWhile_append_of_pos isGroupChar_groupsText, Phrase.takeWhile_of_stops stops,
    Phrase.dropWhile_of_stops stops, List.append_nil, isPieces, mapM_group? small,
    Option.mem_def.mp isFirst]
  simp only [Option.bind_eq_bind, Option.bind_some, isDigit, guard_true]
  cases tail with
  | nil => rfl
  | cons c rest =>
      rw [List.drop_succ_cons, List.drop_zero] at noFeed
      simp [noFeed]

theorem toList_text (v : Version) :
    v.text.toList = groupsText v.groups ++ (v.extra.getD "").toList := by
  have digits : String.toList ∘ Nat.repr = Nat.toDigits 10 := by
    funext group
    simp [Nat.repr_eq_ofList_toDigits]
  rw [text, String.toList_append, String.toList_intercalate, List.map_map, digits]
  rfl

theorem IsProper.stops (proper : v.IsProper) : Stops isGroupChar (v.extra.getD "").toList := by
  cases isExtra : v.extra with
  | none => simp
  | some extra =>
      obtain ⟨c, rest, shape, noGroup, _⟩ := proper.extra extra isExtra
      rw [Option.getD_some, shape]
      exact stops_cons.mpr noGroup

theorem IsProper.noFeed (proper : v.IsProper) : '\n' ∉ (v.extra.getD "").toList.drop 1 := by
  cases isExtra : v.extra with
  | none => simp
  | some extra =>
      obtain ⟨c, rest, shape, _, noFeed⟩ := proper.extra extra isExtra
      rwa [Option.getD_some, shape]

/-- A proper version is read from its text. -/
theorem read?_text (proper : v.IsProper) : read? v.text = some v := by
  have whole := read?_groupsText proper.nonempty proper.small proper.stops proper.noFeed
  rw [← toList_text, String.ofList_toList] at whole
  rw [whole]
  obtain ⟨groups, extra⟩ := v
  cases extra with
  | none => simp
  | some extra =>
      obtain ⟨c, rest, shape, _, _⟩ := proper.extra extra rfl
      have nonempty : extra.toList ≠ [] := by simp [shape]
      rw [Option.getD_some, if_neg nonempty, String.ofList_toList]

theorem group?_le {digits : List Char} {group : Nat} (found : group? digits = some group) :
    group ≤ groupLimit := by
  unfold group? at found
  split at found
  · simp only at found
    split at found
    · next small =>
      obtain rfl := Option.some.inj found
      exact small
    · simp at found
  · simp at found

theorem of_mapM_group? {parts : List (List Char)} {groups : List Nat}
    (found : parts.mapM group? = some groups) :
    groups.length = parts.length ∧ ∀ group ∈ groups, group ≤ groupLimit := by
  induction parts generalizing groups with
  | nil =>
      obtain rfl := Option.some.inj found
      exact ⟨rfl, fun _ member => nomatch member⟩
  | cons part parts ih =>
      simp only [List.mapM_cons, Option.bind_eq_bind, Option.bind_eq_some_iff] at found
      obtain ⟨group, isGroup, others, areGroups, made⟩ := found
      obtain rfl := Option.some.inj made
      obtain ⟨sizes, small⟩ := ih areGroups
      exact ⟨by simp [sizes], List.forall_mem_cons.mpr ⟨group?_le isGroup, small⟩⟩

/-- Only proper versions are read. -/
theorem isProper_of_read? {text : String} (found : read? text = some v) : v.IsProper := by
  simp only [read?, Option.bind_eq_bind, Option.bind_eq_some_iff] at found
  obtain ⟨first, _, _, _, groups, isGroups, found⟩ := found
  obtain ⟨sizes, small⟩ := of_mapM_group? isGroups
  have nonempty : groups ≠ [] := fun none => by
    rw [none, List.length_nil] at sizes
    exact Text.pieces_ne_nil _ _ (List.length_eq_zero_iff.mp sizes.symm)
  split at found
  · obtain rfl := Option.some.inj found
    exact ⟨nonempty, small, fun _ isExtra => absurd isExtra (Option.some_ne_none _).symm⟩
  · next c rest shape =>
    split at found
    · simp at found
    · next noFeed =>
      obtain rfl := Option.some.inj found
      refine ⟨nonempty, small, fun extra isExtra => ⟨c, rest, ?_, ?_, noFeed⟩⟩
      · obtain rfl := Option.some.inj isExtra
        exact String.toList_ofList
      · have rejected := List.head?_dropWhile_not isGroupChar text.toList
        rwa [shape] at rejected

/-! ## The dialect -/

/-- Versions from 3.0 on. -/
def IsAtLeastThree (v : Version) : Prop := compare v .three ≠ .lt

instance (v : Version) : Decidable v.IsAtLeastThree :=
  inferInstanceAs (Decidable (compare v .three ≠ .lt))

/-- Whether a version is 3.0 at least is settled by its groups. -/
theorem isAtLeastThree_iff : v.IsAtLeastThree ↔
    compareGroups (padded (max v.groups.length 2) v.groups)
      (padded (max v.groups.length 2) [3, 0]) ≠ .lt := by
  change (compareGroups (padded (max v.groups.length 2) v.groups)
      (padded (max v.groups.length 2) [3, 0])).then (compareExtra v.extra none) ≠ .lt ↔ _
  have extra : compareExtra v.extra none ≠ .lt := by
    cases v.extra <;> simp [compareExtra]
  cases compareGroups (padded (max v.groups.length 2) v.groups)
    (padded (max v.groups.length 2) [3, 0]) with
  | lt => simp
  | eq => simpa using extra
  | gt => simp

/-- The first groups decide if they differ. -/
theorem compareGroups_padded {a b : Nat} {as bs : List Nat} {count : Nat} (differs : a ≠ b) :
    compareGroups (padded count (a :: as)) (padded count (b :: bs)) = Ord.compare a b := by
  have decided : Ord.compare a b ≠ .eq := fun same => differs (Nat.compare_eq_eq.mp same)
  rw [padded, padded, List.cons_append, List.cons_append, compareGroups]
  cases order : Ord.compare a b with
  | eq => exact absurd order decided
  | lt => rfl
  | gt => rfl

theorem IsAtLeastThree.exists_groups (atLeast : v.IsAtLeastThree) :
    ∃ first others, v.groups = first :: others ∧ 3 ≤ first := by
  rw [isAtLeastThree_iff] at atLeast
  cases groups : v.groups with
  | nil =>
      rw [groups] at atLeast
      exact absurd (by decide) atLeast
  | cons first others =>
      refine ⟨first, others, rfl, ?_⟩
      by_contra small
      rw [groups, compareGroups_padded (by omega)] at atLeast
      exact atLeast (Nat.compare_eq_lt.mpr (by omega))

/-- A version is later than another one if its first group is greater. -/
theorem compare_of_groups {w : Version} {a b : Nat} {as bs : List Nat} (left : v.groups = a :: as)
    (right : w.groups = b :: bs) (differs : a ≠ b) : compare v w = Ord.compare a b := by
  have decided : Ord.compare a b ≠ .eq := fun same => differs (Nat.compare_eq_eq.mp same)
  change (compareGroups (padded _ v.groups) (padded _ w.groups)).then _ = _
  rw [left, right, compareGroups_padded differs]
  cases order : Ord.compare a b with
  | eq => exact absurd order decided
  | lt => rfl
  | gt => rfl

/-- Versions from 3.0 on are read and written as 3.0 is. -/
theorem nearest_of_isAtLeastThree (atLeast : v.IsAtLeastThree) : v.nearest = .three := by
  obtain ⟨first, others, groups, large⟩ := atLeast.exists_groups
  have twoGroups : two.groups = 2 :: [0] := rfl
  have later : compare v two = .gt := by
    rw [compare_of_groups groups twoGroups (by omega), Nat.compare_eq_gt]
    omega
  have earlier : compare two v = .lt := by
    rw [compare_of_groups twoGroups groups (by omega), Nat.compare_eq_lt]
    omega
  have notTwo : same v two = false := by rw [same, later]; rfl
  unfold nearest official
  rw [List.find?_cons_of_neg (by simp [notTwo])]
  by_cases exact : same v three = true
  · rw [List.find?_cons_of_pos exact]
  · have equal : compare v three ≠ .eq := fun isEqual => exact (by rw [same, isEqual]; rfl)
    have after : compare three v = .lt := by
      rw [compare_swap]
      cases order : compare v three with
      | lt => exact absurd order atLeast
      | eq => exact absurd order equal
      | gt => rfl
    rw [List.find?_cons_of_neg exact, List.find?_nil]
    simp [earlier, after]

/-- Versions before 3.0 are read and written as 2.0 is. -/
theorem nearest_of_not_isAtLeastThree (old : ¬ v.IsAtLeastThree) : v.nearest = .two := by
  have below : compare v three = .lt := Decidable.not_not.mp old
  have notThree : ¬ same v three = true := by rw [same, below]; decide
  have notAfter : compare three v = .gt := by rw [compare_swap, below]; rfl
  unfold nearest official
  by_cases exact : same v two = true
  · rw [List.find?_cons_of_pos exact]
  · rw [List.find?_cons_of_neg exact, List.find?_cons_of_neg notThree, List.find?_nil]
    cases order : compare v two with
    | eq => exact absurd (by rw [same, order]; rfl) exact
    | lt =>
        have after : compare two v = .gt := by rw [compare_swap, order]; rfl
        simp [order, after, notAfter]
    | gt =>
        have before : compare two v = .lt := by rw [compare_swap, order]; rfl
        simp [before, notAfter]

/-- The dialect of a version depends on its groups alone. -/
theorem nearest_of_groups {w : Version} (groups : v.groups = w.groups) : v.nearest = w.nearest := by
  have atLeast : v.IsAtLeastThree ↔ w.IsAtLeastThree := by
    rw [isAtLeastThree_iff, isAtLeastThree_iff, groups]
  by_cases new : v.IsAtLeastThree
  · rw [nearest_of_isAtLeastThree new, nearest_of_isAtLeastThree (atLeast.mp new)]
  · rw [nearest_of_not_isAtLeastThree new, nearest_of_not_isAtLeastThree (mt atLeast.mpr new)]

end Haystack.Version
