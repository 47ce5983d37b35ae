import Haystack.Proofs.Sql.Queries

/-!
Conditions as disjunctions of conjunctions.

Outside parentheses `AND` binds tighter than `OR`, and the `AND` of a `BETWEEN` belongs to it.
-/
namespace Haystack.Sql

def disjuncts (condition : List Item) : List (List Item) := cut (Item.isWord "OR") condition

/-- The parts of a condition between one `AND` and another, but for that of a `BETWEEN`. -/
def conjunctsFrom {α : Type} (item : α → Item) (between : Bool) : List α → List (List α)
  | [] => [[]]
  | a :: rest =>
      if (item a).isWord "AND" && !between then [] :: conjunctsFrom item false rest
      else
        let within := (item a).isWord "BETWEEN" || between && !(item a).isWord "AND"
        (conjunctsFrom item within rest).modifyHead (a :: ·)

def conjuncts (condition : List Item) : List (List Item) := conjunctsFrom id false condition

section Conditions

variable {items rest : List Item} {row : Nat} {source : Source}

theorem conjuncts_cons {item : Item} (noAnd : item.isWord "AND" = false) (noBetween : item.isWord "BETWEEN" = false)
    (items : List Item) : conjuncts (item :: items) = (conjuncts items).modifyHead (item :: ·) := by
  simp only [conjuncts, conjunctsFrom, id_eq, noAnd, noBetween, Bool.false_and, Bool.false_or]
  rfl

theorem conjuncts_of_whole (noAnd : ∀ item ∈ items, item.isWord "AND" = false)
    (noBetween : ∀ item ∈ items, item.isWord "BETWEEN" = false) : conjuncts items = [items] := by
  induction items with
  | nil => rfl
  | cons item items ih =>
      obtain ⟨notAnd, others⟩ := List.forall_mem_cons.mp noAnd
      obtain ⟨notBetween, further⟩ := List.forall_mem_cons.mp noBetween
      rw [conjuncts_cons notAnd notBetween, ih others further]
      rfl

theorem conjuncts_append (noAnd : ∀ item ∈ items, item.isWord "AND" = false)
    (noBetween : ∀ item ∈ items, item.isWord "BETWEEN" = false) (rest : List Item) :
    conjuncts (items ++ .word "AND" :: rest) = items :: conjuncts rest := by
  induction items with
  | nil => rfl
  | cons item items ih =>
      obtain ⟨notAnd, others⟩ := List.forall_mem_cons.mp noAnd
      obtain ⟨notBetween, further⟩ := List.forall_mem_cons.mp noBetween
      rw [List.cons_append, conjuncts_cons notAnd notBetween, ih others further]
      rfl

theorem conjuncts_validity (row : Nat) (rest : List Item) :
    conjuncts (source.validityItems (rowName row) ++ .word "AND" :: rest) =
      source.validityItems (rowName row) :: conjuncts rest := by
  have notAnd : (rowName row == "AND") = false := rowName_ne row (by decide)
  have notBetween : (rowName row == "BETWEEN") = false := rowName_ne row (by decide)
  unfold Source.validityItems
  cases source.dialect with
  | postgres =>
      simp +decide [conjuncts, conjunctsFrom, notAnd, notBetween, Item.isWord, -beq_eq_false_iff_ne, -beq_iff_eq]
  | sqlite => simp +decide [conjuncts, conjunctsFrom, Item.isWord]

theorem noOr_admission (row : Nat) : ∀ item ∈ source.admissionItems (rowName row), item.isWord "OR" = false := by
  have notOr : (rowName row == "OR") = false := rowName_ne row (by decide)
  unfold Source.admissionItems Source.validityItems Source.ownershipItems
  cases source.dialect with
  | postgres => simp +decide [Item.isWord, notOr, -beq_eq_false_iff_ne]
  | sqlite => simp +decide [Item.isWord, notOr, -beq_eq_false_iff_ne]

theorem plain_ownershipItems {rows : List Nat} (member : row ∈ rows) :
    Plain rows (source.ownershipItems (rowName row)) := by
  simp +decide [Source.ownershipItems, plain_rowName member]

theorem Plain.isWord {rows : List Nat} (plain : Plain rows items) {keyword : String}
    (isKeyword : keywords.contains keyword = true) : ∀ item ∈ items, item.isWord keyword = false := by
  intro item member
  have whole := plain.whole item member
  cases item with
  | group inner => rfl
  | token token =>
      cases token with
      | word own =>
          refine beq_false_of_ne fun same => ?_
          have other : keywords.contains own = false := whole
          rw [same, isKeyword] at other
          exact nomatch other
      | _ => rfl

theorem conjuncts_admission (row : Nat) (items : List Item) :
    conjuncts (source.admissionItems (rowName row) ++ .word "AND" :: items) =
      source.validityItems (rowName row) :: source.ownershipItems (rowName row) :: conjuncts items := by
  have plain := @plain_ownershipItems row source [row] List.mem_cons_self
  rw [Source.admissionItems, List.append_assoc, List.cons_append, conjuncts_validity,
    conjuncts_append (plain.isWord (by decide)) (plain.isWord (by decide))]

theorem conjuncts_admissionItems (row : Nat) : conjuncts (source.admissionItems (rowName row)) =
    [source.validityItems (rowName row), source.ownershipItems (rowName row)] := by
  have plain := @plain_ownershipItems row source [row] List.mem_cons_self
  rw [Source.admissionItems, conjuncts_validity,
    conjuncts_of_whole (plain.isWord (by decide)) (plain.isWord (by decide))]

/-- An `OR` after the conditions on a row leaves its second part without them. -/
theorem disjuncts_admission_or (row : Nat) (items others : List Item) :
    disjuncts (source.admissionItems (rowName row) ++ .word "AND" :: [.group items, .word "OR", .group others]) =
      [source.admissionItems (rowName row) ++ .word "AND" :: [.group items], [.group others]] := by
  have before : ∀ item ∈ source.admissionItems (rowName row) ++ [.word "AND", .group items], item.isWord "OR" = false :=
    List.forall_mem_append.mpr ⟨noOr_admission row, by simp +decide [Item.isWord]⟩
  have parts := cut_append before (a := .word "OR") (by decide) [.group others]
  rw [List.append_assoc] at parts
  exact parts

end Conditions

end Haystack.Sql
