import Haystack.Json.Text
import Haystack.Proofs.OrderedMap
import Haystack.Proofs.Phrase
import Haystack.Proofs.Text.Pieces

/-!
Reading JSON texts that were printed.

A tree without numbers is printed as a text that is read as that tree, whatever follows it, if its
arrays and objects are nested no deeper than is read.
-/
namespace Haystack.Json

open Phrase

variable {rest : List Char} {c : Char}

/-! ## Strings -/

/-- The ways in which a character may be printed in a string. -/
theorem escapeChar_cases (c : Char) :
    (∃ letter, escapeChar c = ['\\', letter] ∧ letter ≠ 'u' ∧ escapeOf? letter = some c) ∨
    (c.toNat < 0x20 ∧ escapeChar c =
      ['\\', 'u', '0', '0', Text.Hex.digit (c.toNat / 16), Text.Hex.digit (c.toNat % 16)]) ∨
    (escapeChar c = [c] ∧ c ≠ '"' ∧ c ≠ '\\' ∧ 0x20 ≤ c.toNat) := by
  unfold escapeChar
  split
  · next same => exact .inl ⟨'"', rfl, by decide, by rw [same]; rfl⟩
  split
  · next same => exact .inl ⟨'\\', rfl, by decide, by rw [same]; rfl⟩
  split
  · next same => exact .inl ⟨'b', rfl, by decide, by rw [same]; rfl⟩
  split
  · next same => exact .inl ⟨'f', rfl, by decide, by rw [same]; rfl⟩
  split
  · next same => exact .inl ⟨'n', rfl, by decide, by rw [same]; rfl⟩
  split
  · next same => exact .inl ⟨'r', rfl, by decide, by rw [same]; rfl⟩
  split
  · next same => exact .inl ⟨'t', rfl, by decide, by rw [same]; rfl⟩
  split
  · next control => exact .inr (.inl ⟨control, rfl⟩)
  · next noQuote noBackslash _ _ _ _ _ large =>
    exact .inr (.inr ⟨rfl, noQuote, noBackslash, Nat.le_of_not_lt large⟩)

theorem reads_hexDigit {value : Nat} (isDigit : Text.Hex.digitValue? c = some value) :
    Reads hexDigit [c] rest value := by
  refine Reads.last (reads_satisfying (by rw [isDigit]; rfl)) ?_
  rw [isDigit]
  exact reads_pure

/-- The two digits of a control character mean its number. -/
theorem digitValue?_control : ∀ n < 0x20, Text.Hex.digitValue? (Text.Hex.digit (n / 16)) = some (n / 16) ∧
    Text.Hex.digitValue? (Text.Hex.digit (n % 16)) = some (n % 16) := by
  decide

theorem reads_unicodeEscape (control : c.toNat < 0x20) : Reads unicodeEscape
    ['0', '0', Text.Hex.digit (c.toNat / 16), Text.Hex.digit (c.toNat % 16)] rest c := by
  obtain ⟨high, low⟩ := digitValue?_control c.toNat control
  have zero : Text.Hex.digitValue? '0' = some 0 := by decide
  have digits : Reads fourDigits
      ['0', '0', Text.Hex.digit (c.toNat / 16), Text.Hex.digit (c.toNat % 16)] rest
      (((0 * 16 + 0) * 16 + c.toNat / 16) * 16 + c.toNat % 16) := by
    refine Reads.bind_cons (reads_hexDigit zero) (Reads.bind_cons (reads_hexDigit zero) ?_)
    exact Reads.bind_cons (reads_hexDigit high) (Reads.last (reads_hexDigit low) reads_pure)
  have number : ((0 * 16 + 0) * 16 + c.toNat / 16) * 16 + c.toNat % 16 = c.toNat := by omega
  rw [number] at digits
  refine Reads.last digits ?_
  rw [if_pos (by omega), Char.ofNat_toNat]
  exact reads_pure

theorem reads_stringChar (c : Char) : Reads stringChar (escapeChar c) rest c := by
  have noPlain (more : List Char) : Fails
      (satisfying fun c => c != '"' && c != '\\' && decide (0x20 ≤ c.toNat)) ('\\' :: more) :=
    fails_satisfying (stops_cons.mpr (by decide))
  rcases escapeChar_cases c with ⟨letter, written, other, meaning⟩ | ⟨control, written⟩ |
    ⟨written, noQuote, noBackslash, large⟩
  · rw [written]
    refine Fails.orElse_takes (noPlain _) (Reads.bind_cons reads_char ?_)
    refine Reads.last (reads_satisfying rfl) ?_
    simp only [if_neg other, meaning]
    exact reads_pure
  · rw [written]
    refine Fails.orElse_takes (noPlain _) (Reads.bind_cons reads_char ?_)
    refine Reads.bind_cons (reads_satisfying rfl) ?_
    rw [if_pos rfl]
    exact reads_unicodeEscape control
  · rw [written]
    exact Takes.orElse (reads_satisfying (by simp [noQuote, noBackslash, large]))

theorem fails_stringChar : Fails stringChar ('"' :: rest) :=
  Fails.orElse (fails_satisfying (stops_cons.mpr (by decide))) (Fails.bind (fails_char (by simp)))

theorem escapeChar_ne_nil (c : Char) : escapeChar c ≠ [] := by
  rcases escapeChar_cases c with ⟨letter, written, _⟩ | ⟨_, written⟩ | ⟨written, _⟩ <;> simp [written]

theorem quote_toList (s : String) :
    (quote s).toList = '"' :: (s.toList.flatMap escapeChar ++ ['"']) := by
  rw [quote, String.toList_ofList]
  rfl

/-- A printed string is read as it was. -/
theorem reads_string (s : String) : Reads string (quote s).toList rest s := by
  have body : TakesEach stringChar Eq ('"' :: rest) (s.toList.flatMap escapeChar) s.toList :=
    TakesEach.of_forall₂ (fun _ => True) (List.forall₂_same.mpr fun c _ =>
      ⟨escapeChar_ne_nil c, fun _ => trivial, fun _ _ => reads_stringChar c⟩) trivial fails_stringChar
  rw [quote_toList]
  refine Reads.bind_cons reads_char (Reads.bind (reads_many body) (Reads.last reads_char ?_))
  rw [String.ofList_toList]
  exact reads_pure

theorem fails_string (differs : rest.head? ≠ some '"') : Fails string rest :=
  Fails.bind (fails_char differs)

/-! ## Items between brackets -/

theorem reads_blanks_nil (stops : Stops isBlank rest) : Reads blanks [] rest () :=
  Reads.skip (reads_run_nil stops) reads_pure

/-- A text without blanks in front that is read in one way, whatever follows it. -/
structure Printed {α : Type} (item : Phrase α) (text : String) (a : α) : Prop where
  front : ∃ c more, text.toList = c :: more ∧ isBlank c = false
  reads : ∀ rest, Reads item text.toList rest a

theorem Printed.stops {α : Type} {item : Phrase α} {text : String} {a : α}
    (printed : Printed item text a) : Stops isBlank (text.toList ++ rest) := by
  obtain ⟨c, more, shape, noBlank⟩ := printed.front
  rw [shape]
  exact stops_cons.mpr noBlank

theorem reads_bracketed {α : Type} {item : Phrase α} {opening closing : Char} {texts : List String}
    {values : List α} (printed : List.Forall₂ (Printed item) texts values)
    (noBlank : isBlank closing = false) (noComma : closing ≠ ',')
    (ends : ∀ rest, Fails item (closing :: rest)) :
    Reads (bracketed opening closing item)
      (opening :: ((String.intercalate "," texts).toList ++ [closing])) rest values := by
  have closes {rest : List Char} : Stops isBlank (closing :: rest) := stops_cons.mpr noBlank
  refine Reads.bind_cons reads_char ?_
  cases printed with
  | nil =>
      refine Reads.skip (reads_blanks_nil closes) ?_
      refine Reads.skip (Fails.optional (Fails.bind (ends rest))) (Reads.last reads_char reads_pure)
  | @cons first value texts values here others =>
      have parts : TakesEach (do
          let _ ← char ','
          blanks
          let next ← item
          blanks
          pure next) Eq (closing :: rest) (texts.flatMap fun text => ',' :: text.toList) values := by
        refine TakesEach.of_forall₂ (Stops isBlank) ?_ closes (Fails.bind (fails_char (by simpa using noComma)))
        refine others.imp fun text value printed => ⟨by simp, fun _ => stops_cons.mpr rfl, ?_⟩
        intro more noBlank
        refine Reads.bind_cons reads_char (Reads.skip (reads_blanks_nil printed.stops) ?_)
        exact Reads.last (printed.reads more) (Reads.skip (reads_blanks_nil noBlank) reads_pure)
      have next : Stops isBlank ((texts.flatMap fun text => ',' :: text.toList) ++ closing :: rest) := by
        cases texts with
        | nil => exact closes
        | cons text texts => exact stops_cons.mpr rfl
      have items : Reads (do
          let first ← item
          blanks
          let others ← many do
            let _ ← char ','
            blanks
            let next ← item
            blanks
            pure next
          pure (first :: others)) (String.intercalate "," (first :: texts)).toList (closing :: rest)
          (value :: values) := by
        rw [show "," = String.singleton ',' from rfl, Text.toList_intercalate_char]
        refine Reads.bind (here.reads _) (Reads.skip (reads_blanks_nil next) ?_)
        exact Reads.last (reads_many parts) reads_pure
      refine Reads.skip (a := ()) ?_ (Reads.bind items.optional (Reads.last reads_char reads_pure))
      rw [show "," = String.singleton ',' from rfl, Text.toList_intercalate_char, List.append_assoc,
        List.append_assoc]
      exact reads_blanks_nil here.stops

/-! ## Trees -/

/-- A tree without numbers, in whose objects no name occurs twice. -/
inductive Tree.IsTextual : Tree → Prop where
  | null : IsTextual .null
  | bool (b : Bool) : IsTextual (.bool b)
  | string (s : String) : IsTextual (.string s)
  | array (items : List Tree) (inside : ∀ item ∈ items, IsTextual item) : IsTextual (.array items)
  | object (members : OrderedMap Tree) (distinct : members.Distinct)
      (inside : ∀ tree ∈ members.values, IsTextual tree) : IsTextual (.object members)

mutual

/-- How deep arrays and objects are nested. -/
def Tree.nesting : Tree → Nat
  | .array items => nestingOfItems items + 1
  | .object members => nestingOfMembers members + 1
  | _ => 0
termination_by structural tree => tree

def Tree.nestingOfItems : List Tree → Nat
  | [] => 0
  | item :: rest => max item.nesting (nestingOfItems rest)
termination_by structural items => items

def Tree.nestingOfMembers : OrderedMap Tree → Nat
  | ⟨items⟩ => nestingOfMemberItems items
termination_by structural members => members

def Tree.nestingOfMemberItems : List (String × Tree) → Nat
  | [] => 0
  | (_, tree) :: rest => max tree.nesting (nestingOfMemberItems rest)
termination_by structural items => items

end

namespace Tree

theorem nesting_le_of_mem {item : Tree} {items : List Tree} (member : item ∈ items) :
    item.nesting ≤ nestingOfItems items := by
  induction items with
  | nil => exact nomatch member
  | cons first others ih =>
      rw [nestingOfItems]
      rcases List.mem_cons.mp member with rfl | inOthers
      · exact Nat.le_max_left _ _
      · exact Nat.le_trans (ih inOthers) (Nat.le_max_right _ _)

theorem nesting_le_of_mem_values {tree : Tree} {members : OrderedMap Tree}
    (member : tree ∈ members.values) : tree.nesting ≤ nestingOfMembers members := by
  obtain ⟨items⟩ := members
  obtain ⟨item, inItems, rfl⟩ := List.mem_map.mp member
  rw [nestingOfMembers]
  induction items with
  | nil => exact nomatch inItems
  | cons first others ih =>
      obtain ⟨name, tree⟩ := first
      rw [nestingOfMemberItems]
      rcases List.mem_cons.mp inItems with rfl | inOthers
      · exact Nat.le_max_left _ _
      · exact Nat.le_trans (ih inOthers (List.mem_map_of_mem inOthers)) (Nat.le_max_right _ _)

theorem printItems_eq (items : List Tree) : printItems items = items.map print := by
  induction items with
  | nil => rfl
  | cons first others ih => rw [printItems, ih, List.map_cons]

theorem printMembers_eq (members : OrderedMap Tree) :
    printMembers members = members.items.map fun item => quote item.1 ++ ":" ++ item.2.print := by
  obtain ⟨items⟩ := members
  rw [printMembers]
  induction items with
  | nil => rfl
  | cons first others ih =>
      obtain ⟨name, tree⟩ := first
      rw [printMemberItems, ih]
      rfl

end Tree

/-- The characters that atoms start with. -/
def isAtomStart (c : Char) : Bool :=
  c == 'n' || c == 't' || c == 'f' || c == '"' || c == '-' || c.isDigit

theorem fails_number (stops : Stops isAtomStart rest) : Fails number rest := by
  have noDigit : Stops Char.isDigit rest := stops.mono fun c isDigit => by simp [isAtomStart, isDigit]
  have noZero : Stops (· == '0') rest := noDigit.mono fun c isZero => by
    rw [beq_iff_eq.mp isZero]
    rfl
  refine Fails.bind (Reads.skip_fails (Fails.optional (fails_char (stops.head?_ne (by decide)))) ?_)
  refine Fails.bind (Fails.orElse (Fails.bind (fails_char (noDigit.head?_ne (by decide)))) ?_)
  exact Reads.skip_fails (reads_notAhead noZero) (fails_run1 noDigit)

theorem fails_atom (stops : Stops isAtomStart rest) : Fails atom rest := by
  refine Fails.orElse (Fails.bind (fails_word (c := 'n') (by decide) (stops.head?_ne (by decide)))) ?_
  refine Fails.orElse (Fails.bind (fails_word (c := 't') (by decide) (stops.head?_ne (by decide)))) ?_
  refine Fails.orElse (Fails.bind (fails_word (c := 'f') (by decide) (stops.head?_ne (by decide)))) ?_
  exact Fails.orElse (Fails.bind (fails_string (stops.head?_ne (by decide)))) (fails_number stops)

/-- No value is where a bracket closes. -/
theorem fails_valueWithin (depth : Nat) (closes : c = ']' ∨ c = '\x7d') :
    Fails (valueWithin depth) (c :: rest) := by
  have noAtom : Fails atom (c :: rest) := fails_atom (stops_cons.mpr (by
    rcases closes with rfl | rfl <;> decide))
  cases depth with
  | zero => exact noAtom
  | succ depth =>
      refine Fails.orElse noAtom (Fails.orElse (Fails.bind (Fails.bind (fails_char ?_)))
        (Fails.bind (Fails.bind (fails_char ?_))))
      all_goals rcases closes with rfl | rfl <;> simp

theorem reads_of_atom {text : List Char} {tree : Tree} (reads : Reads atom text rest tree)
    (depth : Nat) : Reads (valueWithin depth) text rest tree := by
  cases depth with
  | zero => exact reads
  | succ depth => exact Takes.orElse reads

theorem reads_member {value : Phrase Tree} {name : String} {tree : Tree}
    (printed : Printed value tree.print tree) (rest : List Char) :
    Reads (member value) (quote name ++ ":" ++ tree.print).toList rest (name, tree) := by
  rw [show (quote name ++ ":" ++ tree.print).toList = (quote name).toList ++ ':' :: tree.print.toList
    by simp]
  refine Reads.bind (reads_string name) (Reads.skip (reads_blanks_nil (stops_cons.mpr rfl)) ?_)
  refine Reads.bind_cons reads_char (Reads.skip (reads_blanks_nil printed.stops) ?_)
  exact Reads.last (printed.reads rest) reads_pure

theorem printed_array {items : List Tree} {depth : Nat}
    (inside : ∀ item ∈ items, Printed (valueWithin depth) item.print item) :
    Printed (valueWithin (depth + 1)) (Tree.array items).print (.array items) := by
  have shape : (Tree.array items).print.toList =
      '[' :: ((String.intercalate "," (items.map Tree.print)).toList ++ [']']) := by
    rw [Tree.print, Tree.printItems_eq]
    simp
  have printed : List.Forall₂ (Printed (valueWithin depth)) (items.map Tree.print) items := by
    rw [List.forall₂_map_left_iff, List.forall₂_same]
    exact inside
  refine ⟨⟨'[', _, shape, rfl⟩, fun rest => ?_⟩
  rw [shape]
  refine Fails.orElse_takes (fails_atom (stops_cons.mpr (by decide))) (Takes.orElse ?_)
  exact Reads.last (reads_bracketed printed (by decide) (by decide) fun rest =>
    fails_valueWithin depth (.inl rfl)) reads_pure

theorem printed_object {members : OrderedMap Tree} {depth : Nat} (distinct : members.Distinct)
    (inside : ∀ value ∈ members.values, Printed (valueWithin depth) value.print value) :
    Printed (valueWithin (depth + 1)) (Tree.object members).print (.object members) := by
  have shape : (Tree.object members).print.toList = '\x7b' :: ((String.intercalate ","
      (members.items.map fun item => quote item.1 ++ ":" ++ item.2.print)).toList ++ ['\x7d']) := by
    rw [Tree.print, Tree.printMembers_eq]
    simp
  have printed : List.Forall₂ (Printed (member (valueWithin depth)))
      (members.items.map fun item => quote item.1 ++ ":" ++ item.2.print) members.items := by
    rw [List.forall₂_map_left_iff, List.forall₂_same]
    intro item inItems
    have whole := inside item.2 (List.mem_map_of_mem inItems)
    exact ⟨⟨'"', _, by simp [quote_toList]; rfl, rfl⟩, reads_member whole⟩
  refine ⟨⟨'\x7b', _, shape, rfl⟩, fun rest => ?_⟩
  rw [shape]
  refine Fails.orElse_takes (fails_atom (stops_cons.mpr (by decide))) (Fails.orElse_takes ?_ ?_)
  · exact Fails.bind (Fails.bind (fails_char (by simp)))
  · refine Reads.last (reads_bracketed printed (by decide) (by decide) fun rest => ?_) ?_
    · exact Fails.bind (fails_string (by simp))
    · rw [OrderedMap.ofList_items distinct]
      exact reads_pure

/-- Trees without numbers are read as they were printed. -/
theorem printed_of_isTextual {tree : Tree} (textual : tree.IsTextual) {depth : Nat}
    (shallow : tree.nesting ≤ depth) : Printed (valueWithin depth) tree.print tree := by
  induction textual generalizing depth with
  | null =>
      refine ⟨⟨'n', "ull".toList, by decide, rfl⟩, fun rest => reads_of_atom ?_ depth⟩
      exact Takes.orElse (Reads.last (reads_word "null") reads_pure)
  | bool b =>
      cases b with
      | true =>
          refine ⟨⟨'t', "rue".toList, by decide, rfl⟩, fun rest => reads_of_atom ?_ depth⟩
          refine Fails.orElse_takes (Fails.bind (fails_word (c := 'n') (by decide) (by simp [Tree.print]))) ?_
          exact Takes.orElse (Reads.last (reads_word "true") reads_pure)
      | false =>
          refine ⟨⟨'f', "alse".toList, by decide, rfl⟩, fun rest => reads_of_atom ?_ depth⟩
          refine Fails.orElse_takes (Fails.bind (fails_word (c := 'n') (by decide) (by simp [Tree.print]))) ?_
          refine Fails.orElse_takes (Fails.bind (fails_word (c := 't') (by decide) (by simp [Tree.print]))) ?_
          exact Takes.orElse (Reads.last (reads_word "false") reads_pure)
  | string s =>
      have front : (Tree.string s).print.toList = '"' :: (s.toList.flatMap escapeChar ++ ['"']) :=
        quote_toList s
      refine ⟨⟨'"', _, front, rfl⟩, fun rest => reads_of_atom ?_ depth⟩
      refine Fails.orElse_takes (Fails.bind (fails_word (c := 'n') (by decide) (by simp [front]))) ?_
      refine Fails.orElse_takes (Fails.bind (fails_word (c := 't') (by decide) (by simp [front]))) ?_
      refine Fails.orElse_takes (Fails.bind (fails_word (c := 'f') (by decide) (by simp [front]))) ?_
      exact Takes.orElse (Reads.last (reads_string s) reads_pure)
  | array items inside ih =>
      rw [Tree.nesting] at shallow
      obtain ⟨deeper, rfl⟩ : ∃ n, depth = n + 1 := ⟨depth - 1, by omega⟩
      refine printed_array fun item member => ih item member ?_
      have small := Tree.nesting_le_of_mem member
      omega
  | object members distinct inside ih =>
      rw [Tree.nesting] at shallow
      obtain ⟨deeper, rfl⟩ : ∃ n, depth = n + 1 := ⟨depth - 1, by omega⟩
      refine printed_object distinct fun value member => ih value member ?_
      have small := Tree.nesting_le_of_mem_values member
      omega

/-- A tree without numbers that is nested no deeper than is read is read as it was printed. -/
theorem read?_print {tree : Tree} (textual : tree.IsTextual) (shallow : tree.nesting ≤ depthLimit) :
    read? tree.print = some tree := by
  have printed := printed_of_isTextual textual shallow
  have reads : Reads (do blanks; let tree ← valueWithin depthLimit; blanks; pure tree)
      tree.print.toList [] tree := by
    refine Reads.skip (a := ()) (reads_blanks_nil printed.stops) (Reads.last (printed.reads []) ?_)
    exact Reads.skip (reads_blanks_nil stops_nil) reads_pure
  rw [read?, readAll_of_reads reads]
  rfl

end Haystack.Json
