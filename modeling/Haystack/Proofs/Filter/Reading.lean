import Haystack.Filter.Condition
import Haystack.Filter.Reader
import Haystack.Proofs.Outcome
import Haystack.Proofs.Phrase
import Haystack.Proofs.Zinc.Blame
import Haystack.Proofs.Zinc.Boundary
import Haystack.Proofs.Zinc.Documents

/-!
What filters that are read consist of, and the reading of single tests.

A filter that is read is a condition, whose paths have one or more tags and whose tags have names of
letters, digits and underscores. It compares with literals that can be read. Each phrase of filters
yields such filters, whatever text it takes, or is refused for what the text says.
-/
namespace Haystack

/-- A lower-case letter or an underscore, and letters, digits and underscores after it. -/
def Filter.isName (name : String) : Bool :=
  match name.toList with
  | [] => false
  | first :: others => (first.isLower || first == '_') && others.all Zinc.isIdChar

/-- A path of one or more tags whose names can be read. -/
structure Path.IsNamed (path : Path) : Prop where
  nonempty : path.segments ≠ []
  names : ∀ name ∈ path.segments, Filter.isName name = true

/-- The paths that are followed to test a row. -/
def Condition.paths : Condition → List Path
  | .has path | .missing path | .compare _ path _ => [path]
  | .and left right | .or left right => left.paths ++ right.paths

/-- The comparisons of a condition with their literals, from left to right. -/
def Condition.comparisons : Condition → List (Comparison × Value)
  | .has _ | .missing _ => []
  | .compare comparison _ literal => [(comparison, literal)]
  | .and left right | .or left right => left.comparisons ++ right.comparisons

/-- The comparisons of a filter with literals, from left to right. -/
def Filter.comparisons : Filter → List (Comparison × Value)
  | .compare comparison _ (.value literal) => [(comparison, literal)]
  | .and left right | .or left right => left.comparisons ++ right.comparisons
  | _ => []

theorem Condition.comparisons_filter (condition : Condition) :
    condition.filter.comparisons = condition.comparisons := by
  induction condition with
  | and left right leftIh rightIh => exact congrArg₂ (· ++ ·) leftIh rightIh
  | or left right leftIh rightIh => exact congrArg₂ (· ++ ·) leftIh rightIh
  | _ => rfl

/-- A condition along paths whose tags have names, with literals that can be read. -/
structure Condition.IsDenoted (condition : Condition) : Prop where
  named : ∀ path ∈ condition.paths, path.IsNamed
  denotable : ∀ compared ∈ condition.comparisons, compared.2.Throughout Zinc.Denotable

theorem Condition.condition_filter (condition : Condition) : condition.filter.condition = .ok condition := by
  induction condition with
  | has path => rfl
  | missing path => rfl
  | compare comparison path value => rfl
  | and left right leftIh rightIh => rw [filter, Filter.condition, leftIh, rightIh]; rfl
  | or left right leftIh rightIh => rw [filter, Filter.condition, leftIh, rightIh]; rfl

namespace Filter

open Phrase Zinc

theorem exists_of_isName {name : String} (isName : isName name = true) :
    ∃ first others, name.toList = first :: others ∧ (first.isLower || first == '_') = true ∧
      ∀ c ∈ others, isIdChar c = true := by
  unfold Filter.isName at isName
  cases shape : name.toList with
  | nil => simp [shape] at isName
  | cons first others =>
      simp only [shape, Bool.and_eq_true, List.all_eq_true] at isName
      exact ⟨first, others, rfl, isName.1, isName.2⟩

/-- No character of a name ends a literal between single quotes. -/
theorem not_mem_of_isName {name : String} (isName : isName name = true) : '\'' ∉ name.toList := by
  obtain ⟨first, others, shape, isFirst, areOthers⟩ := exists_of_isName isName
  rw [shape]
  intro member
  rcases List.mem_cons.mp member with rfl | inOthers
  · exact absurd isFirst (by decide)
  · exact absurd (areOthers _ inOthers) (by decide)

/-- A filter that tests rows, along paths whose tags have names, with literals that can be read. -/
def IsDenoted (filter : Filter) : Prop :=
  ∃ condition : Condition, condition.filter = filter ∧ condition.IsDenoted

/-- What is read of a filter is a filter that tests rows, unless it is refused for what its text says. -/
structure Denotes (reading : Reading Filter) : Prop where
  filters : ∀ filter, reading = .ok filter → filter.IsDenoted
  blames : Blames reading

variable {path : Path} {left right : Filter} {condition operand : Phrase (Reading Filter)}

theorem isDenoted_has (named : path.IsNamed) : IsDenoted (.has (.path path)) :=
  ⟨.has path, rfl, by simpa [Condition.paths] using named, fun _ none => (List.not_mem_nil none).elim⟩

theorem isDenoted_missing (named : path.IsNamed) : IsDenoted (.missing (.path path)) :=
  ⟨.missing path, rfl, by simpa [Condition.paths] using named, fun _ none => (List.not_mem_nil none).elim⟩

theorem isDenoted_compare (comparison : Comparison) (named : path.IsNamed) {literal : Value}
    (denotable : literal.Throughout Denotable) :
    IsDenoted (.compare comparison (.path path) (.value literal)) :=
  ⟨.compare comparison path literal, rfl, by simpa [Condition.paths] using named,
    by simpa [Condition.comparisons] using denotable⟩

theorem IsDenoted.and (first : left.IsDenoted) (second : right.IsDenoted) : IsDenoted (.and left right) := by
  obtain ⟨a, rfl, inFirst⟩ := first
  obtain ⟨b, rfl, inSecond⟩ := second
  exact ⟨.and a b, rfl, List.forall_mem_append.mpr ⟨inFirst.named, inSecond.named⟩,
    List.forall_mem_append.mpr ⟨inFirst.denotable, inSecond.denotable⟩⟩

theorem IsDenoted.or (first : left.IsDenoted) (second : right.IsDenoted) : IsDenoted (.or left right) := by
  obtain ⟨a, rfl, inFirst⟩ := first
  obtain ⟨b, rfl, inSecond⟩ := second
  exact ⟨.or a b, rfl, List.forall_mem_append.mpr ⟨inFirst.named, inSecond.named⟩,
    List.forall_mem_append.mpr ⟨inFirst.denotable, inSecond.denotable⟩⟩

theorem denotes_ok {filter : Filter} (denoted : filter.IsDenoted) : Denotes (.ok filter) where
  filters := fun _ same => Except.ok.inj same ▸ denoted
  blames := blames_ok filter

/-! ## Terms -/

theorem yields_identifier : Yields identifier (isName · = true) := by
  refine Yields.token (yields_satisfying.bind fun first isFirst => yields_run.bind fun others areOthers => ?_)
  refine yields_pure ?_
  simp only [isName, String.toList_ofList, isFirst, Bool.true_and, List.all_eq_true]
  exact areOthers

theorem yields_pathPhrase : Yields pathPhrase Path.IsNamed := by
  refine Yields.named (yields_identifier.bind fun first isFirst => ?_)
  have following : Yields (many do word "->"; identifier) fun names => ∀ name ∈ names, isName name = true :=
    Yields.many (yields_after fun _ => yields_identifier)
  exact following.bind fun others areOthers =>
    yields_pure ⟨List.cons_ne_nil _ _, List.forall_mem_cons.mpr ⟨isFirst, areOthers⟩⟩

theorem yields_missingTest : Yields missingTest IsDenoted :=
  Yields.named (yields_after fun _ => yields_after fun _ =>
    yields_pathPhrase.bind fun _ named => yields_pure (isDenoted_missing named))

theorem yields_literal : Yields literal fun reading => Zinc.Denotes reading ∧ Blames reading := by
  have isTruth (b : Bool) : Zinc.Denotes (.ok (.bool b)) := Zinc.denotes_ok (throughout_of_leaf trivial trivial)
  exact Yields.orElse (yields_after fun b => yields_pure ⟨isTruth b, blames_ok _⟩) fun cursor reading after found =>
    ⟨yields_value cursor reading after found, blames_value cursor reading after found⟩

theorem yields_comparisonTest : Yields comparisonTest Denotes := by
  refine Yields.named (yields_pathPhrase.bind fun path named => yields_after fun _ =>
    yields_after fun comparison => yields_after fun _ => yields_literal.bind fun reading isLiteral =>
      yields_pure ⟨fun filter read => ?_, isLiteral.2.map⟩)
  obtain ⟨literal, isRead, rfl⟩ := Outcome.of_map read
  exact isDenoted_compare comparison named (isLiteral.1 literal isRead)

theorem yields_hasTest : Yields hasTest IsDenoted :=
  Yields.named (yields_pathPhrase.bind fun _ named => yields_pure (isDenoted_has named))

theorem yields_parenthesised (yields : Yields condition Denotes) :
    Yields (parenthesised condition) Denotes :=
  Yields.named (yields_after fun _ => yields_after fun _ => yields.bind fun _ denotes =>
    yields_after fun _ => yields_after fun _ => yields_pure denotes)

theorem yields_term (yields : Yields condition Denotes) : Yields (term condition) Denotes := by
  refine (yields_parenthesised yields).orElse (Yields.orElse ?_ (yields_comparisonTest.orElse ?_))
  · exact yields_missingTest.bind fun _ denoted => yields_pure (denotes_ok denoted)
  · exact yields_hasTest.bind fun _ denoted => yields_pure (denotes_ok denoted)

/-! ## Operands with words between them -/

section Chains

variable {join : Filter → Filter → Filter}
  (keeps : ∀ left right : Filter, left.IsDenoted → right.IsDenoted → (join left right).IsDenoted)
include keeps

theorem denotes_foldlM {start : Filter} {others : List (Reading Filter)} (denoted : start.IsDenoted)
    (areOthers : ∀ other ∈ others, Denotes other) :
    Denotes (others.foldlM (fun left next => next.map (join left)) start) := by
  induction others generalizing start with
  | nil => exact denotes_ok denoted
  | cons other others ih =>
      rw [List.forall_mem_cons] at areOthers
      rw [List.foldlM_cons]
      cases other with
      | error refusal => exact areOthers.1
      | ok next => exact ih (keeps start next denoted (areOthers.1.filters next rfl)) areOthers.2

theorem denotes_joined {first : Reading Filter} {others : List (Reading Filter)} (isFirst : Denotes first)
    (areOthers : ∀ other ∈ others, Denotes other) : Denotes (joined join first others) := by
  cases first with
  | error refusal => exact isFirst
  | ok start => exact denotes_foldlM keeps (isFirst.filters start rfl) areOthers

theorem yields_chain (connective : String) (yields : Yields operand Denotes) :
    Yields (chain connective join operand) Denotes := by
  refine Yields.named (yields.bind fun first isFirst => Yields.bind (Yields.many ?_) fun others areOthers =>
    yields_pure (denotes_joined keeps isFirst areOthers))
  exact yields_after fun _ => yields_after fun _ => yields_after fun _ => yields

end Chains

theorem yields_conditionWithin (depth : Nat) : Yields (conditionWithin depth) Denotes := by
  induction depth with
  | zero => exact fun _ _ _ found => nomatch found
  | succ depth ih =>
      exact yields_chain (fun _ _ => IsDenoted.or) "or" (yields_chain (fun _ _ => IsDenoted.and) "and"
        (yields_term ih))

/-! ## Texts -/

theorem yields_phrase : Yields phrase Denotes :=
  fun cursor => yields_conditionWithin (cursor.rest.length + 1) cursor

theorem yields_whole : Yields whole Denotes :=
  yields_after fun _ => yields_phrase.bind fun _ denotes => yields_after fun _ => yields_pure denotes

/-- A filter that is read tests rows, along paths whose tags have names, with literals that can be read. -/
theorem isDenoted_of_read {text : String} {filter : Filter} (read : Filter.read text = .ok filter) :
    filter.IsDenoted := by
  unfold Filter.read at read
  split at read
  · cases read
  · cases read
  · next made => exact (yields_whole.of_readAll made).filters filter (Except.ok.inj read ▸ rfl)

/-- An empty text is no filter. -/
theorem nonempty_of_read {text : String} {filter : Filter} (read : Filter.read text = .ok filter) :
    text.toList ≠ [] := by
  intro none
  have refused : (Filter.read "").isOk = false := by decide +kernel
  rw [String.toList_eq_nil_iff.mp none] at read
  rw [read] at refused
  cases refused

/-- A filter is refused for what its text says. -/
theorem isOfText_of_read {text : String} {error : Error} (refused : Filter.read text = .error error) :
    error.IsOfText := by
  unfold Filter.read at refused
  split at refused
  · exact Except.error.inj refused ▸ fun _ => Error.noConfusion
  · next refusal made =>
    exact Except.error.inj refused ▸ ((yields_whole.of_readAll made).blames refusal rfl).error text.toList
  · cases refused

/-! ## Tests that tags are missing -/

variable {rest : List Char} {name : String}

theorem reads_gap {blanks : List Char} (all : ∀ c ∈ blanks, isGap c = true) (stops : Stops isGap rest) :
    Reads gap blanks rest () :=
  Reads.last (reads_run all stops) reads_pure

theorem reads_gap_nil (stops : Stops isGap rest) : Reads gap [] rest () := reads_gap (by simp) stops

theorem reads_gap_one (stops : Stops isGap rest) : Reads gap [' '] rest () :=
  reads_gap (List.forall_mem_singleton.mpr rfl) stops

theorem fails_after_gap {α : Type} {p : Phrase α} (fails : Fails p (rest.dropWhile isGap)) :
    Fails (do gap; p) rest := by
  rw [← List.takeWhile_append_dropWhile (p := isGap) (l := rest)]
  exact Reads.bind_fails (reads_gap (fun _ => List.mem_takeWhile_imp) stops_dropWhile) fails

/-- No gap is in front of a name. -/
theorem stops_isGap_of_isName (isName : isName name = true) : Stops isGap (name.toList ++ rest) := by
  obtain ⟨first, others, shape, isFirst, _⟩ := exists_of_isName isName
  rw [shape, List.cons_append, stops_cons, isGap]
  simp only [Bool.or_eq_false_iff, beq_eq_false_iff_ne]
  refine ⟨⟨⟨?_, ?_⟩, ?_⟩, ?_⟩ <;>
  · rintro rfl
    exact absurd isFirst (by decide)

theorem reads_identifier (isName : isName name = true) (stops : Stops isIdChar rest) :
    Reads identifier name.toList rest name := by
  obtain ⟨first, others, shape, isFirst, areOthers⟩ := exists_of_isName isName
  rw [shape]
  refine Takes.token (Reads.bind (reads_satisfying isFirst) (Reads.last (reads_run areOthers stops) ?_))
  rw [← shape, String.ofList_toList]
  exact reads_pure

/-- Nothing that stands here continues a path. -/
structure EndsPath (rest : List Char) : Prop where
  name : Stops isIdChar rest
  arrow : rest.head? ≠ some '-'

theorem endsPath_nil : EndsPath [] := ⟨stops_nil, by simp⟩

theorem endsPath_space : EndsPath (' ' :: rest) := ⟨stops_cons.mpr (by decide), by simp⟩

/-- The tags of a path with arrows between them. -/
theorem toList_pathText (first : String) (others : List String) : (Path.mk (first :: others)).text.toList =
    first.toList ++ others.flatMap fun name => "->".toList ++ name.toList :=
  Text.toList_intercalate_cons "->" first others

theorem reads_pathPhrase (named : path.IsNamed) (ends : EndsPath rest) :
    Reads pathPhrase path.text.toList rest path := by
  obtain ⟨segments⟩ := path
  obtain ⟨first, others, rfl⟩ := List.exists_cons_of_ne_nil named.nonempty
  have ⟨isFirst, areOthers⟩ := List.forall_mem_cons.mp named.names
  have noOthers : Fails (do word "->"; identifier) rest := Fails.bind (fails_word rfl ends.arrow)
  have following : TakesEach (do word "->"; identifier) Eq rest
      (others.flatMap fun name => "->".toList ++ name.toList) others := by
    refine TakesEach.of_forall₂ (Stops isIdChar) (List.forall₂_same.mpr fun name member => ?_)
      ends.name noOthers
    refine ⟨by simp, fun more => stops_cons.mpr (by decide), fun more stops => ?_⟩
    exact Reads.bind (reads_word "->") (reads_identifier (areOthers name member) stops)
  have noName : Stops isIdChar ((others.flatMap fun name => "->".toList ++ name.toList) ++ rest) := by
    cases others with
    | nil => exact ends.name
    | cons second others => exact stops_cons.mpr (by decide)
  rw [toList_pathText]
  exact Takes.named (Reads.bind (reads_identifier isFirst noName)
    (Reads.last (reads_many following) reads_pure))

/-- No gap is in front of a path. -/
theorem stops_isGap_of_isNamed (named : path.IsNamed) : Stops isGap (path.text.toList ++ rest) := by
  obtain ⟨segments⟩ := path
  obtain ⟨first, others, rfl⟩ := List.exists_cons_of_ne_nil named.nonempty
  rw [toList_pathText, List.append_assoc]
  exact stops_isGap_of_isName (named.names first (by simp))

/-- Nothing in a gap is a letter. -/
theorem not_isIdChar_of_isGap {c : Char} (isBlank : isGap c = true) : isIdChar c = false := by
  simp only [isGap, Bool.or_eq_true, beq_iff_eq] at isBlank
  rcases isBlank with ((rfl | rfl) | rfl) | rfl <;> decide

theorem reads_missingTest {blanks : List Char} (some : blanks ≠ []) (all : ∀ c ∈ blanks, isGap c = true)
    (named : path.IsNamed) (ends : EndsPath rest) :
    Reads missingTest ("not".toList ++ (blanks ++ path.text.toList)) rest (.missing (.path path)) := by
  have noWord : Stops isIdChar (blanks ++ path.text.toList ++ rest) := by
    obtain ⟨c, others, rfl⟩ := List.exists_cons_of_ne_nil some
    exact stops_cons.mpr (not_isIdChar_of_isGap (all c (by simp)))
  refine Takes.named (Reads.bind (reads_keyword "not" noWord) ?_)
  refine Reads.bind (reads_gap all (stops_isGap_of_isNamed named)) ?_
  exact Reads.last (reads_pathPhrase named ends) reads_pure

theorem reads_term_missing {blanks : List Char} (some : blanks ≠ []) (all : ∀ c ∈ blanks, isGap c = true)
    (named : path.IsNamed) (ends : EndsPath rest) :
    Reads (term condition) ("not".toList ++ (blanks ++ path.text.toList)) rest (.ok (.missing (.path path))) := by
  have noParenthesis : Fails (parenthesised condition) (("not".toList ++ (blanks ++ path.text.toList)) ++ rest) :=
    Fails.named (Fails.bind (fails_char (by simp)))
  refine noParenthesis.orElse_takes (Takes.orElse ?_)
  exact Reads.last (reads_missingTest some all named ends) reads_pure

/-- A test that a single tag is missing. -/
def missingTag (name : String) : Filter := .missing (.path ⟨[name]⟩)

theorem reads_term_missingTag (isName : isName name = true) (ends : EndsPath rest) :
    Reads (term condition) ("not ".toList ++ name.toList) rest (.ok (missingTag name)) := by
  have named : Path.IsNamed ⟨[name]⟩ := ⟨by simp, by simpa using isName⟩
  have blank : ∀ c ∈ [' '], isGap c = true := List.forall_mem_singleton.mpr rfl
  have reads : Reads (term condition) _ rest _ := reads_term_missing (by simp) blank named ends
  simpa [toList_pathText, missingTag] using reads

/-- One operand or more, up to where no further word between operands is found. -/
theorem reads_chain (connective : String) (join : Filter → Filter → Filter) {text others : List Char}
    {first : Reading Filter} {values : List (Reading Filter)} (isFirst : Reads operand text (others ++ rest) first)
    (following : TakesEach (do gap; keyword connective; gap; operand) Eq rest others values) :
    Reads (chain connective join operand) (text ++ others) rest (joined join first values) :=
  Takes.named (Reads.bind isFirst (Reads.last (reads_many following) reads_pure))

theorem reads_chain_single (connective : String) (join : Filter → Filter → Filter) {text : List Char}
    {only : Reading Filter} (reads : Reads operand text rest only)
    (ends : Fails (do gap; keyword connective; gap; operand) rest) :
    Reads (chain connective join operand) text rest (joined join only []) :=
  Takes.named (Reads.last reads (Reads.skip (reads_many (.nil ends)) reads_pure))

theorem fails_further (connective : String) {c : Char} (front : connective.toList.head? = some c) :
    Fails (do gap; keyword connective; gap; operand) [] :=
  Reads.skip_fails (reads_gap_nil stops_nil) (Fails.bind (Fails.bind (fails_word front (by simp))))

theorem joined_ok (join : Filter → Filter → Filter) (first : Filter) (others : List Filter) :
    joined join (.ok first) (others.map Except.ok) = .ok (others.foldl join first) := by
  change (others.map Except.ok).foldlM (fun left next => next.map (join left)) first = _
  induction others generalizing first with
  | nil => rfl
  | cons other others ih => exact ih (join first other)

/-- Tests for each of several tags that it is missing. -/
theorem reads_alternatives_missing {first : String} {others : List String}
    (areNames : ∀ name ∈ first :: others, isName name = true) :
    Reads (alternatives condition)
      (("not ".toList ++ first.toList) ++ others.flatMap fun name => " and not ".toList ++ name.toList) []
      (.ok ((others.map missingTag).foldl .and (missingTag first))) := by
  rw [List.forall_mem_cons] at areNames
  have following : TakesEach (do gap; keyword "and"; gap; term condition) Eq []
      (others.flatMap fun name => " and not ".toList ++ name.toList) ((others.map missingTag).map Except.ok) := by
    refine TakesEach.of_forall₂ EndsPath ?_ endsPath_nil (fails_further "and" rfl)
    rw [List.map_map]
    refine List.forall₂_map_right_iff.mpr (List.forall₂_same.mpr fun name member => ⟨by simp, ?_, ?_⟩)
    · exact fun more => endsPath_space
    · intro more ends
      have shape : " and not ".toList ++ name.toList =
          [' '] ++ ("and".toList ++ ([' '] ++ ("not ".toList ++ name.toList))) := rfl
      rw [shape]
      refine Reads.bind (reads_gap_one (stops_cons.mpr (by decide))) ?_
      refine Reads.bind (reads_keyword "and" (stops_cons.mpr (by decide))) ?_
      refine Reads.bind (reads_gap_one (stops_cons.mpr (by decide))) ?_
      exact reads_term_missingTag (areNames.2 name member) ends
  -- What follows the first test is nothing or the blank before the next word.
  have ends : EndsPath (others.flatMap fun name => " and not ".toList ++ name.toList) := by
    cases others with
    | nil => exact endsPath_nil
    | cons second others => exact endsPath_space
  have conjunction := reads_chain "and" .and
    (reads_term_missingTag areNames.1 (by rwa [List.append_nil])) following
  rw [joined_ok] at conjunction
  exact reads_chain_single "or" .or conjunction (fails_further "or" rfl)

/-- A text is a filter if it is one whose parentheses are nested no deeper than the text is long. -/
theorem reads_phrase {text : List Char} {reading : Reading Filter}
    (reads : Reads (conditionWithin ((text ++ rest).length + 1)) text rest reading) :
    Reads phrase text rest reading :=
  reads_of_found reads.found

theorem reads_whole {text : List Char} {reading : Reading Filter}
    (reads : Reads (conditionWithin (text.length + 1)) text [] reading)
    (stops : Stops isGap text) : Reads whole text [] reading := by
  have last : Reads (do gap; pure reading) [] [] reading :=
    Reads.skip (reads_gap_nil stops_nil) reads_pure
  have inner : Reads (do let filter ← phrase; gap; pure filter) text [] reading :=
    Reads.last (reads_phrase (by rwa [List.append_nil])) last
  exact Reads.skip (reads_gap_nil (by rwa [List.append_nil])) inner

theorem read_of_reads {text : String} {filter : Filter}
    (reads : Reads (conditionWithin (text.toList.length + 1)) text.toList [] (.ok filter))
    (stops : Stops isGap text.toList) : Filter.read text = .ok filter := by
  have found := readAll_of_reads (reads_whole reads stops)
  unfold Filter.read
  rw [found]

end Filter

end Haystack
