import Haystack.Proofs.Filter.Enclosed

/-!
Terms with connectives between them.

Each term of a chain is read as it is by itself, since a gap and a connective are no part of it. So a chain
of terms is always a filter: its runs of terms with `and` between them, which `or` joins, both grouped to the
left. The exception is a MIME type that starts with a quotation mark: where a later term has one as well, the
two enclose what is between them.
-/
namespace Haystack.Filter

open Phrase Zinc

variable {rest : List Char} {depth : Nat}

/-! ## Terms -/

/-- The texts of single terms: a path, a test that a path leads to nothing, a comparison of a path with a
literal, and a filter in parentheses. The path `not` is none, since the word belongs to a test. -/
inductive IsTerm : String → Prop where
  | has (path : Path) (named : path.IsNamed) (other : path ≠ ⟨["not"]⟩) : IsTerm path.text
  | missing (path : Path) (named : path.IsNamed) (blanks : String) (some : blanks ≠ "")
      (areGaps : blanks.toList.all isGap = true) : IsTerm ("not" ++ blanks ++ path.text)
  | compare (path : Path) (named : path.IsNamed) (sign : Comparison) (before after : String)
      (gapBefore : before.toList.all isGap = true) (gapAfter : after.toList.all isGap = true) (written : String)
      (value : Value) (denotes : literal.readAll written.toList = .ok (.ok value)) :
      IsTerm (path.text ++ before ++ sign.symbol ++ after ++ written)
  | parenthesised (inner : String) (filter : Filter) (read : Filter.read inner = .ok filter) :
      IsTerm ("(" ++ inner ++ ")")

/-- A term: a text of one of these forms with the filter that it is by itself. -/
structure Term where
  text : String
  filter : Filter
  form : IsTerm text
  accepted : Filter.read text = .ok filter

/-- What stands behind a term: nothing, or a gap and no sign of comparison after it. -/
structure EndsOperand (rest : List Char) : Prop where
  breaks : Breaks rest
  noSign : Stops isSign (rest.dropWhile isGap)

theorem endsOperand_nil : EndsOperand [] where
  breaks := ⟨fun _ head => (nomatch head), by simp, fun _ _ same => (nomatch same)⟩
  noSign := stops_nil

/-- No display name stands behind a gap and a word. -/
theorem head?_dropWhile_gap_ne {blanks : List Char} (all : ∀ c ∈ blanks, isGap c = true) {first : Char}
    (isLower : first.isLower = true) : ((blanks ++ first :: rest).dropWhile (· == ' ')).head? ≠ some '"' := by
  intro head
  induction blanks with
  | nil =>
      have noSpace : first ≠ ' ' := by
        rintro rfl
        exact absurd isLower (by decide)
      rw [List.nil_append, List.dropWhile_cons_of_neg (by simpa using noSpace)] at head
      rw [Option.some.inj head] at isLower
      exact absurd isLower (by decide)
  | cons c blanks ih =>
      rw [List.forall_mem_cons] at all
      by_cases space : c = ' '
      · rw [space, List.cons_append, List.dropWhile_cons_of_pos rfl] at head
        exact ih all.2 head
      · rw [List.cons_append, List.dropWhile_cons_of_neg (by simpa using space)] at head
        rw [Option.some.inj head] at all
        exact absurd all.1 (by decide)

/-- A gap and a word in lower case end a term. -/
theorem endsOperand_of_gap {blanks : List Char} (some : blanks ≠ []) (all : ∀ c ∈ blanks, isGap c = true)
    {first : Char} (isLower : first.isLower = true) (noUpper : first.isUpper = false) :
    EndsOperand (blanks ++ first :: rest) where
  breaks := by
    have display : ((blanks ++ first :: rest).dropWhile (· == ' ')).head? ≠ .some '"' :=
      head?_dropWhile_gap_ne all isLower
    obtain ⟨c, others, rfl⟩ := List.exists_cons_of_ne_nil some
    have blank {d : Char} (member : d ∈ c :: others) : d = ' ' ∨ d = '\t' ∨ d = '\r' ∨ d = '\n' := by
      simpa [isGap, or_assoc] using all d member
    refine ⟨fun d head => ?_, display, fun d tail same => ?_⟩
    · obtain rfl := Option.some.inj head
      rcases blank (.head _) with rfl | rfl | rfl | rfl <;> decide
    · obtain ⟨_, same⟩ := List.cons.inj same
      cases others with
      | nil =>
          obtain rfl := (List.cons.inj same).1
          exact noUpper
      | cons e others =>
          obtain rfl := (List.cons.inj same).1
          rcases blank (.tail _ (.head _)) with rfl | rfl | rfl | rfl <;> decide
  noSign := by
    rw [List.dropWhile_append_of_pos all, List.dropWhile_cons_of_neg (by simp [not_isGap_of_isLower isLower])]
    exact stops_cons.mpr (not_isSign_of_isLower isLower)

theorem EndsOperand.endsPath (ends : EndsOperand rest) : EndsPath rest where
  name := ends.breaks.stops (by decide)
  arrow := ends.breaks.head?_ne (by decide)

/-! ### Literals -/

theorem fails_literal {written : List Char} (stops : Stops isValueStart written) : Fails literal written := by
  have noValue : Fails (Zinc.value .latest) written := fails_of_found fun _ => (fails_valueAround stops).found _
  refine Fails.orElse (Fails.bind (fails_truthValue ?_ ?_)) noValue
  · exact fails_keyword (c := 't') rfl (stops.head?_ne (by decide))
  · exact fails_keyword (c := 'f') rfl (stops.head?_ne (by decide))

/-- A literal starts like a value, and is read before what stands behind a term. -/
theorem reads_literal_of_readAll {written : List Char} {value : Value}
    (denotes : literal.readAll written = .ok (.ok value)) (breaks : Breaks rest) (closes : Closes rest written) :
    Starts written ∧ Reads literal written rest (.ok value) := by
  obtain ⟨offset, found⟩ := exists_found_of_readAll denotes
  have apart : Apart [] := ⟨by simp [Unquoted], by simp⟩
  obtain ⟨taken, parts, _, takes⟩ := keeps_literal breaks (.start written) _ _ closes found apart
  rw [List.append_nil] at parts
  obtain rfl : written = taken := parts
  refine ⟨?_, takes.mono fun reading carries => (carries value rfl).symm⟩
  by_contra none
  refine Fails.not_found (fails_literal fun c head => ?_) found
  by_contra isStart
  exact none ⟨c, head, by simpa using isStart⟩

/-! ### Terms by themselves and before what stands behind them -/

theorem exists_reads_term {text : String} (form : IsTerm text) : ∃ filter, ∀ {rest depth},
    EndsOperand rest → Closes rest text.toList → text.toList.length ≤ depth →
      Reads (term (conditionWithin depth)) text.toList rest (.ok filter) := by
  cases form with
  | has path named other => exact ⟨_, fun ends _ _ => reads_term_has named other ends.endsPath ends.noSign⟩
  | missing path named blanks some areGaps =>
      refine ⟨.missing (.path path), fun {rest depth} ends _ _ => ?_⟩
      have reads : Reads (term (conditionWithin depth)) ("not".toList ++ (blanks.toList ++ path.text.toList)) rest _ :=
        reads_term_missing (by simpa using some) (List.all_eq_true.mp areGaps) named ends.endsPath
      simpa using reads
  | compare path named sign before after gapBefore gapAfter written value denotes =>
      refine ⟨.compare sign (.path path) (.value value), fun {rest depth} ends closes _ => ?_⟩
      have here : Closes rest written.toList := by
        refine (onward rest).admits_rest (path.text ++ before ++ sign.symbol ++ after).toList _ ?_
        rw [← String.toList_append]
        exact closes
      obtain ⟨starts, reads⟩ := reads_literal_of_readAll denotes ends.breaks here
      have whole : Reads (term (conditionWithin depth)) _ rest _ := reads_term_comparison sign named
        (List.all_eq_true.mp gapBefore) (List.all_eq_true.mp gapAfter) starts reads
      simpa using whole
  | parenthesised inner filter read =>
      refine ⟨filter, fun {rest depth} ends closes deep => ?_⟩
      have shape : ("(" ++ inner ++ ")").toList = '(' :: (inner.toList ++ [')']) := by simp
      rw [shape] at closes deep ⊢
      have within : inner.toList.length < depth := by
        simp only [List.length_cons, List.length_append] at deep
        omega
      exact Takes.orElse (reads_parenthesised_of_read read closes.inside within)

theorem stops_isGap_of_isTerm {text : String} (form : IsTerm text) : Stops isGap (text.toList ++ rest) := by
  cases form with
  | has path named => exact stops_isGap_of_isNamed named
  | missing path => simp [isGap]
  | compare path named =>
      simp only [String.toList_append, List.append_assoc]
      exact stops_isGap_of_isNamed named
  | parenthesised inner => simp [isGap]

theorem read_of_reads_term {text : String} {filter : Filter} (noGap : Stops isGap text.toList)
    (reads : Reads (term (conditionWithin text.toList.length)) text.toList [] (.ok filter)) :
    Filter.read text = .ok filter := by
  refine read_of_reads (reads_only_operand .or rfl rfl .ended (by simp) ?_) noGap
  exact reads_only_operand .and rfl rfl .ended (by simp) reads

/-- A filter stays what it is in parentheses. -/
theorem read_parenthesised {inner : String} {filter : Filter} (read : Filter.read inner = .ok filter) :
    Filter.read ("(" ++ inner ++ ")") = .ok filter := by
  have shape : ("(" ++ inner ++ ")").toList = '(' :: (inner.toList ++ [')']) := by simp
  have deep : inner.toList.length < ('(' :: (inner.toList ++ [')'])).length := by
    rw [List.length_cons, List.length_append]
    omega
  refine read_of_reads_term (by simp [isGap]) ?_
  rw [shape]
  exact Takes.orElse (reads_parenthesised_of_read read closes_nil.inside deep)

/-- Each text of one of these forms is a filter by itself, and is read as that before what ends a term. -/
theorem exists_accepted {text : String} (form : IsTerm text) : ∃ filter, Filter.read text = .ok filter ∧
    ∀ {rest depth}, EndsOperand rest → Closes rest text.toList → text.toList.length ≤ depth →
      Reads (term (conditionWithin depth)) text.toList rest (.ok filter) := by
  obtain ⟨filter, reads⟩ := exists_reads_term form
  have noGap : Stops isGap text.toList := by
    have stops : Stops isGap (text.toList ++ []) := stops_isGap_of_isTerm form
    rwa [List.append_nil] at stops
  exact ⟨filter, read_of_reads_term noGap (reads endsOperand_nil closes_nil (Nat.le_refl _)), reads⟩

theorem exists_term {text : String} (form : IsTerm text) : ∃ t : Term, t.text = text := by
  obtain ⟨filter, accepted, _⟩ := exists_accepted form
  exact ⟨⟨text, filter, form, accepted⟩, rfl⟩

theorem Term.reads (t : Term) (ends : EndsOperand rest) (closes : Closes rest t.text.toList)
    (deep : t.text.toList.length ≤ depth) :
    Reads (term (conditionWithin depth)) t.text.toList rest (.ok t.filter) := by
  obtain ⟨filter, accepted, reads⟩ := exists_accepted t.form
  obtain rfl : t.filter = filter := Except.ok.inj (t.accepted.symm.trans accepted)
  exact reads ends closes deep

/-! ## Chains -/

inductive Connective where
  | and
  | or

def Connective.word : Connective → String
  | .and => "and"
  | .or => "or"

/-- The letter that a connective is told by. -/
def Connective.initial : Connective → Char
  | .and => 'a'
  | .or => 'o'

/-- A further term of a chain, after a connective with gaps around it. -/
structure Link where
  connective : Connective
  before : String
  after : String
  term : Term
  apart : before ≠ "" ∧ after ≠ ""
  gapBefore : before.toList.all isGap = true
  gapAfter : after.toList.all isGap = true

def Link.text (link : Link) : String := link.before ++ link.connective.word ++ link.after ++ link.term.text

/-- The text of the links of a chain. -/
def linksText (links : List Link) : String := String.join (links.map Link.text)

/-- The text of a chain. -/
def chainText (first : Term) (links : List Link) : String := first.text ++ linksText links

/-- Terms with `and` between them. -/
structure Run where
  first : Filter
  others : List Filter

def Run.filter (run : Run) : Filter := run.others.foldl .and run.first

/-- The longest runs of terms with `and` between them: the first and the others. -/
def runs (first : Filter) : List Link → Run × List Run
  | [] => (⟨first, []⟩, [])
  | link :: links =>
      let next := runs link.term.filter links
      match link.connective with
      | .and => (⟨first, next.1.first :: next.1.others⟩, next.2)
      | .or => (⟨first, []⟩, next.1 :: next.2)

/-- The filter that a chain denotes: its runs, joined from the left by `or`. -/
def chained (first : Term) (links : List Link) : Filter :=
  ((runs first.filter links).2.map Run.filter).foldl .or (runs first.filter links).1.filter

/-- No MIME type that starts with a quotation mark and is left open in a term is closed behind it. -/
def NothingOpen (first : Term) : List Link → Prop
  | [] => True
  | link :: links => Closes (linksText (link :: links)).toList first.text.toList ∧ NothingOpen link.term links

theorem runs_first (first : Filter) (links : List Link) : (runs first links).1.first = first := by
  cases links with
  | nil => rfl
  | cons link links =>
      rw [runs]
      cases link.connective <;> rfl

section Links

variable {operand : Phrase (Reading Filter)} {reading : Reading Filter}

theorem toList_linksText_cons (link : Link) (links : List Link) : (linksText (link :: links)).toList =
    link.before.toList ++ (link.connective.word.toList ++ (link.after.toList ++
      (link.term.text.toList ++ (linksText links).toList))) := by
  simp [linksText, Link.text, String.toList_join]

theorem Connective.head?_word (connective : Connective) : connective.word.toList.head? = some connective.initial := by
  cases connective <;> rfl

theorem Connective.isLower_initial (connective : Connective) : connective.initial.isLower = true := by
  cases connective <;> rfl

theorem Connective.isUpper_initial (connective : Connective) : connective.initial.isUpper = false := by
  cases connective <;> rfl

theorem Connective.initial_inj {a b : Connective} : a.initial = b.initial ↔ a = b := by
  cases a <;> cases b <;> simp [Connective.initial]

/-- No gap is in front of a connective. -/
theorem Connective.stops_isGap (connective : Connective) : Stops isGap (connective.word.toList ++ rest) := by
  obtain ⟨others, shape⟩ := List.head?_eq_some_iff.mp connective.head?_word
  rw [shape]
  exact stops_cons.mpr (not_isGap_of_isLower connective.isLower_initial)

theorem endsOperand_linksText (links : List Link) : EndsOperand (linksText links).toList := by
  cases links with
  | nil => exact endsOperand_nil
  | cons link links =>
      obtain ⟨others, shape⟩ := List.head?_eq_some_iff.mp link.connective.head?_word
      rw [toList_linksText_cons, shape, List.cons_append]
      exact endsOperand_of_gap (by simpa using link.apart.1) (List.all_eq_true.mp link.gapBefore)
        link.connective.isLower_initial link.connective.isUpper_initial

/-- An operand behind a connective, which starts with the term of the link. -/
theorem reads_link (link : Link) {more : List Char}
    (reads : Reads operand (link.term.text.toList ++ more) rest reading) :
    Reads (do gap; keyword link.connective.word; gap; operand) (link.before.toList ++
      (link.connective.word.toList ++ (link.after.toList ++ (link.term.text.toList ++ more)))) rest reading := by
  have noWord (tail : List Char) : Stops isIdChar (link.after.toList ++ tail) := by
    obtain ⟨c, blanks, same⟩ := List.exists_cons_of_ne_nil (l := link.after.toList) (by simpa using link.apart.2)
    have blank : isGap c = true := List.all_eq_true.mp link.gapAfter c (by simp [same])
    rw [same]
    exact stops_cons.mpr (not_isIdChar_of_isGap blank)
  refine Reads.bind (reads_gap (List.all_eq_true.mp link.gapBefore) (by simpa using link.connective.stops_isGap)) ?_
  refine Reads.bind (reads_keyword _ (by simpa using noWord _)) ?_
  refine Reads.bind (reads_gap (List.all_eq_true.mp link.gapAfter) ?_) reads
  rw [List.append_assoc]
  exact stops_isGap_of_isTerm link.term.form

/-- Where another connective stands, none is found. -/
theorem fails_other_link {connective : Connective} {links : List Link}
    (other : ∀ link ∈ links.head?, link.connective ≠ connective) :
    Fails (do gap; keyword connective.word; gap; operand) (linksText links).toList := by
  cases links with
  | nil => exact fails_further connective.word connective.head?_word
  | cons link links =>
      rw [toList_linksText_cons]
      refine Reads.bind_fails (reads_gap (List.all_eq_true.mp link.gapBefore) link.connective.stops_isGap) ?_
      refine Fails.bind (Fails.bind (fails_word connective.head?_word ?_))
      rw [List.head?_append, link.connective.head?_word, Option.some_or, ne_eq, Option.some_inj, Connective.initial_inj]
      exact other link rfl

end Links

theorem NothingOpen.closes {first : Term} {links : List Link} (nothingOpen : NothingOpen first links) :
    Closes (linksText links).toList first.text.toList := by
  cases links with
  | nil => exact closes_nil
  | cons link links => exact nothingOpen.1

theorem NothingOpen.reads {first : Term} {links : List Link} (nothingOpen : NothingOpen first links)
    (deep : first.text.toList.length ≤ depth) :
    Reads (term (conditionWithin depth)) first.text.toList (linksText links).toList (.ok first.filter) :=
  first.reads (endsOperand_linksText links) nothingOpen.closes deep

/-- The first run of a chain is read up to where no more terms with `and` before them are found. -/
theorem NothingOpen.reads_run {first : Term} {links : List Link} (nothingOpen : NothingOpen first links)
    (deep : first.text.toList.length ≤ depth) {within beyond : List Char}
    (parts : (linksText links).toList = within ++ beyond)
    (terms : TakesEach (do gap; keyword "and"; gap; term (conditionWithin depth)) Eq beyond within
      ((runs first.filter links).1.others.map Except.ok)) :
    Reads (chain "and" .and (term (conditionWithin depth))) (first.text.toList ++ within) beyond
      (.ok (runs first.filter links).1.filter) := by
  have reads : Reads (term (conditionWithin depth)) first.text.toList (within ++ beyond) (.ok first.filter) := by
    rw [← parts]
    exact nothingOpen.reads deep
  rw [Run.filter, runs_first, ← joined_ok]
  exact reads_chain "and" .and reads terms

/-- What is read behind the first term of a chain: the other terms of its run, and the other runs. -/
theorem exists_takesEach_links (first : Term) (links : List Link) (nothingOpen : NothingOpen first links)
    (deep : (linksText links).toList.length ≤ depth) :
    ∃ within beyond, (linksText links).toList = within ++ beyond ∧
      TakesEach (do gap; keyword "and"; gap; term (conditionWithin depth)) Eq beyond within
        ((runs first.filter links).1.others.map Except.ok) ∧
      TakesEach (do gap; keyword "or"; gap; chain "and" .and (term (conditionWithin depth))) Eq [] beyond
        (((runs first.filter links).2.map Run.filter).map Except.ok) := by
  induction links generalizing first with
  | nil => exact ⟨[], [], rfl, .nil (fails_further "and" rfl), .nil (fails_further "or" rfl)⟩
  | cons link links ih =>
      have size := congrArg List.length (toList_linksText_cons link links)
      simp only [List.length_append] at size
      obtain ⟨within, beyond, parts, terms, others⟩ := ih link.term nothingOpen.2 (by omega)
      have some {tail : List Char} : link.before.toList ++ tail ≠ [] := by simp [link.apart.1]
      have shape := toList_linksText_cons link links
      rw [runs]
      cases met : link.connective with
      | and =>
          have reads : Reads (term (conditionWithin depth)) (link.term.text.toList ++ []) (linksText links).toList
              (.ok link.term.filter) := by
            rw [List.append_nil]
            exact nothingOpen.2.reads (by omega)
          have next := reads_link link reads
          simp only [met, List.append_nil] at shape next
          refine ⟨(link.before.toList ++ (Connective.and.word.toList ++ (link.after.toList ++
            link.term.text.toList))) ++ within, beyond, by simp [shape, parts], .cons some ?_ terms, others⟩
          rw [runs_first, ← parts]
          exact next
      | or =>
          -- The run of the term is over where the next one starts.
          have ended := @fails_other_link (term (conditionWithin depth)) .and (link :: links) (by simp [met])
          have next := reads_link link (nothingOpen.2.reads_run (by omega) parts terms)
          simp only [met] at shape next
          refine ⟨[], (link.before.toList ++ (Connective.or.word.toList ++ (link.after.toList ++
            (link.term.text.toList ++ within)))) ++ beyond, by simp [shape, parts], .nil ?_, .cons some ?_ others⟩
          · simpa [shape, parts, Connective.word] using ended
          · rw [List.append_nil]
            exact next

/-- Terms with `and` and `or` between them are a filter: the longest runs of terms with `and` between them,
joined by `or`, if no quotation mark of a MIME type is left open in one term and closed behind it. -/
theorem read_chain (first : Term) (links : List Link) (nothingOpen : NothingOpen first links) :
    Filter.read (chainText first links) = .ok (chained first links) := by
  have shape : (chainText first links).toList = first.text.toList ++ (linksText links).toList := String.toList_append
  have size := congrArg List.length shape
  rw [List.length_append] at size
  obtain ⟨within, beyond, parts, terms, others⟩ :=
    @exists_takesEach_links (chainText first links).toList.length first links nothingOpen (by omega)
  have deep : first.text.toList.length ≤ (chainText first links).toList.length := by omega
  have run := nothingOpen.reads_run deep parts terms
  have all := reads_chain "or" .or (by rwa [List.append_nil]) others
  rw [joined_ok] at all
  have noGap : Stops isGap (chainText first links).toList := by
    rw [shape]
    exact stops_isGap_of_isTerm first.form
  refine read_of_reads ?_ noGap
  rw [shape, parts, ← List.append_assoc] at all ⊢
  exact all

/-- A path of one tag. -/
def tagged (name : String) : Path := ⟨[name]⟩

theorem isNamed_tagged {name : String} (isName : isName name = true) : (tagged name).IsNamed :=
  ⟨List.cons_ne_nil _ _, List.forall_mem_singleton.mpr isName⟩

/-- A test that a tag is missing. -/
def unplaced : Term where
  text := "not" ++ " " ++ (tagged "area").text
  filter := .missing (.path (tagged "area"))
  form := .missing _ (isNamed_tagged (by decide)) " " (by decide) (by decide)
  accepted := by
    refine read_of_reads_term (by simp [isGap]) ?_
    have blank : ∀ c ∈ [' '], isGap c = true := List.forall_mem_singleton.mpr rfl
    simpa using reads_term_missing (by simp) blank (isNamed_tagged (by decide)) endsPath_nil

/-- A comparison with a truth value. -/
def running : Term where
  text := (tagged "on").text ++ " " ++ Comparison.eq.symbol ++ " " ++ literalText (.bool true)
  filter := .compare .eq (.path (tagged "on")) (.value (.bool true))
  form := by
    have isLiteral : (Value.bool true).Throughout IsLiteral := Value.throughout_of_childless trivial rfl
    exact .compare _ (isNamed_tagged (by decide)) .eq " " " " (by decide) (by decide) _ _
      (readAll_of_reads (reads_literal isLiteral .ended).2)
  accepted := by
    have isLiteral : (Value.bool true).Throughout IsLiteral := Value.throughout_of_childless trivial rfl
    have read := read_text (.compare .eq _ _ (isNamed_tagged (by decide : isName "on" = true)) isLiteral)
    exact read

/-- A path in parentheses. -/
def leveled : Term :=
  have read : Filter.read (tagged "level").text = .ok (.has (.path (tagged "level"))) := by
    have spelled : IsSpelled (.has (.path (tagged "level"))) := .has _ (isNamed_tagged (by decide)) (by decide)
    have read := read_text spelled
    rwa [Filter.text, Filter.text] at read
  ⟨"(" ++ (tagged "level").text ++ ")", .has (.path (tagged "level")), .parenthesised _ _ read, read_parenthesised read⟩

/-- Two further terms, with `and` before the second. -/
def alternatively : List Link :=
  [⟨.or, " ", " ", running, by decide, by decide, by decide⟩,
    ⟨.and, "\t ", "\n", leveled, by decide, by decide, by decide⟩]

theorem nothingOpen_alternatively : NothingOpen unplaced alternatively :=
  ⟨closes_of_no_mark (by decide +kernel), closes_of_no_mark (by decide +kernel), trivial⟩

/-- The longest runs are `not area` and the rest. -/
theorem read_chain_pump : NothingOpen unplaced alternatively ∧
    chainText unplaced alternatively = "not area or on == true\t and\n(level)" ∧
    Filter.read (chainText unplaced alternatively) = .ok (.or (.missing (.path (tagged "area")))
      (.and (.compare .eq (.path (tagged "on")) (.value (.bool true))) (.has (.path (tagged "level"))))) :=
  ⟨nothingOpen_alternatively, by decide +kernel, read_chain unplaced alternatively nothingOpen_alternatively⟩

/-- Each of two comparisons with a MIME type is read by itself, but the first goes on to the quotation mark
of the second where `and` is between them. -/
theorem not_read_chain_open : ¬ ∀ (first : Term) (links : List Link),
    Filter.read (chainText first links) = .ok (chained first links) := by
  intro all
  have denotes {written : String} (isRead : (literal.readAll written.toList).toOption.any (·.isOk) = true) :
      ∃ value, literal.readAll written.toList = .ok (.ok value) := by
    revert isRead
    rcases literal.readAll written.toList with _ | _ | value <;> simp [Except.toOption, Except.isOk, Except.toBool]
  have compared (name written : String) (isName : isName name = true)
      (isRead : (literal.readAll written.toList).toOption.any (·.isOk) = true) :
      ∃ t : Term, t.text = (tagged name).text ++ " " ++ Comparison.eq.symbol ++ " " ++ written := by
    obtain ⟨value, read⟩ := denotes isRead
    exact exists_term (.compare _ (isNamed_tagged isName) .eq " " " " (by decide) (by decide) written value read)
  obtain ⟨left, isLeft⟩ := compared "a" "Bin(\"x)" (by decide) (by decide +kernel)
  obtain ⟨right, isRight⟩ := compared "b" "Bin(\")" (by decide) (by decide +kernel)
  have read := all left [⟨.and, " ", " ", right, by decide, by decide, by decide⟩]
  have text : chainText left [⟨.and, " ", " ", right, by decide, by decide, by decide⟩] =
      "a == Bin(\"x) and b == Bin(\")" := by
    simp only [chainText, linksText, List.map_singleton, Link.text, isLeft, isRight]
    decide +kernel
  have single : (Filter.read "a == Bin(\"x) and b == Bin(\")").toOption.any
      (·.same (.compare .eq (.path (tagged "a")) (.value (.bin "x) and b == Bin(")))) = true := by decide +kernel
  rw [← text, read] at single
  exact Bool.false_ne_true single

end Haystack.Filter
