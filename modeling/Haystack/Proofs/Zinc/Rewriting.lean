import Haystack.Proofs.Decimal.RoundTrip
import Haystack.Proofs.Grid.Writing
import Haystack.Proofs.Zinc.Documents

/-!
Documents that are written and read again.

Whatever was read can be written. What is written is read again if every number with a unit, every
angle and every local year has digits that can be read, and MIME types that an old version writes bare
have no other characters. The version, the columns and their order come back, and as many rows, unless
there are no columns: a row of a grid without columns is a blank line, which is read as none.
-/
namespace Haystack.Zinc

open Phrase
open Value (KeepsKind SameKind keepsKind_sameKind)

variable {dialect version : Version} {grid : Grid} {rest : List Char}

/-- A value that is no MIME type, or one that can stand between parentheses without quotation marks. -/
def IsBareMime : Value → Prop
  | .bin mime => mime.toList.all isMimeChar = true ∧ mime.toList.head? ≠ some '"'
  | _ => True

/-- Whether what a value that was read is written as can be read; of what is in it this says nothing. -/
def Rewritable : Value → Prop
  | .number n => n.unit.isSome = true → n.magnitude.isFinite = true
  | .coord c => c.latitude.isFinite = true ∧ c.longitude.isFinite = true
  | .dateTime d => d.clock.date.HasFourDigits
  | .grid g => ¬ g.version.IsAtLeastThree → ∀ value ∈ g.values, IsBareMime value
  | _ => True

instance : DecidablePred IsBareMime
  | .bin mime => inferInstanceAs (Decidable (mime.toList.all isMimeChar = true ∧ mime.toList.head? ≠ some '"'))
  | .null | .marker | .na | .remove | .bool _ | .number _ | .str _ | .uri _ | .xstr _ | .ref _ | .date _
  | .time _ | .dateTime _ | .coord _ | .list _ | .dict _ | .grid _ => isTrue trivial

instance : DecidablePred Rewritable
  | .number n => inferInstanceAs (Decidable (n.unit.isSome = true → n.magnitude.isFinite = true))
  | .coord c => inferInstanceAs (Decidable (c.latitude.isFinite = true ∧ c.longitude.isFinite = true))
  | .dateTime d => inferInstanceAs (Decidable d.clock.date.HasFourDigits)
  | .grid g => inferInstanceAs (Decidable (¬ g.version.IsAtLeastThree → ∀ value ∈ g.values, IsBareMime value))
  | .null | .marker | .na | .remove | .bool _ | .str _ | .uri _ | .bin _ | .xstr _ | .ref _ | .date _
  | .time _ | .list _ | .dict _ => isTrue trivial

/-! ## Values -/

theorem reads_value_bareBin {mime : String} (old : ¬ version.IsAtLeastThree) (bare : IsBareMime (.bin mime))
    {value : Phrase (Reading Value)} :
    Reads (valueAround value dialect) (binText mime version).toList rest (.ok (.bin mime)) := by
  have below : (compare version .three != .lt) = false := by
    unfold Version.IsAtLeastThree at old
    simpa using old
  have shape : (binText mime version).toList = "Bin(".toList ++ (mime.toList ++ [')']) := by
    rw [binText, below, if_neg (by decide)]
    simp
  have noQuote : Fails quoted (mime.toList ++ ([')'] ++ rest)) := by
    refine fails_quoted fun head => bare.2 ?_
    cases chars : mime.toList with
    | nil => simp [chars] at head
    | cons c others => simpa [chars] using head
  rw [shape]
  refine (passes_marks (stops_cons.mpr rfl)).takes (Takes.orElse (Takes.named ?_))
  refine Reads.bind (reads_word "Bin(") (Reads.bind (a := .ok mime) (Fails.orElse_takes noQuote ?_)
    (Reads.last reads_char reads_pure))
  refine Reads.last (reads_run (List.all_eq_true.mp bare.1) (stops_cons.mpr rfl)) ?_
  rw [String.ofList_toList]
  exact reads_pure

theorem isWritable_of_denotable {n : Number} (denotable : Denotable (.number n))
    (rewritable : Rewritable (.number n)) : IsWritable n where
  unit := fun unit isUnit => ⟨denotable unit isUnit, rewritable (Option.isSome_of_mem isUnit)⟩
  digits := fun finite => Decimal.read_write spelling finite

/-- A value without parts is read again if what it is written as can be read. -/
theorem rereads_of_leaf {value : Value} (leaf : value.IsLeaf) (denotable : Denotable value)
    (rewritable : Rewritable value) (fits : value.fits version = true)
    (newDialect : version.IsAtLeastThree → dialect.IsAtLeastThree)
    (bare : ¬ version.IsAtLeastThree → IsBareMime value) :
    Rereads SameKind dialect version value := by
  have ensured : value.ensureFits version = .ok () := if_pos fits
  cases value with
  | null => exact ⟨_, .null, rfl, rfl, readable_of_reads fun _ _ follows => reads_null follows⟩
  | marker => exact ⟨_, .marker, rfl, rfl, readable_of_reads fun _ _ follows => reads_marker follows⟩
  | na =>
      have atLeast : version.IsAtLeastThree := bne_iff_ne.mp fits
      refine ⟨"NA", .na, by rw [writeValue, ensured]; rfl, rfl, readable_of_reads fun _ _ follows => ?_⟩
      exact reads_na follows (newDialect atLeast)
  | remove => exact ⟨_, .remove, rfl, rfl, readable_of_reads fun _ _ follows => reads_remove follows⟩
  | bool b => exact ⟨_, .bool b, rfl, rfl, readable_of_reads fun _ _ follows => reads_bool follows b⟩
  | number n =>
      have writable := isWritable_of_denotable denotable rewritable
      exact ⟨_, .number n, rfl, rfl, readable_of_reads fun _ _ follows => reads_value_number writable follows⟩
  | str s => exact ⟨_, .str s, rfl, rfl, readable_of_reads fun _ _ _ => reads_value_str s⟩
  | uri s => exact ⟨_, .uri s, rfl, rfl, readable_of_reads fun _ _ _ => reads_value_uri s⟩
  | bin mime =>
      refine ⟨_, .bin mime, rfl, rfl, readable_of_reads fun _ _ _ => ?_⟩
      by_cases atLeast : version.IsAtLeastThree
      · exact reads_value_bin mime atLeast
      · exact reads_value_bareBin atLeast (bare atLeast)
  | xstr x =>
      obtain ⟨word, nonempty, other, payload, made⟩ := denotable
      exact ⟨_, .xstr x, rfl, rfl, readable_of_reads fun _ _ _ => reads_value_xstr word nonempty other made⟩
  | ref r =>
      exact ⟨_, .ref r, rfl, rfl, readable_of_reads fun _ _ follows => reads_value_ref denotable follows⟩
  | date d =>
      refine ⟨_, .date d, rfl, rfl, readable_of_reads fun _ _ follows => ?_⟩
      exact reads_value_date denotable.1 denotable.2 follows
  | time t =>
      refine ⟨_, .time t, rfl, rfl, readable_of_reads fun _ _ follows => ?_⟩
      exact reads_value_time denotable.1 denotable.2 follows
  | dateTime moment =>
      obtain ⟨known, nanosecond⟩ := denotable
      have writable : moment.IsWritable := ⟨nanosecond, rewritable, known.natAbs_offsetAt_lt _⟩
      obtain ⟨back, _, reads⟩ := exists_reads_value_dateTime writable known
      exact ⟨_, .dateTime back, rfl, rfl, readable_of_reads fun value rest => reads value dialect rest⟩
  | coord place =>
      obtain ⟨latitude, isLatitude⟩ := Decimal.exists_read_of_isSigned
        (Decimal.isSigned_writeFixed (by decide : 6 ≠ 0) rewritable.1)
      obtain ⟨longitude, isLongitude⟩ := Decimal.exists_read_of_isSigned
        (Decimal.isSigned_writeFixed (by decide : 6 ≠ 0) rewritable.2)
      exact ⟨_, .coord ⟨latitude, longitude⟩, rfl, rfl, readable_of_reads fun _ _ _ =>
        reads_value_coord rewritable isLatitude isLongitude⟩
  | list items => exact leaf.elim
  | dict tags => exact leaf.elim
  | grid g => exact leaf.elim

theorem Rereads.mono {related weaker : Value → Value → Prop} {value : Value}
    (rereads : Rereads related dialect version value) (implies : ∀ back, related back value →
      weaker back value) : Rereads weaker dialect version value :=
  have ⟨text, back, written, relates, readable⟩ := rereads
  ⟨text, back, written, implies back relates, readable⟩

/-- A value that was read is read again if everything in it is written as what can be read. -/
theorem rereads_of_throughout {value : Value}
    (all : value.Throughout fun part => Denotable part ∧ Rewritable part)
    (fits : value.fits version = true) (newDialect : version.IsAtLeastThree → dialect.IsAtLeastThree)
    (bare : ¬ version.IsAtLeastThree → IsBareMime value) :
    Rereads SameKind dialect version value := by
  induction all generalizing version with
  | intro value here inside ih =>
      obtain ⟨denotable, rewritable⟩ := here
      -- Inside lists and dicts every value fits, and MIME types are quoted.
      have within (atLeast : version.IsAtLeastThree) : ∀ part ∈ value.children,
          Rereads SameKind dialect version part := fun part member =>
        ih part member (fits_of_isAtLeastThree atLeast part) newDialect fun old => absurd atLeast old
      cases value with
      | list items =>
          have atLeast : version.IsAtLeastThree := bne_iff_ne.mp fits
          obtain ⟨backs, _, rereads⟩ := exists_rereads_list (newDialect atLeast) atLeast (within atLeast)
          exact rereads.mono fun _ same => same ▸ rfl
      | dict tags =>
          have atLeast : version.IsAtLeastThree := bne_iff_ne.mp fits
          obtain ⟨backs, _, _, rereads⟩ := exists_rereads_dict keepsKind_sameKind (newDialect atLeast)
            atLeast denotable.1 denotable.2 (within atLeast)
          exact rereads.mono fun _ same => same ▸ rfl
      | grid g =>
          have atLeast : version.IsAtLeastThree := bne_iff_ne.mp fits
          have ensured : (Value.grid g).ensureFits version = .ok () := if_pos fits
          have document : IsDocument g := denotable
          obtain ⟨lines, written⟩ := GridLines.exists_written keepsKind_sameKind rfl document.names
            fun part member => ih part member (document.within part member) (fun _ => newDialect atLeast)
              fun old => rewritable old part member
          refine ⟨_, .grid (dropEmptyColumn lines.back), ?_, rfl, lines.readable_brackets keepsKind_sameKind document.version
            document.distinct document.within (newDialect atLeast)⟩
          rw [writeValue, ensured, written]
          rfl
      | _ => exact rereads_of_leaf trivial denotable rewritable fits newDialect bare

/-! ## Documents -/

theorem isWithin_of_denotable {value : Value} (denotable : Denotable value) : value.IsWithin := by
  rintro grid rfl
  exact IsDocument.within denotable

/-- The grid of some lines comes back with its columns, and with its rows if it has columns. -/
theorem GridLines.counts_dropEmptyColumn {related : Value → Value → Prop}
    (written : GridLines related dialect grid) (keeps : KeepsKind related)
    (distinct : grid.columns.Distinct) (notBare : ¬ IsBare grid) :
    (dropEmptyColumn written.back).version = grid.version ∧
      (dropEmptyColumn written.back).columns.keys = grid.columns.keys ∧
      (dropEmptyColumn written.back).rows.length =
        if grid.columns.items = [] then 0 else grid.rows.length := by
  obtain ⟨columns, dropped, relates⟩ := written.exists_dropEmptyColumn keeps distinct notBare
  rw [dropped]
  refine ⟨rfl, relates.keys, ?_⟩
  change written.back.rows.length = _
  split
  · next none => rw [written.rows_back_of_none none, List.length_nil]
  · next some => exact (written.rows_back_of_some some).length_eq

/-- A grid whose values have no parts is throughout what it is and what they are. -/
theorem throughout_of_flat {holds : Value → Prop} (here : holds (.grid grid))
    (parts : ∀ part ∈ grid.values, part.children.isEmpty = true ∧ holds part) : grid.Throughout holds :=
  .intro _ here fun part member => Value.throughout_of_childless (parts part member).2
    (List.isEmpty_iff.mp (parts part member).1)

def meters : String := "ver:\"2.0\"\nid,power,more\n@a \"A\",1.5kW,Bin(text/plain)\n,-INF,\n"

/-- How many rows there are in a document, and in what it is written as. -/
def rowCounts (text : String) : Option (Nat × Nat) := do
  let grid ← (readGrid text).toOption
  let written ← (writeGrid grid).toOption
  let back ← (readGrid written).toOption
  some (grid.rows.length, back.rows.length)

end Haystack.Zinc
