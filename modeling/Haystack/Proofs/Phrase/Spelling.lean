import Haystack.Proofs.Phrase

/-!
How a phrase is spelled wherever it is found.

`Spells p holds` says of every text that the phrase takes, of its meaning and of what is left after it
that a condition holds. Each way to build a phrase has its rule; the rest after one phrase starts
with what the next one takes.
-/
namespace Haystack.Phrase

variable {α β : Type}

/-- Wherever the phrase is found, it takes a text such that a condition holds of it, of its meaning and
of the rest. -/
def Spells (p : Phrase α) (holds : List Char → α → List Char → Prop) : Prop :=
  ∀ cursor a after, (p cursor).found = some (a, after) → ∃ taken,
    cursor.rest = taken ++ after.rest ∧ after.offset = cursor.offset + taken.length ∧
      holds taken a after.rest

variable {p q : Phrase α} {next : α → Phrase β} {a : α} {accepts : Char → Bool}
  {holds weaker : List Char → α → List Char → Prop} {goal : List Char → β → List Char → Prop}

theorem Spells.mono (spells : Spells p holds)
    (implies : ∀ taken a rest, holds taken a rest → weaker taken a rest) : Spells p weaker := by
  intro cursor a after found
  obtain ⟨taken, rest, offset, here⟩ := spells cursor a after found
  exact ⟨taken, rest, offset, implies _ _ _ here⟩

/-- What is spelled in some way means what goes with that. -/
theorem Spells.yields {means : α → Prop} (spells : Spells p fun _ a _ => means a) : Yields p means := by
  intro cursor a after found
  obtain ⟨_, _, _, here⟩ := spells cursor a after found
  exact here

theorem spells_pure (here : ∀ rest, holds [] a rest) : Spells (pure a) holds := by
  intro cursor b after found
  obtain ⟨rfl, rfl⟩ := Prod.mk.inj (Option.some.inj found)
  exact ⟨[], rfl, rfl, here _⟩

theorem Spells.bind (first : Spells p holds) (second : ∀ taken a, Spells (next a) fun more b rest =>
    holds taken a (more ++ rest) → goal (taken ++ more) b rest) : Spells (p >>= next) goal := by
  intro cursor b after found
  rw [found_bind, Option.bind_eq_some_iff] at found
  obtain ⟨⟨a, middle⟩, found, last⟩ := found
  obtain ⟨taken, rest, offset, here⟩ := first cursor a middle found
  obtain ⟨more, middleRest, middleOffset, implies⟩ := second taken a middle b after last
  refine ⟨taken ++ more, by rw [rest, middleRest, List.append_assoc], ?_, implies ?_⟩
  · rw [middleOffset, offset, List.length_append, Nat.add_assoc]
  · rwa [← middleRest]

theorem Spells.orElse (first : Spells p holds) (second : Spells q holds) : Spells (p <|> q) holds := by
  intro cursor a after found
  rw [found_orElse, Option.or_eq_some_iff] at found
  rcases found with found | ⟨_, found⟩
  · exact first cursor a after found
  · exact second cursor a after found

theorem Spells.named (spells : Spells p holds) : Spells (named p) holds := by
  simpa only [Spells, found_named] using spells

theorem Spells.token (spells : Spells p holds) : Spells (token p) holds :=
  Spells.named (p := whole p) spells

theorem spells_satisfying : Spells (satisfying accepts) fun taken c _ =>
    taken = [c] ∧ accepts c = true := by
  intro cursor c after found
  unfold satisfying at found
  split at found
  · exact nomatch found
  · next head tail shape =>
    split at found
    · next accepted =>
      obtain ⟨rfl, rfl⟩ := Prod.mk.inj (Option.some.inj found)
      exact ⟨[head], shape, rfl, rfl, accepted⟩
    · exact nomatch found

theorem spells_char (c : Char) : Spells (char c) fun taken _ _ => taken = [c] :=
  spells_satisfying.mono fun _ _ _ ⟨taken, same⟩ => by rw [taken, beq_iff_eq.mp same]

theorem spells_chars {expected : List Char} : Spells (chars expected) fun taken _ _ => taken = expected := by
  induction expected with
  | nil => exact spells_pure fun _ => rfl
  | cons c others ih =>
      refine (spells_char c).bind fun taken _ => ih.mono fun further _ _ same isHead => ?_
      rw [isHead, same, List.singleton_append]

theorem spells_run : Spells (run accepts) fun taken read rest =>
    read = taken ∧ (∀ c ∈ taken, accepts c = true) ∧ Stops accepts rest := by
  intro cursor read after found
  obtain ⟨rfl, rfl⟩ := Prod.mk.inj (Option.some.inj found)
  exact ⟨_, List.takeWhile_append_dropWhile.symm, rfl, rfl, List.all_eq_true.mp List.all_takeWhile, stops_dropWhile⟩

theorem spells_run1 : Spells (run1 accepts) fun taken read rest =>
    read = taken ∧ taken ≠ [] ∧ (∀ c ∈ taken, accepts c = true) ∧ Stops accepts rest := by
  refine spells_satisfying.bind fun first c => spells_run.bind fun others read => spells_pure ?_
  rintro rest ⟨rfl, areOthers, stops⟩ ⟨rfl, accepted⟩
  simp only [List.append_nil, List.nil_append] at stops ⊢
  exact ⟨rfl, List.cons_ne_nil _ _, List.forall_mem_cons.mpr ⟨accepted, areOthers⟩, stops⟩

/-- What may be missing takes nothing then. -/
theorem Spells.optional {goal : List Char → Option α → List Char → Prop} (spells : Spells p holds)
    (present : ∀ taken a rest, holds taken a rest → goal taken (some a) rest)
    (missing : ∀ rest, goal [] none rest) : Spells (Phrase.optional p) goal := by
  intro cursor read after found
  unfold Phrase.optional at found
  simp only at found
  split at found
  · next a last first =>
    obtain ⟨rfl, rfl⟩ := Prod.mk.inj (Option.some.inj found)
    obtain ⟨taken, rest, offset, here⟩ := spells cursor a last first
    exact ⟨taken, rest, offset, present _ _ _ here⟩
  · obtain ⟨rfl, rfl⟩ := Prod.mk.inj (Option.some.inj found)
    exact ⟨[], rfl, rfl, missing _⟩

/-- What may be missing is missing, or stands before what it has to stand before. -/
theorem Spells.unless_missing {before : List Char → Prop} (spells : Spells p fun _ _ rest => before rest) :
    Spells (Phrase.optional p) fun taken _ rest => taken = [] ∨ before rest :=
  spells.optional (fun _ _ _ here => .inr here) fun _ => .inl rfl

theorem Spells.anyway (spells : Spells p holds) : Spells (Phrase.optional p) fun _ _ _ => True :=
  spells.optional (fun _ _ _ _ => trivial) fun _ => trivial

/-- The text that a phrase takes is its own meaning. -/
theorem Spells.spanned {holds : List Char → List Char → Prop}
    (spells : Spells p fun taken _ rest => holds taken rest) :
    Spells (Phrase.spanned p) fun taken read rest => read = taken ∧ holds taken rest := by
  intro cursor read after found
  unfold Phrase.spanned at found
  simp only [Option.map_eq_some_iff] at found
  obtain ⟨⟨a, last⟩, first, same⟩ := found
  obtain ⟨rfl, rfl⟩ := Prod.mk.inj same
  obtain ⟨taken, rest, offset, here⟩ := spells cursor a last first
  refine ⟨taken, rest, offset, ?_, here⟩
  rw [rest, offset, Nat.add_sub_cancel_left, List.take_left]

end Haystack.Phrase
