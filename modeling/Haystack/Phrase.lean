/-!
Phrases: ordered choice and repetition over a text, with the place to blame when the text is
refused.

Reading a phrase either finds it, with its meaning and the place after it, or not. Either way it
tells the furthest place where a phrase that has a name was looked for in vain, since that is where
a refused text is wrong.
-/
namespace Haystack

/-- A place in a text: how many characters lie before it, and those that follow. -/
structure Cursor where
  offset : Nat
  rest : List Char

def Cursor.start (text : List Char) : Cursor := ⟨0, text⟩

/-- What came of looking for a phrase. -/
structure Attempt (α : Type) where
  furthest : Nat
  found : Option (α × Cursor)

/-- A way to look for a phrase at a place. -/
def Phrase (α : Type) : Type := Cursor → Attempt α

namespace Phrase

variable {α β : Type}

/-- Nothing at all, which is always there. -/
protected def pure (a : α) : Phrase α := fun c => ⟨0, some (a, c)⟩

/-- One phrase and then another. -/
protected def bind (p : Phrase α) (next : α → Phrase β) : Phrase β := fun c =>
  let first := p c
  match first.found with
  | none => ⟨first.furthest, none⟩
  | some (a, c') =>
      let second := next a c'
      ⟨max first.furthest second.furthest, second.found⟩

instance : Monad Phrase where
  pure := Phrase.pure
  bind := Phrase.bind

/-- The first of two phrases that is there. -/
protected def orElse (p : Phrase α) (q : Unit → Phrase α) : Phrase α := fun c =>
  let first := p c
  match first.found with
  | some _ => first
  | none =>
      let second := q () c
      ⟨max first.furthest second.furthest, second.found⟩

instance : OrElse (Phrase α) := ⟨Phrase.orElse⟩

/-- A phrase that is never there. -/
def never : Phrase α := fun _ => ⟨0, none⟩

/-- The place itself. -/
def here : Phrase Nat := fun c => ⟨0, some (c.offset, c)⟩

/-- One character of a class. -/
def satisfying (accepts : Char → Bool) : Phrase Char := fun c =>
  match c.rest with
  | [] => ⟨0, none⟩
  | head :: tail => if accepts head then ⟨0, some (head, ⟨c.offset + 1, tail⟩)⟩ else ⟨0, none⟩

def char (expected : Char) : Phrase Char := satisfying (· == expected)

/-- The characters of a text, one after the other. -/
def chars : List Char → Phrase Unit
  | [] => pure ()
  | expected :: others => do
      let _ ← char expected
      chars others

def word (text : String) : Phrase Unit := chars text.toList

/-- As many characters of a class as there are, perhaps none. -/
def run (accepts : Char → Bool) : Phrase (List Char) := fun c =>
  let taken := c.rest.takeWhile accepts
  ⟨0, some (taken, ⟨c.offset + taken.length, c.rest.dropWhile accepts⟩)⟩

/-- As many characters of a class as there are, at least one. -/
def run1 (accepts : Char → Bool) : Phrase (List Char) := do
  let first ← satisfying accepts
  let others ← run accepts
  pure (first :: others)

/-- The first so many characters. -/
def take (measure : List Char → Nat) : Phrase (List Char) := fun c =>
  let count := measure c.rest
  ⟨0, some (c.rest.take count, ⟨c.offset + count, c.rest.drop count⟩)⟩

def optional (p : Phrase α) : Phrase (Option α) := fun c =>
  let first := p c
  match first.found with
  | some (a, c') => ⟨first.furthest, some (some a, c')⟩
  | none => ⟨first.furthest, some (none, c)⟩

/-- A phrase as often as it is there, at most `limit` times. -/
def upTo (p : Phrase α) : Nat → Phrase (List α)
  | 0 => pure []
  | limit + 1 => fun c =>
      let first := p c
      match first.found with
      | none => ⟨first.furthest, some ([], c)⟩
      | some (a, c') =>
          let others := upTo p limit c'
          ⟨max first.furthest others.furthest,
            others.found.map fun (as, after) => (a :: as, after)⟩

/-- A phrase as often as it is there. It has to take characters, so the length of the text bounds
how often that is. -/
def many (p : Phrase α) : Phrase (List α) := fun c => upTo p (c.rest.length + 1) c

/-- The characters that a phrase takes. -/
def spanned (p : Phrase α) : Phrase (List Char) := fun c =>
  let first := p c
  ⟨first.furthest, first.found.map fun (_, c') => (c.rest.take (c'.offset - c.offset), c')⟩

/-- Whether a phrase follows, without taking it. -/
def ahead (p : Phrase α) : Phrase Unit := fun c =>
  let first := p c
  ⟨first.furthest, first.found.map fun _ => ((), c)⟩

/-- No character of a class follows. -/
def notAhead (accepts : Char → Bool) : Phrase Unit := fun c =>
  match c.rest with
  | [] => ⟨0, some ((), c)⟩
  | head :: _ => if accepts head then ⟨0, none⟩ else ⟨0, some ((), c)⟩

/-- A phrase with a name: where it is not there, that place may be to blame. -/
def named (p : Phrase α) : Phrase α := fun c =>
  let first := p c
  match first.found with
  | some _ => first
  | none => ⟨max first.furthest c.offset, none⟩

/-- A phrase inside which no place is to blame. -/
def whole (p : Phrase α) : Phrase α := fun c => ⟨0, (p c).found⟩

/-- A phrase with a name that is right or wrong as a whole. -/
def token (p : Phrase α) : Phrase α := named (whole p)

def endOfText : Phrase Unit := named fun c =>
  match c.rest with
  | [] => ⟨0, some ((), c)⟩
  | _ => ⟨0, none⟩

/-- The meaning of a text that is a phrase, or the offset of what is wrong with it. -/
def readAll (p : Phrase α) (text : List Char) : Except Nat α :=
  let attempt := (do let a ← p; endOfText; pure a : Phrase α) (.start text)
  match attempt.found with
  | some (a, _) => .ok a
  | none => .error attempt.furthest

end Phrase

end Haystack
