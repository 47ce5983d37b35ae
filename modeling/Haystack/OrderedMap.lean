import Haystack.Error

/-!
Maps that keep their keys in order.

A key keeps its place when its value is replaced; a new one goes to the end unless a position is
asked for. The view of a map is its list of items.
-/
namespace Haystack

structure OrderedMap (α : Type) where
  items : List (String × α)
deriving DecidableEq

/-- Where `addItem` places a key. -/
inductive Position where
  | first
  /-- After the last key, or where the key already is when it is replaced. -/
  | last
  | index (i : Nat)
  | before (anchor : String)
  | after (anchor : String)
deriving DecidableEq

namespace OrderedMap

variable {α β : Type}

def empty : OrderedMap α := ⟨[]⟩

instance : Inhabited (OrderedMap α) := ⟨empty⟩

def size (m : OrderedMap α) : Nat := m.items.length

def isEmpty (m : OrderedMap α) : Bool := m.items.isEmpty

def keys (m : OrderedMap α) : List String := m.items.map (·.1)

def values (m : OrderedMap α) : List α := m.items.map (·.2)

/-- No key occurs twice. -/
def Distinct (m : OrderedMap α) : Prop := m.keys.Nodup

def indexOf? (m : OrderedMap α) (key : String) : Option Nat :=
  m.items.findIdx? fun item => item.1 == key

def get? (m : OrderedMap α) (key : String) : Option α := m.items.lookup key

def contains (m : OrderedMap α) (key : String) : Bool := (m.get? key).isSome

def item? (m : OrderedMap α) (index : Nat) : Option (String × α) := m.items[index]?

/-! ## Change of single keys -/

def replaceItem (key : String) (value : α) : List (String × α) → List (String × α)
  | [] => []
  | item :: rest =>
      if item.1 == key then (item.1, value) :: rest else item :: replaceItem key value rest

/-- Set the value of a key, in place if the key is there and at the end if not. -/
def insert (m : OrderedMap α) (key : String) (value : α) : OrderedMap α :=
  if m.contains key then ⟨replaceItem key value m.items⟩ else ⟨m.items ++ [(key, value)]⟩

/-- Change the value of a key if it is there. -/
def modify (m : OrderedMap α) (key : String) (change : α → α) : OrderedMap α :=
  match m.get? key with
  | some value => m.insert key (change value)
  | none => m

def erase (m : OrderedMap α) (key : String) : OrderedMap α :=
  ⟨m.items.eraseP fun item => item.1 == key⟩

def eraseIndex (m : OrderedMap α) (index : Nat) : OrderedMap α := ⟨m.items.eraseIdx index⟩

/-- The items inserted one after the other: of a repeated key the first place and the last value. -/
def ofList (items : List (String × α)) : OrderedMap α :=
  items.foldl (fun m item => m.insert item.1 item.2) empty

/-! ## Positions -/

def anchor (m : OrderedMap α) (key : String) : Except Error Nat :=
  match m.indexOf? key with
  | some index => .ok index
  | none => .error (.keyNotFound key)

/-- The index that a position asks for; none for the end. -/
def target (m : OrderedMap α) : Position → Except Error (Option Nat)
  | .first => .ok (some 0)
  | .last => .ok none
  | .index i => .ok (some i)
  | .before key => (m.anchor key).map some
  | .after key => (m.anchor key).map fun index => some (index + 1)

/-- Put an item at an index, or at the end if the index lies beyond it. -/
def insertAt (m : OrderedMap α) (index : Nat) (key : String) (value : α) : OrderedMap α :=
  ⟨m.items.take index ++ (key, value) :: m.items.drop index⟩

/-- Add a key at a position. A key that is there is refused unless `replace` is set; it then moves
only if a position other than the end is given. -/
def addItem (m : OrderedMap α) (key : String) (value : α) (position : Position) (replace : Bool) :
    Except Error (OrderedMap α) :=
  match m.target position with
  | .error missing => .error missing
  | .ok index =>
      match m.indexOf? key with
      | none =>
          match index with
          | none => .ok (m.insertAt m.size key value)
          | some i => .ok (m.insertAt i key value)
      | some existing =>
          if !replace then .error (.duplicateKey key)
          else match index with
            | none => .ok (m.insert key value)
            | some i =>
                let place := if existing < i then i - 1 else i
                .ok ((m.eraseIndex existing).insertAt place key value)

/-! ## The whole map -/

def reverse (m : OrderedMap α) : OrderedMap α := ⟨m.items.reverse⟩

/-- Reorder the items by their keys; items whose keys are equal in the order keep their places. -/
def sortBy (m : OrderedMap α) (order : String → String → Ordering) : OrderedMap α :=
  ⟨m.items.mergeSort fun a b => order a.1 b.1 != .gt⟩

def sortKeys (m : OrderedMap α) : OrderedMap α := m.sortBy compare

def filter (m : OrderedMap α) (keep : String → α → Bool) : OrderedMap α :=
  ⟨m.items.filter fun item => keep item.1 item.2⟩

def mapValues (m : OrderedMap α) (f : α → β) : OrderedMap β :=
  ⟨m.items.map fun item => (item.1, f item.2)⟩

/-- The items on one line, the keys being quoted. -/
def shown (m : OrderedMap α) (display : α → String) : String :=
  "\x7b" ++ String.intercalate ", " (m.items.map fun item =>
    Text.shown item.1 ++ ": " ++ display item.2) ++ "\x7d"

/-! ## Lemmas -/

@[simp] theorem items_empty : (empty : OrderedMap α).items = [] := rfl

theorem contains_eq_true_iff {m : OrderedMap α} {key : String} :
    m.contains key = true ↔ key ∈ m.keys := by
  obtain ⟨items⟩ := m
  induction items with
  | nil => simp [contains, get?, keys]
  | cons item rest ih =>
      obtain ⟨name, value⟩ := item
      have tail : (List.lookup key rest).isSome = true ↔ key ∈ rest.map (·.1) := ih
      by_cases same : key = name
      · subst same
        simp [contains, get?, keys]
      · have differs : (key == name) = false := by simpa using same
        simp [contains, get?, keys, List.lookup_cons, differs, same, tail]

theorem keys_replaceItem (key : String) (value : α) (items : List (String × α)) :
    (replaceItem key value items).map (·.1) = items.map (·.1) := by
  induction items with
  | nil => rfl
  | cons item rest ih =>
      simp only [replaceItem]
      split <;> simp [ih]

/-- A new key comes last, a present one stays where it is. -/
theorem keys_insert (m : OrderedMap α) (key : String) (value : α) :
    (m.insert key value).keys = if m.contains key then m.keys else m.keys ++ [key] := by
  simp only [insert]
  split
  · exact keys_replaceItem key value m.items
  · simp [keys]

theorem distinct_insert {m : OrderedMap α} (distinct : m.Distinct) (key : String) (value : α) :
    (m.insert key value).Distinct := by
  unfold Distinct
  rw [keys_insert]
  split
  · exact distinct
  · next absent =>
    have fresh : key ∉ m.keys := fun member => absent (contains_eq_true_iff.mpr member)
    exact List.nodup_append.mpr ⟨distinct, by simp, by
      intro a inMap b isKey same
      rw [List.mem_singleton] at isKey
      exact fresh (isKey ▸ same ▸ inMap)⟩

end OrderedMap

end Haystack
