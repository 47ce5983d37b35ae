import Std.Data.HashMap

/-!
Caches of bounded size that give up what was used least recently.

The entries stand in slots, each of which names the slots of the entries used just after and just
before its own; a map finds the slot of a key, and slots that became free are taken again first. The
view of a cache is `toList`, its items from the most to the least recently used.
-/
namespace Haystack

/-- An entry between its neighbours in the order of use. -/
structure Slot (κ α : Type) where
  key : κ
  value : α
  newer : Option Nat
  older : Option Nat

structure Recency (κ α : Type) [BEq κ] [Hashable κ] where
  capacity : Nat
  /-- The slot of each key. -/
  places : Std.HashMap κ Nat
  slots : Array (Option (Slot κ α))
  /-- The slots without an entry, the one freed last in front. -/
  free : List Nat
  newest : Option Nat
  oldest : Option Nat

namespace Recency

variable {κ α : Type} [BEq κ] [Hashable κ]

def empty (capacity : Nat) : Recency κ α := ⟨capacity, ∅, #[], [], none, none⟩

instance : Inhabited (Recency κ α) := ⟨empty 0⟩

def size (c : Recency κ α) : Nat := c.places.size

def isEmpty (c : Recency κ α) : Bool := c.places.isEmpty

def contains (c : Recency κ α) (key : κ) : Bool := c.places.contains key

def slot? (c : Recency κ α) (index : Nat) : Option (Slot κ α) := c.slots[index]?.join

/-- Change the entry in a slot, if there is one. -/
def changeSlot (c : Recency κ α) (index : Nat) (change : Slot κ α → Slot κ α) : Recency κ α :=
  { c with slots := c.slots.modify index (Option.map change) }

/-! ## The order of use -/

/-- The items from a slot on towards older ones, at most `limit` of them. -/
def itemsFrom (c : Recency κ α) (start : Option Nat) : Nat → List (κ × α)
  | 0 => []
  | limit + 1 =>
      match start.bind c.slot? with
      | some slot => (slot.key, slot.value) :: c.itemsFrom slot.older limit
      | none => []

/-- The items from the most to the least recently used. -/
def toList (c : Recency κ α) : List (κ × α) := c.itemsFrom c.newest c.slots.size

def keys (c : Recency κ α) : List κ := c.toList.map (·.1)

/-- Take a slot out of the order. -/
def unlink (c : Recency κ α) (index : Nat) : Recency κ α :=
  match c.slot? index with
  | none => c
  | some slot =>
      let c := match slot.newer with
        | some newer => c.changeSlot newer fun s => { s with older := slot.older }
        | none => { c with newest := slot.older }
      match slot.older with
      | some older => c.changeSlot older fun s => { s with newer := slot.newer }
      | none => { c with oldest := slot.newer }

/-- Put a slot in front of the order. -/
def linkFront (c : Recency κ α) (index : Nat) : Recency κ α :=
  let front := c.newest
  let c := c.changeSlot index fun s => { s with newer := none, older := front }
  let c := match front with
    | some old => c.changeSlot old fun s => { s with newer := some index }
    | none => c
  { c with newest := some index, oldest := c.oldest.or (some index) }

/-- Move a slot to the front of the order. -/
def touch (c : Recency κ α) (index : Nat) : Recency κ α :=
  if c.newest == some index then c else (c.unlink index).linkFront index

/-! ## Single entries -/

/-- The value of a key, which is now the most recently used one. -/
def get? (c : Recency κ α) (key : κ) : Option α × Recency κ α :=
  match c.places[key]? with
  | none => (none, c)
  | some index =>
      let c := c.touch index
      ((c.slot? index).map (·.value), c)

def erase (c : Recency κ α) (key : κ) : Option α × Recency κ α :=
  match c.places[key]? with
  | none => (none, c)
  | some index =>
      let c := { c with places := c.places.erase key }.unlink index
      ((c.slot? index).map (·.value),
        { c with slots := c.slots.setIfInBounds index none, free := index :: c.free })

/-- Give up the least recently used entry, if there is one. -/
def evict? (c : Recency κ α) : Option (κ × Recency κ α) :=
  (c.oldest.bind c.slot?).map fun slot => (slot.key, (c.erase slot.key).2)

/-- Give up entries until no more than `room` are left, the least recently used ones first. -/
def evictDownTo (c : Recency κ α) (room : Nat) : Nat → List κ × Recency κ α
  | 0 => ([], c)
  | limit + 1 =>
      if c.size ≤ room then ([], c)
      else match c.evict? with
        | none => ([], c)
        | some (key, c) =>
            let (keys, c) := c.evictDownTo room limit
            (key :: keys, c)

/-- Put an entry into a slot outside of the order. -/
def place (c : Recency κ α) (key : κ) (value : α) : Nat × Recency κ α :=
  let slot : Slot κ α := ⟨key, value, none, none⟩
  match c.free with
  | index :: free => (index, { c with slots := c.slots.setIfInBounds index (some slot), free })
  | [] => (c.slots.size, { c with slots := c.slots.push (some slot) })

/-- Set the value of a key, which is now the most recently used one, and tell the keys that were
given up for it. Without any capacity that is the key itself. -/
def put (c : Recency κ α) (key : κ) (value : α) : List κ × Recency κ α :=
  match c.places[key]? with
  | some index => ([], (c.changeSlot index fun s => { s with value }).touch index)
  | none =>
      if c.capacity = 0 then ([key], c)
      else
        let (evicted, c) := c.evictDownTo (c.capacity - 1) c.size
        let (index, c) := c.place key value
        (evicted, { c with places := c.places.insert key index }.linkFront index)

/-! ## The whole cache -/

def clear (c : Recency κ α) : Recency κ α := empty c.capacity

/-- Change the capacity, and tell the keys that were given up for it. -/
def setCapacity (c : Recency κ α) (capacity : Nat) : List κ × Recency κ α :=
  { c with capacity }.evictDownTo capacity c.size

end Recency

end Haystack
