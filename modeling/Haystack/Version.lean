import Haystack.Text.DecimalDigit
import Haystack.Text.Pieces

/-!
Version numbers of the format: dotted groups of digits, then perhaps some text.

Versions are ordered by their groups, the shorter list filled up with zeros, then by the text after
them; a version without such text comes first, so `2.0 = 2.0.0 < 2.0a < 2.0b < 3.0`.
-/
namespace Haystack

structure Version where
  groups : List Nat
  extra : Option String
deriving DecidableEq

namespace Version

def two : Version := ⟨[2, 0], none⟩

def three : Version := ⟨[3, 0], none⟩

/-- The newest version that is read and written. -/
def latest : Version := three

/-- The versions that are read and written, oldest first. -/
def official : List Version := [two, three]

instance : Inhabited Version := ⟨latest⟩

/-! ## Order -/

def padded (count : Nat) (groups : List Nat) : List Nat :=
  groups ++ List.replicate (count - groups.length) 0

/-- The order of two lists of one length, by the first difference. -/
def compareGroups : List Nat → List Nat → Ordering
  | a :: as, b :: bs => (compare a b).then (compareGroups as bs)
  | _, _ => .eq

def compareExtra : Option String → Option String → Ordering
  | none, none => .eq
  | none, some _ => .lt
  | some _, none => .gt
  | some a, some b => compare a b

protected def compare (a b : Version) : Ordering :=
  let count := max a.groups.length b.groups.length
  (compareGroups (padded count a.groups) (padded count b.groups)).then
    (compareExtra a.extra b.extra)

instance : Ord Version := ⟨Version.compare⟩

instance : LT Version := ltOfOrd

instance : LE Version := leOfOrd

/-- Equality of the versions themselves, whatever zeros they are written with. -/
def same (a b : Version) : Bool := compare a b == .eq

def isOfficial (v : Version) : Bool := official.any (same v)

/-- The official version that stands in for another: itself, else the newest older one, else the
oldest newer one. -/
def nearest (v : Version) : Version :=
  match official.find? (same v) with
  | some exact => exact
  | none => match (official.filter fun w => compare w v == .lt).getLast? with
    | some older => older
    | none => ((official.filter fun w => compare v w == .lt).head?).getD latest

/-! ## Text -/

def text (v : Version) : String :=
  String.intercalate "." (v.groups.map Nat.repr) ++ v.extra.getD ""

instance : ToString Version := ⟨text⟩

/-- The greatest number a group may hold. -/
def groupLimit : Nat := Nat.pow 2 32 - 1

/-- A group of digits, an empty one being zero. Only ASCII digits have a value here. -/
def group? (digits : List Char) : Option Nat :=
  if digits.all Char.isDigit then
    let value := digits.foldl (fun total c => 10 * total + (c.toNat - '0'.toNat)) 0
    if value ≤ groupLimit then some value else none
  else none

def isGroupChar (c : Char) : Bool := Text.isDecimalDigit c || c == '.'

/-- A version starts with a digit of any script. Its groups end at the first character that is
neither a digit nor a point; what follows is the extra text, with no line feed after its first
character. -/
def read? (text : String) : Option Version := do
  let first ← text.toList.head?
  guard (Text.isDecimalDigit first)
  let groups ← (Text.pieces (· == '.') (text.toList.takeWhile isGroupChar)).mapM group?
  match text.toList.dropWhile isGroupChar with
  | [] => some ⟨groups, none⟩
  | c :: rest =>
      if '\n' ∈ rest then none else some ⟨groups, some (String.ofList (c :: rest))⟩

end Version

end Haystack
