/-!
Bytes in the standard base 64 alphabet, padded with `=` to groups of four.
-/
namespace Haystack.Text.Base64

def alphabet : List Char :=
  "ABCDEFGHIJKLMNOPQRSTUVWXYZabcdefghijklmnopqrstuvwxyz0123456789+/".toList

def digit (n : Nat) : Char := alphabet.getD n '='

def digitValue? (c : Char) : Option Nat := alphabet.idxOf? c

def encode : List UInt8 → List Char
  | [] => []
  | [a] => [digit (a.toNat / 4), digit (a.toNat % 4 * 16), '=', '=']
  | [a, b] =>
      [digit (a.toNat / 4), digit (a.toNat % 4 * 16 + b.toNat / 16), digit (b.toNat % 16 * 4), '=']
  | a :: b :: c :: rest =>
      digit (a.toNat / 4) :: digit (a.toNat % 4 * 16 + b.toNat / 16) ::
        digit (b.toNat % 16 * 4 + c.toNat / 64) :: digit (c.toNat % 64) :: encode rest

/-- Padding is required at the end and refused elsewhere; bits that belong to no byte are zero. -/
def decode? : List Char → Option (List UInt8)
  | [] => some []
  | a :: b :: c :: d :: rest => do
      let a ← digitValue? a
      let b ← digitValue? b
      let first := UInt8.ofNat (a * 4 + b / 16)
      if c = '=' then
        if d = '=' ∧ rest = [] ∧ b % 16 = 0 then some [first] else none
      else
        let c ← digitValue? c
        let second := UInt8.ofNat (b % 16 * 16 + c / 4)
        if d = '=' then
          if rest = [] ∧ c % 4 = 0 then some [first, second] else none
        else
          let d ← digitValue? d
          let bytes ← decode? rest
          some (first :: second :: UInt8.ofNat (c % 4 * 64 + d) :: bytes)
  | _ => none

end Haystack.Text.Base64
