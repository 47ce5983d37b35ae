/-!
Bytes as pairs of hexadecimal digits.
-/
namespace Haystack.Text.Hex

def digit (n : Nat) : Char := Nat.digitChar n

def digitValue? (c : Char) : Option Nat :=
  if '0' ≤ c ∧ c ≤ '9' then some (c.toNat - '0'.toNat)
  else if 'a' ≤ c ∧ c ≤ 'f' then some (c.toNat - 'a'.toNat + 10)
  else if 'A' ≤ c ∧ c ≤ 'F' then some (c.toNat - 'A'.toNat + 10)
  else none

/-- Two lower-case digits a byte. -/
def encode : List UInt8 → List Char
  | [] => []
  | byte :: rest => digit (byte.toNat / 16) :: digit (byte.toNat % 16) :: encode rest

/-- Digits of either case, an even number of them. -/
def decode? : List Char → Option (List UInt8)
  | [] => some []
  | [_] => none
  | high :: low :: rest => do
      let high ← digitValue? high
      let low ← digitValue? low
      let bytes ← decode? rest
      some (UInt8.ofNat (16 * high + low) :: bytes)

theorem decode?_encode (bytes : List UInt8) : decode? (encode bytes) = some bytes := by
  induction bytes with
  | nil => rfl
  | cons byte rest ih =>
      have value : ∀ n < 16, digitValue? (digit n) = some n := by decide
      have small := byte.toNat_lt
      have high := value (byte.toNat / 16) (by omega)
      have low := value (byte.toNat % 16) (by omega)
      have whole : UInt8.ofNat (16 * (byte.toNat / 16) + byte.toNat % 16) = byte := by
        rw [show 16 * (byte.toNat / 16) + byte.toNat % 16 = byte.toNat by omega, UInt8.ofNat_toNat]
      simp only [encode, decode?, high, low, ih, Option.bind_eq_bind, Option.bind_some, whole]

end Haystack.Text.Hex
