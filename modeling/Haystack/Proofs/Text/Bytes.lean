import Haystack.Value.Basic

/-!
Bytes written as text are read back: in base 64, and as the UTF-8 encoding of a text.
-/
namespace Haystack.Text

/-! ## Base 64 -/

namespace Base64

theorem digitValue?_digit : ∀ n < 64, digitValue? (digit n) = some n := by decide +kernel

theorem digit_ne_padding : ∀ n < 64, digit n ≠ '=' := by decide +kernel

theorem ofNat_eq {byte : UInt8} {n : Nat} (same : n = byte.toNat) : UInt8.ofNat n = byte := by
  rw [same, UInt8.ofNat_toNat]

theorem decode?_encode (bytes : List UInt8) : decode? (encode bytes) = some bytes := by
  induction bytes using encode.induct with
  | case1 => rfl
  | case2 a =>
      have small := a.toNat_lt
      have first := digitValue?_digit (a.toNat / 4) (by omega)
      have second := digitValue?_digit (a.toNat % 4 * 16) (by omega)
      have whole : UInt8.ofNat (a.toNat / 4 * 4 + a.toNat % 4 * 16 / 16) = a :=
        ofNat_eq (by omega)
      have spare : a.toNat % 4 * 16 % 16 = 0 := by omega
      simp only [encode, decode?, first, second, whole, spare, Option.bind_eq_bind,
        Option.bind_some, if_true, and_self]
  | case3 a b =>
      have small := a.toNat_lt
      have alsoSmall := b.toNat_lt
      have first := digitValue?_digit (a.toNat / 4) (by omega)
      have second := digitValue?_digit (a.toNat % 4 * 16 + b.toNat / 16) (by omega)
      have third := digitValue?_digit (b.toNat % 16 * 4) (by omega)
      have isDigit := digit_ne_padding (b.toNat % 16 * 4) (by omega)
      have whole : UInt8.ofNat (a.toNat / 4 * 4 + (a.toNat % 4 * 16 + b.toNat / 16) / 16) = a :=
        ofNat_eq (by omega)
      have next : UInt8.ofNat ((a.toNat % 4 * 16 + b.toNat / 16) % 16 * 16 +
          b.toNat % 16 * 4 / 4) = b := ofNat_eq (by omega)
      have spare : b.toNat % 16 * 4 % 4 = 0 := by omega
      simp only [encode, decode?, first, second, third, isDigit, whole, next, spare,
        Option.bind_eq_bind, Option.bind_some, if_true, if_false, and_self]
  | case4 a b c rest ih =>
      have small := a.toNat_lt
      have alsoSmall := b.toNat_lt
      have lastSmall := c.toNat_lt
      have first := digitValue?_digit (a.toNat / 4) (by omega)
      have second := digitValue?_digit (a.toNat % 4 * 16 + b.toNat / 16) (by omega)
      have third := digitValue?_digit (b.toNat % 16 * 4 + c.toNat / 64) (by omega)
      have fourth := digitValue?_digit (c.toNat % 64) (by omega)
      have isDigit := digit_ne_padding (b.toNat % 16 * 4 + c.toNat / 64) (by omega)
      have alsoDigit := digit_ne_padding (c.toNat % 64) (by omega)
      have whole : UInt8.ofNat (a.toNat / 4 * 4 + (a.toNat % 4 * 16 + b.toNat / 16) / 16) = a :=
        ofNat_eq (by omega)
      have next : UInt8.ofNat ((a.toNat % 4 * 16 + b.toNat / 16) % 16 * 16 +
          (b.toNat % 16 * 4 + c.toNat / 64) / 4) = b := ofNat_eq (by omega)
      have last : UInt8.ofNat ((b.toNat % 16 * 4 + c.toNat / 64) % 4 * 64 + c.toNat % 64) = c :=
        ofNat_eq (by omega)
      simp only [encode, decode?, first, second, third, fourth, isDigit, alsoDigit, whole, next,
        last, ih, Option.bind_eq_bind, Option.bind_some, if_false]

end Base64

/-! ## UTF-8 -/

namespace Utf8

theorem toList_loop (bytes : ByteArray) (index : Nat) (before : List UInt8) :
    ByteArray.toList.loop bytes index before = before.reverse ++ bytes.data.toList.drop index := by
  fun_induction ByteArray.toList.loop bytes index before with
  | case1 index before inside ih =>
      have bound : index < bytes.data.toList.length := by simpa using inside
      rw [ih, List.reverse_cons, List.append_assoc, List.drop_eq_getElem_cons bound]
      simp [ByteArray.get!, getElem!_pos bytes.data index (by simpa using inside)]
  | case2 index before outside =>
      rw [List.drop_eq_nil_of_le (by simpa using outside), List.append_nil]

/-- The bytes of a text are those of its characters. -/
theorem encode_eq (text : String) : encode text = text.toList.flatMap String.utf8EncodeChar := by
  rw [encode, String.toUTF8_eq_toByteArray, ← String.utf8Encode_toList, ByteArray.toList, toList_loop]
  simp [List.utf8Encode]

variable {v : Nat} {first second third fourth : UInt8} {rest : List UInt8}

/-- Whether a second byte lies within the bounds that the first one sets. -/
def Admits (first second : UInt8) : Prop :=
  (secondBounds first).1.toNat ≤ second.toNat ∧ second.toNat ≤ (secondBounds first).2.toNat

theorem Admits.within (admits : Admits first second) :
    ¬ second < (secondBounds first).1 ∧ ¬ (secondBounds first).2 < second := by
  simp only [UInt8.lt_iff_toNat_lt, Nat.not_lt]
  exact admits

theorem front_one (isFirst : first.toNat = v) (small : v ≤ 0x7f) :
    front first rest = .char (Char.ofNat v) 1 := by
  have announced : announced? first = some 1 := by
    simp [announced?, UInt8.lt_iff_toNat_lt, isFirst]
    omega
  cases rest <;> simp [front, announced, isFirst]

theorem front_two (announced : announced? first = some 2) (admits : Admits first second)
    (value : first.toNat % 32 * 64 + payload second = v) :
    front first (second :: rest) = .char (Char.ofNat v) 2 := by
  obtain ⟨low, high⟩ := admits.within
  simp [front, announced, low, high, value]

theorem front_three (announced : announced? first = some 3) (admits : Admits first second)
    (continues : isContinuation third = true)
    (value : (first.toNat % 16 * 64 + payload second) * 64 + payload third = v) :
    front first (second :: third :: rest) = .char (Char.ofNat v) 3 := by
  obtain ⟨low, high⟩ := admits.within
  simp [front, announced, low, high, continues, value]

theorem front_four (announced : announced? first = some 4) (admits : Admits first second)
    (continues : isContinuation third = true) (ends : isContinuation fourth = true)
    (value : ((first.toNat % 8 * 64 + payload second) * 64 + payload third) * 64 +
      payload fourth = v) :
    front first (second :: third :: fourth :: rest) = .char (Char.ofNat v) 4 := by
  obtain ⟨low, high⟩ := admits.within
  simp [front, announced, low, high, continues, ends, value]

theorem toNat_ofNat {n : Nat} (small : n < 256) : (UInt8.ofNat n).toNat = n := by
  rw [UInt8.toNat_ofNat']
  exact Nat.mod_eq_of_lt small

/-- A byte that continues a character holds six of its bits. -/
theorem continuation (n : Nat) : isContinuation (UInt8.ofNat (n % 64 + 0x80)) = true ∧
    payload (UInt8.ofNat (n % 64 + 0x80)) = n % 64 := by
  have isByte := toNat_ofNat (n := n % 64 + 0x80) (by omega)
  refine ⟨?_, ?_⟩
  · simp only [isContinuation, Bool.and_eq_true, decide_eq_true_eq, UInt8.le_iff_toNat_le, isByte]
    refine ⟨?_, ?_⟩
    · change 0x80 ≤ _
      omega
    · change _ ≤ 0xbf
      omega
  · rw [payload, isByte]
    omega

theorem announced?_eq_two (low : 0xc2 ≤ first.toNat) (high : first.toNat ≤ 0xdf) :
    announced? first = some 2 := by
  simp only [announced?, UInt8.lt_iff_toNat_lt, UInt8.le_iff_toNat_le, UInt8.reduceToNat,
    Bool.and_eq_true, decide_eq_true_eq]
  rw [if_neg (by omega), if_pos (by omega)]

theorem announced?_eq_three (low : 0xe0 ≤ first.toNat) (high : first.toNat ≤ 0xef) :
    announced? first = some 3 := by
  simp only [announced?, UInt8.lt_iff_toNat_lt, UInt8.le_iff_toNat_le, UInt8.reduceToNat,
    Bool.and_eq_true, decide_eq_true_eq]
  rw [if_neg (by omega), if_neg (by omega), if_pos (by omega)]

theorem announced?_eq_four (low : 0xf0 ≤ first.toNat) (high : first.toNat ≤ 0xf4) :
    announced? first = some 4 := by
  simp only [announced?, UInt8.lt_iff_toNat_lt, UInt8.le_iff_toNat_le, UInt8.reduceToNat,
    Bool.and_eq_true, decide_eq_true_eq]
  rw [if_neg (by omega), if_neg (by omega), if_neg (by omega), if_pos (by omega)]

/-- The bounds of a second byte bind at the ends of what first bytes announce. -/
theorem admits_of_toNat (low : 0x80 ≤ second.toNat) (high : second.toNat ≤ 0xbf)
    (overlong : first.toNat = 0xe0 → 0xa0 ≤ second.toNat)
    (surrogate : first.toNat = 0xed → second.toNat ≤ 0x9f)
    (alsoOverlong : first.toNat = 0xf0 → 0x90 ≤ second.toNat)
    (tooGreat : first.toNat = 0xf4 → second.toNat ≤ 0x8f) : Admits first second := by
  unfold Admits secondBounds
  simp only [← UInt8.toNat_inj, UInt8.reduceToNat]
  split
  · next here => exact ⟨overlong here, high⟩
  split
  · next here => exact ⟨low, surrogate here⟩
  split
  · next here => exact ⟨alsoOverlong here, high⟩
  split
  · next here => exact ⟨low, tooGreat here⟩
  · exact ⟨low, high⟩

theorem decodeLossyFrom_skip (front rest : List UInt8) :
    decodeLossyFrom front.length (front ++ rest) = decodeLossyFrom 0 rest := by
  induction front with
  | nil => rfl
  | cons byte others ih => simpa only [List.length_cons, List.cons_append, decodeLossyFrom] using ih

theorem decodeLossyFrom_front {c : Char} {others : List UInt8}
    (isChar : front first (others ++ rest) = .char c (others.length + 1)) :
    decodeLossyFrom 0 (first :: others ++ rest) = c :: decodeLossyFrom 0 rest := by
  simp only [List.cons_append, decodeLossyFrom, isChar, Nat.add_sub_cancel, decodeLossyFrom_skip]

/-- What is decoded from the bytes of a character is the character. -/
theorem decodeLossyFrom_utf8EncodeChar (c : Char) (rest : List UInt8) :
    decodeLossyFrom 0 (String.utf8EncodeChar c ++ rest) = c :: decodeLossyFrom 0 rest := by
  have valid : c.toNat < 0xd800 ∨ 0xdfff < c.toNat ∧ c.toNat < 0x110000 := c.valid
  have whole : Char.ofNat c.toNat = c := Char.ofNat_toNat c
  have isValue : c.val.toNat = c.toNat := rfl
  unfold String.utf8EncodeChar
  rw [isValue]
  generalize c.toNat = v at valid whole
  obtain rfl := whole
  simp only
  split
  · next small =>
    exact @decodeLossyFrom_front _ _ _ [] (front_one (toNat_ofNat (by omega)) small)
  split
  · next large small =>
    obtain ⟨_, bits⟩ := continuation v
    have isFirst := toNat_ofNat (n := v / 64 % 0x20 + 0xc0) (by omega)
    have isSecond := toNat_ofNat (n := v % 64 + 0x80) (by omega)
    refine @decodeLossyFrom_front _ _ _ [_] (front_two ?_ ?_ ?_)
    · exact announced?_eq_two (by omega) (by omega)
    · exact admits_of_toNat (by omega) (by omega) (by omega) (by omega) (by omega) (by omega)
    · rw [bits, isFirst]
      omega
  split
  · next large small =>
    obtain ⟨_, upperBits⟩ := continuation (v / 64)
    obtain ⟨continues, lowerBits⟩ := continuation v
    have isFirst := toNat_ofNat (n := v / 4096 % 0x10 + 0xe0) (by omega)
    have isSecond := toNat_ofNat (n := v / 64 % 64 + 0x80) (by omega)
    refine @decodeLossyFrom_front _ _ _ [_, _] (front_three ?_ ?_ continues ?_)
    · exact announced?_eq_three (by omega) (by omega)
    · exact admits_of_toNat (by omega) (by omega) (by omega) (by omega) (by omega) (by omega)
    · rw [upperBits, lowerBits, isFirst]
      omega
  · next large =>
    obtain ⟨_, upperBits⟩ := continuation (v / 4096)
    obtain ⟨continues, middleBits⟩ := continuation (v / 64)
    obtain ⟨ends, lowerBits⟩ := continuation v
    have isFirst := toNat_ofNat (n := v / 262144 % 0x08 + 0xf0) (by omega)
    have isSecond := toNat_ofNat (n := v / 4096 % 64 + 0x80) (by omega)
    refine @decodeLossyFrom_front _ _ _ [_, _, _] (front_four ?_ ?_ continues ends ?_)
    · exact announced?_eq_four (by omega) (by omega)
    · exact admits_of_toNat (by omega) (by omega) (by omega) (by omega) (by omega) (by omega)
    · rw [upperBits, middleBits, lowerBits, isFirst]
      omega

theorem decodeLossy_encode (text : String) : decodeLossy (encode text) = text := by
  have chars : ∀ chars : List Char,
      decodeLossyFrom 0 (chars.flatMap String.utf8EncodeChar) = chars := by
    intro chars
    induction chars with
    | nil => rfl
    | cons c rest ih => rw [List.flatMap_cons, decodeLossyFrom_utf8EncodeChar, ih]
  rw [decodeLossy, encode_eq, chars, String.ofList_toList]

/-- The characters that the bytes of a text name one by one. -/
def byteChars (text : String) : List Char :=
  text.toByteArray.data.toList.map fun byte => Char.ofNat byte.toNat

/-- Every byte of a text is an ASCII character. -/
def isAscii (text : String) : Bool := text.toByteArray.data.toList.all (·.toNat < 0x80)

theorem utf8EncodeChar_of_ascii {c : Char}
    (ascii : ∀ byte ∈ String.utf8EncodeChar c, byte.toNat < 0x80) :
    String.utf8EncodeChar c = [UInt8.ofNat c.toNat] ∧ c.toNat < 0x80 := by
  have isValue : c.val.toNat = c.toNat := rfl
  unfold String.utf8EncodeChar at ascii ⊢
  rw [isValue] at ascii ⊢
  generalize c.toNat = v at ascii ⊢
  simp only at ascii ⊢
  split at ascii
  · next small => exact ⟨if_pos small, by omega⟩
  -- otherwise the first byte announces more
  · exfalso
    split at ascii
    · have first := ascii _ (.head _)
      rw [toNat_ofNat (by omega)] at first
      omega
    split at ascii
    · have first := ascii _ (.head _)
      rw [toNat_ofNat (by omega)] at first
      omega
    · have first := ascii _ (.head _)
      rw [toNat_ofNat (by omega)] at first
      omega

/-- A text of ASCII characters has one byte for each. -/
theorem toList_eq_byteChars {text : String} (ascii : isAscii text = true) :
    text.toList = byteChars text := by
  have bytes : text.toByteArray.data.toList = text.toList.flatMap String.utf8EncodeChar := by
    rw [← String.utf8Encode_toList]
    simp [List.utf8Encode]
  rw [isAscii, bytes, List.all_eq_true] at ascii
  rw [byteChars, bytes]
  generalize text.toList = chars at ascii
  induction chars with
  | nil => rfl
  | cons c rest ih =>
      simp only [List.flatMap_cons, List.mem_append, decide_eq_true_eq] at ascii ih
      obtain ⟨single, small⟩ := utf8EncodeChar_of_ascii fun byte member => ascii byte (.inl member)
      rw [List.flatMap_cons, single, List.singleton_append, List.map_cons,
        toNat_ofNat (by omega), Char.ofNat_toNat, ← ih fun byte member => ascii byte (.inr member)]

end Utf8

end Haystack.Text

namespace Haystack.XStr

/-- Encoded bytes that were made from a text are made again from their own. -/
theorem ofText_text {x : XStr} {text : String} (made : ofText x.encoding text = .ok x) :
    ofText x.encoding x.text = .ok x := by
  obtain ⟨encoding, data⟩ := x
  simp only [ofText, XStr.text] at made ⊢
  by_cases hex : encoding = "hex"
  · simp [hex, Text.Hex.decode?_encode]
  by_cases base64 : encoding = "b64"
  · simp [base64, Text.Base64.decode?_encode]
  · simp only [if_neg hex, if_neg base64, Except.ok.injEq, XStr.mk.injEq, true_and] at made ⊢
    rw [← made, Text.Utf8.decodeLossy_encode]

end Haystack.XStr
