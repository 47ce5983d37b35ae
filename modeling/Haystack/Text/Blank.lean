/-!
Blank characters, and texts without the blanks around them.
-/
namespace Haystack.Text

/-- The code points with the White_Space property, as inclusive ranges. -/
def blankRanges : List (Nat × Nat) :=
  [(0x9, 0xD), (0x20, 0x20), (0x85, 0x85), (0xA0, 0xA0), (0x1680, 0x1680), (0x2000, 0x200A),
   (0x2028, 0x2029), (0x202F, 0x202F), (0x205F, 0x205F), (0x3000, 0x3000)]

def isBlank (c : Char) : Bool :=
  blankRanges.any fun range => range.1 ≤ c.toNat && c.toNat ≤ range.2

def trimStart (text : List Char) : List Char := text.dropWhile isBlank

def trimEnd (text : List Char) : List Char := (text.reverse.dropWhile isBlank).reverse

/-- A text without the blanks at its ends. -/
def trim (text : List Char) : List Char := trimEnd (trimStart text)

theorem trim_eq_self {text : List Char} (noBlank : ∀ c ∈ text, isBlank c = false) : trim text = text := by
  have clean {text : List Char} (noBlank : ∀ c ∈ text, isBlank c = false) :
      text.dropWhile isBlank = text := by
    cases text with
    | nil => rfl
    | cons c rest => exact List.dropWhile_cons_of_neg (by simp [noBlank c List.mem_cons_self])
  rw [trim, trimStart, clean noBlank, trimEnd,
    clean fun c member => noBlank c (List.mem_reverse.mp member), List.reverse_reverse]

def isAllBlank (text : List Char) : Bool := text.all isBlank

end Haystack.Text
