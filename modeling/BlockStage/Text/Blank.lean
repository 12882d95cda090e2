/-
  Blank characters and trimming.

  A character is blank when it has the Unicode property White_Space; trimming removes blanks from
  both ends and nothing else, so the trimmed text has a non-blank first and last character, if any.
-/

namespace BlockStage

/-- The Unicode property White_Space. -/
def isBlank (c : Char) : Bool :=
  let n := c.toNat
  (0x9 ≤ n && n ≤ 0xD) || n == 0x20 || n == 0x85 || n == 0xA0 || n == 0x1680
    || (0x2000 ≤ n && n ≤ 0x200A) || n == 0x2028 || n == 0x2029 || n == 0x202F || n == 0x205F
    || n == 0x3000

/-- The characters without blanks at either end. -/
def trimChars (cs : List Char) : List Char :=
  ((cs.dropWhile isBlank).reverse.dropWhile isBlank).reverse

/-- The text without blanks at either end. -/
def trimText (s : String) : String := String.ofList (trimChars s.toList)

/-- Does the text hold blanks only? -/
def isBlankText (s : String) : Bool := s.toList.all isBlank

/-! ## Letter case within ASCII -/

/-- Lower case for the letters A to Z, every other character as it is. -/
def asciiLower (s : String) : String := s.map Char.toLower

/-- Equal up to the case of the letters A to Z. -/
def eqIgnoringAsciiCase (a b : String) : Bool := asciiLower a == asciiLower b

example : trimText "\u2003 a b\t" = "a b" := by cbv

end BlockStage
