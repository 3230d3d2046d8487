/-!
# Blank characters

The white space of the Unicode standard, together with the four information
separators, is what this library calls blank.  Trimming a text removes the blanks at
both ends and nothing else.
-/

namespace Costar.Text

/-- Inclusive ranges of code points that are blank. -/
def blankRanges : List (Nat × Nat) :=
  [(0x9, 0xD), (0x1C, 0x20), (0x85, 0x85), (0xA0, 0xA0), (0x1680, 0x1680),
   (0x2000, 0x200A), (0x2028, 0x2029), (0x202F, 0x202F), (0x205F, 0x205F), (0x3000, 0x3000)]

/-- Whether a character is blank. -/
def isBlank (c : Char) : Bool :=
  blankRanges.any fun (low, high) => low ≤ c.toNat && c.toNat ≤ high

/-- Removes the leading characters that satisfy `p` and the trailing ones. -/
def trimBy (p : Char → Bool) (cs : List Char) : List Char :=
  ((cs.dropWhile p).reverse.dropWhile p).reverse

/-- Removes the blanks at both ends of a text. -/
def trim (cs : List Char) : List Char :=
  trimBy isBlank cs

end Costar.Text
