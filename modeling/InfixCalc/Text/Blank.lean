/-!
# Blank text

White space in the sense of the Unicode property of that name, and the trimming of it.
-/

namespace InfixCalc

namespace Text

/-- The 25 characters with the property White_Space. -/
def isWhiteSpace (c : Char) : Bool :=
  let n := c.toNat
  (0x9 ≤ n && n ≤ 0xd) || n == 0x20 || n == 0x85 || n == 0xa0 || n == 0x1680 ||
    (0x2000 ≤ n && n ≤ 0x200a) || n == 0x2028 || n == 0x2029 || n == 0x202f || n == 0x205f ||
    n == 0x3000

/-- Drops the trailing elements that satisfy a condition. -/
def dropTrailing (p : Char → Bool) (cs : List Char) : List Char := (cs.reverse.dropWhile p).reverse

def trimChars (cs : List Char) : List Char := dropTrailing isWhiteSpace (cs.dropWhile isWhiteSpace)

/-- The text without the white space at its two ends. -/
def trim (text : String) : String := String.ofList (trimChars text.toList)

/-- The text has no other characters than white space. -/
def isBlank (text : String) : Bool := text.toList.all isWhiteSpace

end Text

end InfixCalc
