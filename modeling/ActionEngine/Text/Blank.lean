/-!
# Blank characters

Which characters count as blank, and the three ways of trimming blanks from a
line. The set is the Unicode property White_Space together with the four
information separators U+001C to U+001F: 29 characters in all.
-/

namespace ActionEngine.Text

/-- Closed ranges of the blank code points, ascending and apart. -/
def blankRanges : List (Nat × Nat) :=
  [(0x09, 0x0D), (0x1C, 0x20), (0x85, 0x85), (0xA0, 0xA0), (0x1680, 0x1680), (0x2000, 0x200A),
   (0x2028, 0x2029), (0x202F, 0x202F), (0x205F, 0x205F), (0x3000, 0x3000)]

def inRanges (ranges : List (Nat × Nat)) (n : Nat) : Bool :=
  ranges.any fun r => r.1 ≤ n && n ≤ r.2

/-- A blank separates words and is trimmed at the ends of a value. -/
def isBlank (c : Char) : Bool :=
  inRanges blankRanges c.toNat

def trimLeft (s : List Char) : List Char :=
  s.dropWhile isBlank

def trimRight (s : List Char) : List Char :=
  (s.reverse.dropWhile isBlank).reverse

def trim (s : List Char) : List Char :=
  trimRight (trimLeft s)

/-- Every character is blank; an empty text is. -/
def allBlank (s : List Char) : Bool :=
  s.all isBlank

end ActionEngine.Text

namespace String

def trimBlanks (s : String) : String :=
  String.ofList (ActionEngine.Text.trim s.toList)

end String
