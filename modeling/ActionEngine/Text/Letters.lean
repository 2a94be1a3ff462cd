import ActionEngine.Text.Blank

/-!
# Comparing words without regard to case

Settings and categories are named by ASCII words, and a value is compared with
such a word after lower-casing. No character outside ASCII has a lower case that
consists of letters of these words (the Kelvin sign gives `k`, which none of
them holds), so lower-casing the ASCII letters decides the comparison. For the
upper-case words that name log levels two more characters matter: the dotless i
and the long s.
-/

namespace ActionEngine.Text

def lowerAscii (c : Char) : Char :=
  if 'A' ≤ c && c ≤ 'Z' then Char.ofNat (c.toNat + 32) else c

/-- Upper-case the letters whose upper case is a single ASCII letter. -/
def upperAscii (c : Char) : Char :=
  if 'a' ≤ c && c ≤ 'z' then Char.ofNat (c.toNat - 32)
  else if c == '\u0131' then 'I'
  else if c == '\u017f' then 'S'
  else c

/-- The word a value names: trimmed and in lower case. -/
def keyword (s : String) : String :=
  String.ofList ((trim s.toList).map lowerAscii)

end ActionEngine.Text
