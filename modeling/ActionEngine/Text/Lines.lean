/-!
# Lines

A text is cut into lines at the line boundaries: line feed, carriage return
(together with a line feed that follows it), vertical tab, form feed, the file,
group and record separators, next line, and the Unicode line and paragraph
separators. A boundary at the very end opens no further line.
-/

namespace ActionEngine.Text

/-- A line of text: the characters between two boundaries. -/
abbrev Line := List Char

def isBoundary (c : Char) : Bool :=
  c == '\n' || c == '\r' || c == '\x0b' || c == '\x0c' || c == '\x1c' || c == '\x1d' ||
    c == '\x1e' || c == '\u0085' || c == '\u2028' || c == '\u2029'

def consFirst (c : Char) : List Line → List Line
  | [] => [[c]]
  | line :: rest => (c :: line) :: rest

/-- The lines of a text. -/
def lines : List Char → List Line
  | [] => []
  | '\r' :: '\n' :: rest => [] :: lines rest
  | c :: rest => if isBoundary c then [] :: lines rest else consFirst c (lines rest)

/-- Lines set one under the other, with a line feed between neighbours. -/
def unlines : List Line → List Char
  | [] => []
  | [line] => line
  | line :: rest => line ++ '\n' :: unlines rest

/-- Reading a file maps both other line endings of its kind to a line feed. -/
def normaliseNewlines : List Char → List Char
  | [] => []
  | '\r' :: '\n' :: rest => '\n' :: normaliseNewlines rest
  | '\r' :: rest => '\n' :: normaliseNewlines rest
  | c :: rest => c :: normaliseNewlines rest

end ActionEngine.Text
