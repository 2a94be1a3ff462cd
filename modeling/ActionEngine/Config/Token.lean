import ActionEngine.Text.Blank
import ActionEngine.Text.Lines

/-!
# Lines of an action file

An action file is read line by line. Every line is classified on its own, by its
indentation and its shape; what it means is decided later, by what came before it.
A tab in front of a line reaches the next stop of two columns. Headers may carry a
trailing comment, property lines may not.
-/

namespace ActionEngine.Config

open ActionEngine.Text

/-- The column of category headers is 0; action headers start at this one. -/
def actionColumn : Nat := 2

/-- Properties and the content of prompt blocks start at this column. -/
def propertyColumn : Nat := 4

def tabStop : Nat := 2

inductive Shape where
  | blank
  | comment
  | category (key : Line)
  | action (key : Line)
  | property (key value : Line)
  | text
deriving DecidableEq, Repr

/-- A classified line: its number from 1, the column that its indentation reaches,
    and the line with its indentation in spaces and nothing blank at its end. -/
structure Token where
  number : Nat
  indent : Nat
  line : Line
  shape : Shape
deriving DecidableEq, Repr

/-! ### Shapes -/

def isIndentation (c : Char) : Bool :=
  c == ' ' || c == '\t'

/-- The column behind a character of the indentation. -/
def advance (column : Nat) (c : Char) : Nat :=
  if c == '\t' then column + (tabStop - column % tabStop) else column + 1

/-- The column that an indentation reaches. -/
def columnOf (indentation : Line) : Nat :=
  indentation.foldl advance 0

/-- A number sign follows, behind blanks or at once. -/
def opensComment (s : Line) : Bool :=
  (s.dropWhile isBlank).head? == some '#'

/-- A line without its trailing comment, which starts at the first run of blanks
    that a number sign follows. -/
def dropComment : Line → Line
  | [] => []
  | c :: rest => if isBlank c && opensComment rest then [] else c :: dropComment rest

def isWordChar (c : Char) : Bool :=
  c.isAlphanum || c == '_'

def isKeyChar (c : Char) : Bool :=
  isWordChar c || c == '-'

/-- The key of a header: a key, a colon, and nothing but blanks. -/
def header? (s : Line) : Option Line :=
  match s.span isKeyChar with
  | ([], _) => none
  -- The key ends at the first character that is none of a key's, so there is no other
  -- way to split the line.
  | (key, ':' :: rest) => if allBlank rest then some key else none
  | _ => none

/-- Key and value of a property: a word that starts with no digit, a colon, and the
    value behind it. -/
def property? (s : Line) : Option (Line × Line) :=
  match s.span isWordChar with
  | ([], _) => none
  | (c :: key, ':' :: rest) => if c.isDigit then none else some (c :: key, trim rest)
  | _ => none

/-- The header that a line is at its column: a category's at column 0, an action's
    from the action column up to the property column. -/
def headerAt? (indent : Nat) (body : Line) : Option Shape :=
  (header? (dropComment body)).bind fun key =>
    -- Column 1 is no header's.
    if indent == 0 then some (.category key)
    else if actionColumn ≤ indent && indent < propertyColumn then some (.action key)
    else none

/-- The property that a line is at its column. -/
def propertyAt? (indent : Nat) (body : Line) : Option Shape :=
  if propertyColumn ≤ indent then (property? body).map fun p => .property p.1 p.2 else none

/-- The shape of a line without its indentation, and with something on it. -/
def shapeAt (indent : Nat) (body : Line) : Shape :=
  if body.head? == some '#' then .comment
  else ((headerAt? indent body).or (propertyAt? indent body)).getD .text

namespace Token

def ofLine (number : Nat) (raw : Line) : Token :=
  let indent := columnOf (raw.takeWhile isIndentation)
  match trimRight (raw.dropWhile isIndentation) with
  -- A blank line has no column, however far its blanks reach.
  | [] => ⟨number, 0, [], .blank⟩
  | body => ⟨number, indent, List.replicate indent ' ' ++ body, shapeAt indent body⟩

/-- Classify lines that are numbered from a given number on. -/
def ofLinesFrom (number : Nat) : List Line → List Token
  | [] => []
  | raw :: rest => ofLine number raw :: ofLinesFrom (number + 1) rest

end Token

/-- A text without the byte order mark it may start with. -/
def dropMark : List Char → List Char
  | '\ufeff' :: rest => rest
  | s => s

def tokens (text : List Char) : List Token :=
  Token.ofLinesFrom 1 (lines (dropMark text))

end ActionEngine.Config
