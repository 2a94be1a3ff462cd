import ActionEngine.Fault
import ActionEngine.Number.Reading

/-!
# Writing JSON

A document is written on one line, or indented by two columns with one field or
item on a line. Keys may be sorted by their code points, and characters outside
printable ASCII may be written by their 16-bit codes.
-/

namespace ActionEngine.Json

/-- How a document is laid out. -/
structure Style where
  /-- One field or item on a line, indented by two columns a level. -/
  indented : Bool
  /-- Fields in the order of their keys. -/
  sorted : Bool
  /-- Only printable ASCII characters. -/
  ascii : Bool
deriving DecidableEq, Repr

/-- Why a value cannot be written. -/
inductive Refusal where
  /-- The format has no form for values of this kind. -/
  | kind (name : String)
  /-- An integer has too many digits. -/
  | longInteger
deriving DecidableEq, Repr

def Refusal.fault : Refusal → ActionEngine.Fault
  | kind name => .wrongKind ("Object of type " ++ name ++ " is not JSON serializable")
  | longInteger => .value ("Exceeds the limit (" ++ toString Reading.maxDigits ++ " digits) for " ++
      "integer string conversion; use sys.set_int_max_str_digits() to increase the limit")

/-- One line, as is. -/
def Style.line : Style := ⟨false, false, false⟩

/-- A 16-bit unit by its four hexadecimal digits. -/
def unitCode (n : Nat) : List Char :=
  '\\' :: 'u' :: Text.hexDigits 4 n

/-- How a character stands inside a text. -/
def writeChar (ascii : Bool) (c : Char) : List Char :=
  if c == '"' || c == '\\' then ['\\', c]
  else if c == '\n' then ['\\', 'n']
  else if c == '\r' then ['\\', 'r']
  else if c == '\t' then ['\\', 't']
  else if c == '\x08' then ['\\', 'b']
  else if c == '\x0c' then ['\\', 'f']
  else
    let n := c.toNat
    if n < 0x20 || (ascii && 0x7F ≤ n && n < 0x10000) then unitCode n
    -- A character that needs two 16-bit units is written as both of them.
    else if ascii && 0x10000 ≤ n then
      unitCode (0xD800 + (n - 0x10000) / 0x400) ++ unitCode (0xDC00 + (n - 0x10000) % 0x400)
    else [c]

/-- How a code stands inside a text. A half is written by its unit in every style. -/
def writeCode (ascii : Bool) : Text.Code → List Char
  | .char c => writeChar ascii c
  | .half h => unitCode h.unit

def writeText (ascii : Bool) (s : LooseText) : List Char :=
  '"' :: s.codes.flatMap (writeCode ascii) ++ ['"']

/-- A floating-point number; those that the format lacks are written as words. -/
def writeFloat : Binary64 → List Char
  | .nan => "NaN".toList
  | .infinite negative => if negative then "-Infinity".toList else "Infinity".toList
  | x => x.text.toList

/-- The start of a line at a level. -/
def newline (level : Nat) : List Char :=
  '\n' :: List.replicate (2 * level) ' '

/-- Set the parts of a list or record between brackets. -/
def bracketed (style : Style) (level : Nat) (left right : Char) (parts : List (List Char)) :
    List Char :=
  match parts with
  | [] => [left, right]
  | first :: rest =>
    if style.indented then
      left :: newline (level + 1) ++ first ++
        rest.flatMap (fun p => ',' :: newline (level + 1) ++ p) ++ newline level ++ [right]
    else
      left :: first ++ rest.flatMap (fun p => ',' :: ' ' :: p) ++ [right]

mutual

/-- Write a value at a level of nesting. Of several values that cannot be written the
    first one in the order of writing is the reason for the refusal. -/
def write (style : Style) (level : Nat) : Value → Except Refusal (List Char)
  | .null => .ok "null".toList
  | .bool b => .ok (if b then "true".toList else "false".toList)
  | .int n =>
    if Nat.pow 10 Reading.maxDigits ≤ n.natAbs then .error .longInteger else .ok (toString n).toList
  | .float x => .ok (writeFloat x)
  | .text s => .ok (writeText style.ascii s)
  | .list items => do
    let parts ← writeItems style (level + 1) items
    .ok (bracketed style level '[' ']' parts)
  | .tuple items => do
    let parts ← writeItems style (level + 1) items
    .ok (bracketed style level '[' ']' parts)
  | .record fields => do
    let parts := writeFields style (level + 1) fields
    let parts := if style.sorted then parts.mergeSort fun a b => !(b.1 < a.1) else parts
    let parts ← parts.mapM fun p =>
      p.2.map fun value => writeText style.ascii p.1 ++ ':' :: ' ' :: value
    .ok (bracketed style level '\x7b' '\x7d' parts)
  | v => .error (.kind v.kind)

def writeItems (style : Style) (level : Nat) : List Value → Except Refusal (List (List Char))
  | [] => .ok []
  | v :: vs => do
    let first ← write style level v
    let rest ← writeItems style level vs
    .ok (first :: rest)

def writeFields (style : Style) (level : Nat) :
    List (LooseText × Value) → List (LooseText × Except Refusal (List Char))
  | [] => []
  | (key, v) :: fields => (key, write style level v) :: writeFields style level fields

end

def render (style : Style) (v : Value) : Except Refusal String :=
  (write style 0 v).map String.ofList

end ActionEngine.Json
