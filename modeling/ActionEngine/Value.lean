import ActionEngine.Number.Decimal
import ActionEngine.Text.Loose

/-!
# Dynamic values

Settings files, override lists and chat payloads hold values of any kind. A value
is tested for being empty, printed inside a message, and compared with a number.
-/

namespace ActionEngine

/-- A value of any kind. A record keeps its fields in order of first arrival; a
    foreign value is one that nothing here can look into. -/
inductive Value where
  | null
  | bool (b : Bool)
  | int (n : Int)
  | float (x : Binary64)
  | text (s : LooseText)
  | bytes (bs : List UInt8)
  | list (items : List Value)
  | tuple (items : List Value)
  | record (fields : List (LooseText × Value))
  | range (location length : Nat)
  | foreign
deriving Repr, Inhabited

/-- Fields in order of first arrival. -/
abbrev Fields := List (LooseText × Value)

def Fields.get? (fields : Fields) (key : LooseText) : Option Value :=
  fields.lookup key

/-- Set a field: a key that is present keeps its place, a new one goes to the end. -/
def Fields.put : Fields → LooseText → Value → Fields
  | [], key, value => [(key, value)]
  | (k, v) :: rest, key, value =>
    if k == key then (k, value) :: rest else (k, v) :: Fields.put rest key value

def Fields.drop (fields : Fields) (key : LooseText) : Fields :=
  fields.filter fun f => f.1 != key

def Fields.putAll (fields more : Fields) : Fields :=
  more.foldl (fun fs f => Fields.put fs f.1 f.2) fields

namespace Value

/-- The name of a value's kind, as messages give it. -/
def kind : Value → String
  | null => "NoneType"
  | bool _ => "bool"
  | int _ => "int"
  | float _ => "float"
  | text _ => "str"
  | bytes _ => "bytes"
  | list _ => "list"
  | tuple _ => "tuple"
  | record _ => "dict"
  | range .. => "TextRange"
  | foreign => "object"

def isNull : Value → Bool
  | null => true
  | _ => false

def isRecord : Value → Bool
  | record _ => true
  | _ => false

/-- The value is no text with a half in it. -/
def isWhole : Value → Bool
  | text (.broken ..) => false
  | _ => true

/-- A value counts as present unless it is null, false, zero or empty. -/
def isPresent : Value → Bool
  | null => false
  | bool b => b
  | int n => n != 0
  | float x => !x.isZero
  | text s => s != ""
  | bytes bs => !bs.isEmpty
  | list items => !items.isEmpty
  | tuple items => !items.isEmpty
  | record fields => !fields.isEmpty
  | range .. => true
  | foreign => true

/-- The value equals a whole number. -/
def equalsInt (n : Int) : Value → Bool
  | bool b => (if b then 1 else 0) == n
  | int m => m == n
  | float (.finite negative e f) =>
    let (num, den) := Binary64.quotient e f
    (if negative then -(num : Int) else num) == n * den
  | _ => false

mutual

/-- How a value is shown inside a list or a message that quotes it. -/
def shown : Value → String
  | null => "None"
  | bool b => if b then "True" else "False"
  | int n => toString n
  | float x => x.text
  | text s => s.quotedText
  | bytes bs => String.ofList (Text.quotedBytes bs)
  | list items => "[" ++ shownItems items ++ "]"
  | tuple [item] => "(" ++ shown item ++ ",)"
  | tuple items => "(" ++ shownItems items ++ ")"
  | record fields => "\x7b" ++ shownFields fields ++ "\x7d"
  | range location length =>
    "TextRange(location=" ++ toString location ++ ", length=" ++ toString length ++ ")"
  | foreign => "<object>"

def shownItems : List Value → String
  | [] => ""
  | [item] => shown item
  | item :: rest => shown item ++ ", " ++ shownItems rest

def shownFields : List (LooseText × Value) → String
  | [] => ""
  | [(key, value)] => key.quotedText ++ ": " ++ shown value
  | (key, value) :: rest => key.quotedText ++ ": " ++ shown value ++ ", " ++ shownFields rest

end

/-- The text of a value: a text stands for itself, anything else is shown. -/
def toText : Value → LooseText
  | text s => s
  | v => v.shown

end Value

end ActionEngine
