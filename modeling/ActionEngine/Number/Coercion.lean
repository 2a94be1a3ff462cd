import ActionEngine.Fault
import ActionEngine.Number.Reading

/-!
# Values as numbers

A value is converted to a whole number or to a floating-point number where one is needed.
A text counts as the number that it spells. A half of a character is no part of a number.
-/

namespace ActionEngine

/-- The first `n` characters of a text. -/
def clip (n : Nat) (s : String) : String :=
  String.ofList (s.toList.take n)

/-- Read a whole number that a value spells; the fault shows the value. -/
def readInteger (v : Value) (s : List Char) : Except Fault Int :=
  match Reading.integer s with
  | .ok n => .ok n
  | .error .malformed =>
    .error (.value ("invalid literal for int() with base 10: " ++ clip 200 v.shown))
  | .error (.tooLong digits) => .error (.value (Reading.tooLongMessage digits))

/-- Bytes as ASCII characters, with a mark for all others. -/
def asciiOr (mark : Char) (bs : List UInt8) : List Char :=
  bs.map fun b => if b.toNat < 0x80 then Char.ofNat b.toNat else mark

/-- Convert a value to a whole number: numbers lose their fraction, texts and bytes
    are read as integers. -/
def Value.toInt : Value → Except Fault Int
  | .int n => .ok n
  | .bool b => .ok (if b then 1 else 0)
  | .float .nan => .error (.value "cannot convert float NaN to integer")
  | .float (.infinite _) =>
    .error (.system .overflow (some "cannot convert float infinity to integer"))
  | .float (.finite negative e f) => .ok (Binary64.truncate negative e f)
  | .text s => readInteger (.text s) s.masked
  | .bytes bs => readInteger (.bytes bs) (asciiOr '?' bs)
  | other => .error (.wrongKind
      ("int() argument must be a string, a bytes-like object or a real number, not '"
        ++ other.kind ++ "'"))

/-- Read a decimal that a value spells; the fault shows the value. -/
def readDecimal (v : Value) (s : List Char) : Except Fault Binary64 :=
  match Reading.float? s with
  | some x => .ok x
  | none => .error (.value ("could not convert string to float: " ++ v.shown))

/-- Convert a value to a floating-point number: texts and bytes are read as decimals. -/
def Value.toFloat : Value → Except Fault Binary64
  | .float x => .ok x
  | .bool b => .ok ((Binary64.ofInt? (if b then 1 else 0)).getD .nan)
  | .int n => match Binary64.ofInt? n with
    | some x => .ok x
    | none => .error (.system .overflow (some "int too large to convert to float"))
  | .text s => readDecimal (.text s) s.masked
  | .bytes bs => readDecimal (.bytes bs) (asciiOr '?' bs)
  | other => .error (.wrongKind
      ("float() argument must be a string or a real number, not '" ++ other.kind ++ "'"))

end ActionEngine
