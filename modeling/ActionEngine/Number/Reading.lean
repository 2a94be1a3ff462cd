import ActionEngine.Number.Binary64
import ActionEngine.Text.Blank
import ActionEngine.Text.DecimalDigit

/-!
# Numbers read from text

A number may stand between blanks, carry a sign, use the decimal digits of any
script, and have a single underscore between two digits. An integer of more than
4300 digits is refused.
-/

namespace ActionEngine.Reading

inductive IntegerFault where
  | malformed
  | tooLong (digits : Nat)
deriving DecidableEq, Repr

/-- The most digits an integer may be written with. -/
def maxDigits : Nat := 4300

def tooLongMessage (digits : Nat) : String :=
  "Exceeds the limit (" ++ toString maxDigits ++
    " digits) for integer string conversion: value has " ++ toString digits ++
    " digits; use sys.set_int_max_str_digits() to increase the limit"

/-- The ASCII form of a character of a number: a digit of another script becomes the
    ASCII digit, and a blank outside ASCII a space. -/
def plain (c : Char) : Char :=
  if c.toNat < 127 then c
  else if Text.isBlank c then ' '
  else match Text.digitValue? c with
    | some d => Char.ofNat (48 + d)
    | none => '?'

/-- The blanks that may stand around a number once it is in ASCII form. -/
def isPadding (c : Char) : Bool :=
  c == ' ' || c == '\t' || c == '\n' || c == '\r' || c == '\x0b' || c == '\x0c'

/-- The characters of a number in ASCII form, without the blanks around it. -/
def core (s : List Char) : List Char :=
  (((s.map plain).dropWhile isPadding).reverse.dropWhile isPadding).reverse

/-- Take a sign off; `true` stands for a minus. -/
def sign : List Char → Bool × List Char
  | '-' :: rest => (true, rest)
  | '+' :: rest => (false, rest)
  | s => (false, s)

/-- An underscore stands only between two digits. -/
def underscoresFit : Option Char → List Char → Bool
  | previous, [] => previous != some '_'
  | previous, c :: rest =>
    (if c == '_' then previous.any Char.isDigit
     else previous != some '_' || c.isDigit) && underscoresFit (some c) rest

def digitsValue (ds : List Char) : Nat :=
  ds.foldl (fun n d => 10 * n + (d.toNat - 48)) 0

def integer (s : List Char) : Except IntegerFault Int :=
  let (negative, body) := sign (core s)
  let run := body.takeWhile fun c => c.isDigit || c == '_'
  let digits := run.filter Char.isDigit
  if digits.isEmpty || !underscoresFit none run then .error .malformed
  -- The digits are counted before what follows them is looked at.
  else if maxDigits < digits.length then .error (.tooLong digits.length)
  else if !(body.drop run.length).isEmpty then .error .malformed
  else
    let n := digitsValue digits
    .ok (if negative then -n else n)

/-- The exponent part of a decimal, which must be the whole of the text. -/
def exponent : List Char → Option Int
  | [] => some 0
  | c :: rest =>
    if c == 'e' || c == 'E' then
      let (negative, ds) := sign rest
      if ds.isEmpty || !ds.all Char.isDigit then none
      else some (if negative then -(digitsValue ds : Int) else digitsValue ds)
    else none

/-- Read digits, an optional fraction and an optional exponent. -/
def decimal (negative : Bool) (s : List Char) : Option Binary64 :=
  let whole := s.takeWhile Char.isDigit
  let rest := s.dropWhile Char.isDigit
  let (fraction, rest) := match rest with
    | '.' :: more => (more.takeWhile Char.isDigit, more.dropWhile Char.isDigit)
    | _ => ([], rest)
  if whole.isEmpty && fraction.isEmpty then none
  else (exponent rest).map fun e =>
    -- The point is moved behind the last digit.
    Binary64.ofDecimal negative (digitsValue (whole ++ fraction)) (e - fraction.length)

/-- Read a floating-point number: a decimal, an infinity or not-a-number. -/
def float? (s : List Char) : Option Binary64 :=
  let body := core s
  if body.contains '_' && !underscoresFit none body then none
  else
    let (negative, body) := sign (body.filter (· != '_'))
    let word := String.ofList (body.map Char.toLower)
    if word == "inf" || word == "infinity" then some (.infinite negative)
    else if word == "nan" then some .nan
    else decimal negative body

end ActionEngine.Reading
