import ActionEngine.Value
import ActionEngine.Number.Reading

/-!
# Reading JSON

A reader for one JSON document. It also takes the three words for numbers that the
format lacks. Of a repeated key the last value counts, at the place of the first.
A fault is reported with the line, the column and the index of the character at
which it was found.
-/

namespace ActionEngine.Json

inductive Problem where
  | value
  | propertyName
  | colon
  | comma
  | extraData
  | unterminated
  | controlCharacter
  | badEscape
  | badCode
  | byteOrderMark
  | longInteger (digits : Nat)
deriving DecidableEq, Repr

/-- Where reading stopped, counted in characters from the end of the document. -/
structure Stop where
  problem : Problem
  remaining : Nat
deriving DecidableEq, Repr

/-- A fault and the index of the character it was found at. -/
structure Fault where
  problem : Problem
  line : Nat
  column : Nat
  index : Nat
deriving DecidableEq, Repr

def Problem.message : Problem → String
  | value => "Expecting value"
  | propertyName => "Expecting property name enclosed in double quotes"
  | colon => "Expecting ':' delimiter"
  | comma => "Expecting ',' delimiter"
  | extraData => "Extra data"
  | unterminated => "Unterminated string starting at"
  | controlCharacter => "Invalid control character at"
  | badEscape => "Invalid \\escape"
  | badCode => "Invalid \\uXXXX escape"
  | byteOrderMark => "Unexpected UTF-8 BOM (decode using utf-8-sig)"
  | longInteger digits => Reading.tooLongMessage digits

def Fault.message (f : Fault) : String :=
  match f.problem with
  | .longInteger _ => f.problem.message
  | p => p.message ++ ": line " ++ toString f.line ++ " column " ++ toString f.column ++
      " (char " ++ toString f.index ++ ")"

def isSpace (c : Char) : Bool :=
  c == ' ' || c == '\t' || c == '\n' || c == '\r'

def skip (s : List Char) : List Char :=
  s.dropWhile isSpace

def hexValue? (c : Char) : Option Nat :=
  if '0' ≤ c && c ≤ '9' then some (c.toNat - 48)
  else if 'a' ≤ c && c ≤ 'f' then some (c.toNat - 87)
  else if 'A' ≤ c && c ≤ 'F' then some (c.toNat - 55)
  else none

/-- The code written by four hexadecimal digits. -/
def code? (a b c d : Char) : Option Nat :=
  match hexValue? a, hexValue? b, hexValue? c, hexValue? d with
  | some a, some b, some c, some d => some (((a * 16 + b) * 16 + c) * 16 + d)
  | _, _, _, _ => none

/-- The character that a letter stands for behind a backslash. -/
def escaped? : Char → Option Char
  | '"' => some '"'
  | '\\' => some '\\'
  | '/' => some '/'
  | 'b' => some '\x08'
  | 'f' => some '\x0c'
  | 'n' => some '\n'
  | 'r' => some '\r'
  | 't' => some '\t'
  | _ => none

def isHigh (n : Nat) : Bool := 0xD800 ≤ n && n < 0xDC00

def isLow (n : Nat) : Bool := 0xDC00 ≤ n && n < 0xE000

/-- What a unit stands for that makes no pair with the one behind it. -/
def codeOf (n : Nat) : Text.Code :=
  if isHigh n || isLow n then .half (Fin.ofNat 0x800 (n - 0xD800)) else .char (Char.ofNat n)

/-- Read the rest of a text behind its opening quote, at which `opened` characters
    were left. -/
def string (opened : Nat) : List Char → Except Stop (List Text.Code × List Char)
  | [] => .error ⟨.unterminated, opened⟩
  | '"' :: rest => .ok ([], rest)
  -- Two codes in a row may be the halves of one character. If they are not, only the first
  -- is taken, and the second is read again on its own.
  | '\\' :: 'u' :: a :: b :: c :: d :: '\\' :: 'u' :: a' :: b' :: c' :: d' :: e :: rest =>
    match code? a b c d with
    | none => .error ⟨.badCode, rest.length + 12⟩
    | some n =>
      if isHigh n then
        match code? a' b' c' d' with
        | none => .error ⟨.badCode, rest.length + 6⟩
        | some m =>
          if isLow m then do
            let (text, after) ← string opened (e :: rest)
            .ok (.char (Char.ofNat (0x10000 + (n - 0xD800) * 0x400 + (m - 0xDC00))) :: text, after)
          else do
            let (text, after) ← string opened ('\\' :: 'u' :: a' :: b' :: c' :: d' :: e :: rest)
            .ok (codeOf n :: text, after)
      else do
        let (text, after) ← string opened ('\\' :: 'u' :: a' :: b' :: c' :: d' :: e :: rest)
        .ok (codeOf n :: text, after)
  | '\\' :: 'u' :: a :: b :: c :: d :: e :: rest =>
    match code? a b c d with
    | none => .error ⟨.badCode, rest.length + 6⟩
    | some n => do
      let (text, after) ← string opened (e :: rest)
      .ok (codeOf n :: text, after)
  -- Too few characters are left: four digits, and at least a quote behind them.
  | '\\' :: 'u' :: rest => .error ⟨.badCode, rest.length + 1⟩
  | ['\\'] => .error ⟨.unterminated, opened⟩
  | '\\' :: c :: rest =>
    match escaped? c with
    | none => .error ⟨.badEscape, rest.length + 2⟩
    | some e => do
      let (text, after) ← string opened rest
      .ok (.char e :: text, after)
  | c :: rest =>
    if c.toNat < 0x20 then .error ⟨.controlCharacter, rest.length + 1⟩
    else do
      let (text, after) ← string opened rest
      .ok (.char c :: text, after)

/-- Take the whole part of a number: a zero, or digits that start with another one. -/
def wholePart : List Char → Option (List Char × List Char)
  | '0' :: rest => some (['0'], rest)
  | s =>
    let ds := s.takeWhile Char.isDigit
    if ds.isEmpty then none else some (ds, s.dropWhile Char.isDigit)

/-- Take a fraction, if a point and a digit follow. -/
def fractionPart : List Char → List Char × List Char
  | '.' :: rest =>
    let ds := rest.takeWhile Char.isDigit
    if ds.isEmpty then ([], '.' :: rest) else (ds, rest.dropWhile Char.isDigit)
  | s => ([], s)

/-- Take an exponent, if its mark and a digit follow. -/
def exponentPart (s : List Char) : Option Int × List Char :=
  match s with
  | c :: rest =>
    if c == 'e' || c == 'E' then
      let (negative, body) := Reading.sign rest
      let ds := body.takeWhile Char.isDigit
      -- The mark is not taken either: what follows the number is reported from there.
      if ds.isEmpty then (none, s)
      else
        let n : Int := Reading.digitsValue ds
        (some (if negative then -n else n), body.dropWhile Char.isDigit)
    else (none, s)
  | [] => (none, s)

def number (s : List Char) : Except Stop (Value × List Char) :=
  let (negative, body) := match s with
    | '-' :: rest => (true, rest)
    | _ => (false, s)
  match wholePart body with
  | none => .error ⟨.value, s.length⟩
  | some (whole, rest) =>
    let (fraction, rest) := fractionPart rest
    let (exponent, rest) := exponentPart rest
    -- Only a number in plain digits is an integer; one with an exponent is not.
    if fraction.isEmpty && exponent.isNone then
      if Reading.maxDigits < whole.length then .error ⟨.longInteger whole.length, s.length⟩
      else
        let n : Int := Reading.digitsValue whole
        .ok (.int (if negative then -n else n), rest)
    else
      .ok (.float (Binary64.ofDecimal negative (Reading.digitsValue (whole ++ fraction))
        (exponent.getD 0 - fraction.length)), rest)

mutual

/-- Read a value; the depth bounds the recursion and is chosen from the length. -/
def value : Nat → List Char → Except Stop (Value × List Char)
  | 0, s => .error ⟨.value, s.length⟩
  | depth + 1, s =>
    match s with
    | '"' :: rest => do
      let (text, after) ← string s.length rest
      .ok (.text (.ofCodes text), after)
    | '\x7b' :: rest =>
      match skip rest with
      | '\x7d' :: after => .ok (.record [], after)
      | inner => do
        let (fields, after) ← members depth inner
        .ok (.record (Fields.putAll [] fields), after)
    | '[' :: rest =>
      match skip rest with
      | ']' :: after => .ok (.list [], after)
      | inner => do
        let (xs, after) ← items depth inner
        .ok (.list xs, after)
    | 'n' :: 'u' :: 'l' :: 'l' :: rest => .ok (.null, rest)
    | 't' :: 'r' :: 'u' :: 'e' :: rest => .ok (.bool true, rest)
    | 'f' :: 'a' :: 'l' :: 's' :: 'e' :: rest => .ok (.bool false, rest)
    | 'N' :: 'a' :: 'N' :: rest => .ok (.float .nan, rest)
    | 'I' :: 'n' :: 'f' :: 'i' :: 'n' :: 'i' :: 't' :: 'y' :: rest =>
      .ok (.float (.infinite false), rest)
    | '-' :: 'I' :: 'n' :: 'f' :: 'i' :: 'n' :: 'i' :: 't' :: 'y' :: rest =>
      .ok (.float (.infinite true), rest)
    | _ => number s

def items : Nat → List Char → Except Stop (List Value × List Char)
  | 0, s => .error ⟨.value, s.length⟩
  | depth + 1, s => do
    let (v, rest) ← value depth s
    match skip rest with
    | ']' :: after => .ok ([v], after)
    | ',' :: more => do
      let (vs, after) ← items depth (skip more)
      .ok (v :: vs, after)
    | other => .error ⟨.comma, other.length⟩

def members : Nat → List Char → Except Stop (List (LooseText × Value) × List Char)
  | 0, s => .error ⟨.propertyName, s.length⟩
  | depth + 1, s =>
    match s with
    | '"' :: body => do
      let (key, rest) ← string s.length body
      match skip rest with
      | ':' :: rest => do
        let (v, rest) ← value depth (skip rest)
        match skip rest with
        | '\x7d' :: after => .ok ([(.ofCodes key, v)], after)
        | ',' :: more => do
          let (fs, after) ← members depth (skip more)
          .ok ((.ofCodes key, v) :: fs, after)
        | other => .error ⟨.comma, other.length⟩
      | other => .error ⟨.colon, other.length⟩
    | _ => .error ⟨.propertyName, s.length⟩

end

/-- Line, column and index of the place at which some characters are left. -/
def locate (s : List Char) (stop : Stop) : Fault :=
  let index := s.length - stop.remaining
  let before := s.take index
  { problem := stop.problem
    line := before.count '\n' + 1
    column := (before.reverse.takeWhile (· != '\n')).length + 1
    index }

def document (s : List Char) : Except Stop Value :=
  match s with
  | '\ufeff' :: _ => .error ⟨.byteOrderMark, s.length⟩
  | _ => do
    -- Each character opens at most a value and the items or members inside it.
    let (v, rest) ← value (2 * s.length + 2) (skip s)
    match skip rest with
    | [] => .ok v
    | other => .error ⟨.extraData, other.length⟩

/-- Read a document, or tell what is wrong with it and where. -/
def parse (s : String) : Except Fault Value :=
  (document s.toList).mapError (locate s.toList)

end ActionEngine.Json
