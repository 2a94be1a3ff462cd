/-!
# Bytes as URL-safe text

Six bits of a row of bytes are one character of an alphabet of 64; the last group of
four characters is filled up with equals signs. A reader takes the marks of both
usual alphabets and passes over every other character.
-/

namespace ActionEngine.Base64

def digit (n : Nat) : Char :=
  if n < 26 then Char.ofNat (65 + n)
  else if n < 52 then Char.ofNat (71 + n)
  else if n < 62 then Char.ofNat (n - 4)
  else if n == 62 then '-'
  else '_'

def value? (c : Char) : Option Nat :=
  if 'A' ≤ c && c ≤ 'Z' then some (c.toNat - 65)
  else if 'a' ≤ c && c ≤ 'z' then some (c.toNat - 71)
  else if '0' ≤ c && c ≤ '9' then some (c.toNat + 4)
  else if c == '-' || c == '+' then some 62
  else if c == '_' || c == '/' then some 63
  else none

def encode : List UInt8 → List Char
  | [] => []
  | [a] => [digit (a.toNat / 4), digit (a.toNat % 4 * 16), '=', '=']
  | [a, b] =>
    [digit (a.toNat / 4), digit (a.toNat % 4 * 16 + b.toNat / 16), digit (b.toNat % 16 * 4), '=']
  | a :: b :: c :: rest =>
    digit (a.toNat / 4) :: digit (a.toNat % 4 * 16 + b.toNat / 16) ::
      digit (b.toNat % 16 * 4 + c.toNat / 64) :: digit (c.toNat % 64) :: encode rest

/-- Read on inside a group of four: how many of its characters have come, the bits of
    them that are not part of a byte yet, and the equals signs just seen. A group that
    is filled up ends the text; one that is cut short spoils it. -/
def decodeFrom (position bits signs : Nat) : List Char → Option (List UInt8)
  | [] => if position == 0 then some [] else none
  | c :: rest =>
    if c == '=' then
      -- An equals sign before the third place is passed over like any other character.
      if 2 ≤ position && 4 ≤ position + (signs + 1) then some []
      else decodeFrom position bits (if 2 ≤ position then signs + 1 else signs) rest
    else
      match value? c with
      | none => decodeFrom position bits signs rest
      | some n =>
        match position with
        | 0 => decodeFrom 1 n 0 rest
        | 1 => (decodeFrom 2 (n % 16) 0 rest).map (UInt8.ofNat (bits * 4 + n / 16) :: ·)
        | 2 => (decodeFrom 3 (n % 4) 0 rest).map (UInt8.ofNat (bits * 16 + n / 4) :: ·)
        | _ => (decodeFrom 0 0 0 rest).map (UInt8.ofNat (bits * 64 + n) :: ·)

def decode? (s : List Char) : Option (List UInt8) :=
  decodeFrom 0 0 0 s

end ActionEngine.Base64
