/-!
# Texts as bytes

The UTF-8 form of a text and its reader. The reader names the first fault: which
bytes it covers, and whether they start no character, break one off with a wrong
byte, or end too early.
-/

namespace ActionEngine.Text

inductive Utf8Fault.Reason where
  | badStart
  | badContinuation
  | tooShort
deriving DecidableEq, Repr

/-- The first fault of a byte sequence: the bytes from `start` up to, but not
    including, `stop`, of which `first` is the first. -/
structure Utf8Fault where
  first : UInt8
  start : Nat
  stop : Nat
  reason : Utf8Fault.Reason
deriving DecidableEq, Repr

def utf8Char (c : Char) : List UInt8 :=
  let n := c.toNat
  if n < 0x80 then [UInt8.ofNat n]
  else if n < 0x800 then [UInt8.ofNat (0xC0 + n / 0x40), UInt8.ofNat (0x80 + n % 0x40)]
  else if n < 0x10000 then
    [UInt8.ofNat (0xE0 + n / 0x1000), UInt8.ofNat (0x80 + n / 0x40 % 0x40),
     UInt8.ofNat (0x80 + n % 0x40)]
  else
    [UInt8.ofNat (0xF0 + n / 0x40000), UInt8.ofNat (0x80 + n / 0x1000 % 0x40),
     UInt8.ofNat (0x80 + n / 0x40 % 0x40), UInt8.ofNat (0x80 + n % 0x40)]

def utf8Encode (s : List Char) : List UInt8 :=
  s.flatMap utf8Char

/-- How many bytes a first byte calls for, and the bounds of the second one; the
    bounds keep out overlong forms, surrogates and codes beyond U+10FFFF. -/
def utf8Lead (b : Nat) : Option (Nat × Nat × Nat) :=
  if 0xC2 ≤ b && b ≤ 0xDF then some (2, 0x80, 0xBF)
  else if b == 0xE0 then some (3, 0xA0, 0xBF)
  else if b == 0xED then some (3, 0x80, 0x9F)
  else if 0xE1 ≤ b && b ≤ 0xEF then some (3, 0x80, 0xBF)
  else if b == 0xF0 then some (4, 0x90, 0xBF)
  else if 0xF1 ≤ b && b ≤ 0xF3 then some (4, 0x80, 0xBF)
  else if b == 0xF4 then some (4, 0x80, 0x8F)
  else none

def isContinuation (b : UInt8) : Bool :=
  0x80 ≤ b.toNat && b.toNat ≤ 0xBF

/-- Read UTF-8; `start` is the position of the first byte. -/
def utf8From (start : Nat) : List UInt8 → Except Utf8Fault (List Char)
  | [] => .ok []
  | b :: rest =>
    if b.toNat < 0x80 then
      (utf8From (start + 1) rest).map (Char.ofNat b.toNat :: ·)
    else
      match utf8Lead b.toNat with
      | none => .error ⟨b, start, start + 1, .badStart⟩
      | some (size, low, high) =>
        match rest with
        | [] => .error ⟨b, start, start + 1, .tooShort⟩
        | b₂ :: rest₂ =>
          if b₂.toNat < low || high < b₂.toNat then .error ⟨b, start, start + 1, .badContinuation⟩
          else if size == 2 then
            (utf8From (start + 2) rest₂).map
              (Char.ofNat ((b.toNat - 0xC0) * 0x40 + (b₂.toNat - 0x80)) :: ·)
          else
            match rest₂ with
            | [] => .error ⟨b, start, start + 2, .tooShort⟩
            | b₃ :: rest₃ =>
              if !isContinuation b₃ then .error ⟨b, start, start + 2, .badContinuation⟩
              else if size == 3 then
                (utf8From (start + 3) rest₃).map
                  (Char.ofNat ((b.toNat - 0xE0) * 0x1000 + (b₂.toNat - 0x80) * 0x40
                    + (b₃.toNat - 0x80)) :: ·)
              else
                match rest₃ with
                | [] => .error ⟨b, start, start + 3, .tooShort⟩
                | b₄ :: rest₄ =>
                  if !isContinuation b₄ then .error ⟨b, start, start + 3, .badContinuation⟩
                  else
                    (utf8From (start + 4) rest₄).map
                      (Char.ofNat ((b.toNat - 0xF0) * 0x40000 + (b₂.toNat - 0x80) * 0x1000
                        + (b₃.toNat - 0x80) * 0x40 + (b₄.toNat - 0x80)) :: ·)

def utf8Decode (bytes : List UInt8) : Except Utf8Fault (List Char) :=
  utf8From 0 bytes

end ActionEngine.Text
