import ActionEngine.Text.Blank
import ActionEngine.Text.Quoted

/-!
# Texts with unpaired halves

A character beyond U+FFFF is written by a pair of 16-bit units in some formats, and such a
format can also hold one half of a pair without the other. A half is no character and has no
bytes in UTF-8, but a text that was read keeps it at its place, and a text that is written
spells it by its unit. A text without halves is a string.
-/

namespace ActionEngine

/-- A half of a pair, counted from U+D800. -/
abbrev Text.Half := Fin 0x800

/-- What can stand at a place of a text. -/
inductive Text.Code where
  | char (c : Char)
  | half (h : Text.Half)
deriving DecidableEq, Repr

/-- A text that may hold halves. It is cut at each of them, so it is whole exactly if it
    holds none. -/
inductive LooseText where
  | whole (s : String)
  | broken (front : String) (half : Text.Half) (rest : LooseText)
deriving DecidableEq, Repr, Inhabited

instance : Coe String LooseText := ⟨LooseText.whole⟩

namespace Text

/-- The 16-bit unit of a half. -/
def Half.unit (h : Half) : Nat := 0xD800 + h.val

/-- The first half of a pair. -/
def Half.isHigh (h : Half) : Bool := h.val < 0x400

/-- A half by its unit. -/
def Half.escape (h : Half) : List Char :=
  '\\' :: 'u' :: hexDigits 4 h.unit

namespace Code

def toNat : Code → Nat
  | char c => c.toNat
  | half h => h.unit

def isChar : Code → Bool
  | char _ => true
  | half _ => false

def isBlank : Code → Bool
  | char c => Text.isBlank c
  | half _ => false

/-- How a code stands between the given quotes. -/
def quote (quote : Char) : Code → List Char
  | char c => quoteChar quote c
  | half h => h.escape

end Code

/-- The codes without the blanks around them. -/
def trimCodes (codes : List Code) : List Code :=
  ((codes.dropWhile Code.isBlank).reverse.dropWhile Code.isBlank).reverse

end Text

namespace LooseText

open Text

def codes : LooseText → List Code
  | whole s => s.toList.map .char
  | broken front h rest => front.toList.map .char ++ .half h :: rest.codes

/-- The text of some codes that stand behind characters, which are given in reverse. -/
def ofCodesBehind : List Char → List Code → LooseText
  | front, [] => whole (String.ofList front.reverse)
  | front, .char c :: rest => ofCodesBehind (c :: front) rest
  | front, .half h :: rest => broken (String.ofList front.reverse) h (ofCodesBehind [] rest)

def ofCodes (codes : List Code) : LooseText :=
  ofCodesBehind [] codes

/-- Texts are ordered by their codes. -/
instance : LT LooseText := ⟨fun s t => s.codes.map Code.toNat < t.codes.map Code.toNat⟩

instance (s t : LooseText) : Decidable (s < t) :=
  inferInstanceAs (Decidable (s.codes.map Code.toNat < t.codes.map Code.toNat))

/-- The text with every half by its unit, for messages. -/
def display : LooseText → String
  | whole s => s
  | broken front h rest => front ++ String.ofList h.escape ++ rest.display

/-- The text between quotes; a half is escaped as every unprintable character is. -/
def quotedText (s : LooseText) : String :=
  let quote := quoteFor (s.codes.filterMap fun
    | .char c => some c
    | .half _ => none)
  String.ofList (quote :: s.codes.flatMap (Code.quote quote) ++ [quote])

/-- The characters of a text, with a mark for every half. -/
def masked : LooseText → List Char
  | whole s => s.toList
  | broken front _ rest => front.toList ++ '?' :: rest.masked

/-- The first `n` codes of a text. -/
def take (n : Nat) (s : LooseText) : LooseText :=
  ofCodes (s.codes.take n)

def trim (s : LooseText) : LooseText :=
  ofCodes (trimCodes s.codes)

end LooseText

end ActionEngine
