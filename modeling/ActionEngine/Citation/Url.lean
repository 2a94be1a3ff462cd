import ActionEngine.Text.Encoding

/-!
# Citation URLs

A search for a citation is a URL of the citation manager's scheme. The query is
written by its UTF-8 bytes: letters, digits and the marks `_.-~` stand for
themselves, every other byte is escaped by two hexadecimal digits.
-/

namespace ActionEngine.Citation

def defaultScheme : String := "imbib"

/-- A byte that stands for itself in a query. -/
def isUnreserved (b : UInt8) : Bool :=
  let c := Char.ofNat b.toNat
  c.isAlphanum || c == '_' || c == '.' || c == '-' || c == '~'

def upperHexDigit (n : Nat) : Char :=
  if n < 10 then Char.ofNat (48 + n) else Char.ofNat (55 + n)

def percentByte (b : UInt8) : List Char :=
  if isUnreserved b then [Char.ofNat b.toNat]
  else ['%', upperHexDigit (b.toNat / 16), upperHexDigit (b.toNat % 16)]

def percentEncode (bytes : List UInt8) : List Char :=
  bytes.flatMap percentByte

def schemeOr (scheme : LooseText) : LooseText :=
  if scheme == "" then defaultScheme else scheme

/-- A scheme without blanks around it, and without colons and slashes behind it. -/
def normalScheme (scheme : LooseText) : List Text.Code :=
  ((Text.trimCodes (schemeOr scheme).codes).reverse.dropWhile fun c =>
    c == .char ':' || c == .char '/').reverse

/-- What stands behind the scheme in a URL. Without a query the URL opens the citation manager
    itself. -/
def address (query : List UInt8) : List Char :=
  if query.isEmpty then "://".toList else "://search?query=".toList ++ percentEncode query

def urlOf (scheme : LooseText) (query : List UInt8) : LooseText :=
  .ofCodes (normalScheme scheme ++ (address query).map .char)

/-- The URL of a search. There is none for a query that has no bytes in UTF-8. -/
def searchUrl (query scheme : LooseText) : Except Fault LooseText :=
  query.trim.utf8.map (urlOf scheme)

end ActionEngine.Citation
