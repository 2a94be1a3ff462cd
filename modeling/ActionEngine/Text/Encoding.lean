import ActionEngine.Fault
import ActionEngine.Text.Utf8

/-!
# Encoding texts

A text has bytes in UTF-8 if it is whole, and ASCII characters if it holds no others. A text
that cannot be encoded is refused, and the fault names the first codes that are in the way.
-/

namespace ActionEngine

/-- A character or a half between quotes by its code, in as many digits as it needs. -/
def Text.quotedCode (c : Text.Code) : String :=
  let n := c.toNat
  let digits : List Char :=
    if n < 0x100 then 'x' :: Text.hexDigits 2 n
    else if n < 0x10000 then 'u' :: Text.hexDigits 4 n
    else 'U' :: Text.hexDigits 8 n
  "'\\" ++ String.ofList digits ++ "'"

/-- The fault of a codec that does not take all codes of a text. It is about the first row of
    codes that are not taken. -/
def Fault.unencodable (codec reason : String) (takes : Text.Code → Bool)
    (codes : List Text.Code) : Fault :=
  let start := (codes.takeWhile takes).length
  let row := (codes.drop start).takeWhile fun c => !takes c
  let place := match row with
    | [c] => "character " ++ Text.quotedCode c ++ " in position " ++ toString start
    | _ => "characters in position " ++ toString start ++ "-" ++ toString (start + row.length - 1)
  .system .unencodable (some ("'" ++ codec ++ "' codec can't encode " ++ place ++ ": " ++ reason))

/-- The bytes of a text in UTF-8. -/
def LooseText.utf8 : LooseText → Except Fault (List UInt8)
  | whole s => .ok (Text.utf8Encode s.toList)
  | s => .error (.unencodable "utf-8" "surrogates not allowed" Text.Code.isChar s.codes)

def Text.Code.ascii? : Text.Code → Option Char
  | char c => if c.toNat < 128 then some c else none
  | half _ => none

/-- The characters of a text in ASCII. -/
def Text.ascii (codes : List Text.Code) : Except Fault (List Char) :=
  match codes.mapM Text.Code.ascii? with
  | some characters => .ok characters
  | none => .error (.unencodable "ascii" "ordinal not in range(128)" (fun c => c.ascii?.isSome)
      codes)

end ActionEngine
