import ActionEngine.Secret.Aes
import ActionEngine.Secret.Base64
import ActionEngine.Secret.Sha256

/-!
# Fernet tokens

A token holds an encrypted message, the time at which it was made, and a code that
authenticates both. A key of 32 bytes is one half for the code and one half for the
encryption. Whatever was not made with the key is refused.
-/

namespace ActionEngine.Fernet

/-- A key: one half authenticates, the other one encrypts. -/
structure Key where
  signing : List UInt8
  encryption : List UInt8
deriving DecidableEq, Repr

/-- The key that a text spells: 32 bytes. -/
def Key.ofText? (s : List Char) : Option Key :=
  match Base64.decode? s with
  | some bytes =>
    if bytes.length = 32 then some ⟨bytes.take 16, bytes.drop 16⟩ else none
  | none => none

def Key.text (bytes : List UInt8) : List Char :=
  Base64.encode bytes

def version : UInt8 := 0x80

/-- The part of a token that the code covers. -/
def body (k : Key) (time : Nat) (start message : List UInt8) : List UInt8 :=
  version :: Sha256.bigEndian 8 time ++ start ++ Aes.encrypt k.encryption start message

/-- The token of a message; the start is a block of random bytes. -/
def sign (k : Key) (time : Nat) (start message : List UInt8) : List Char :=
  let body := body k time start message
  Base64.encode (body ++ Sha256.authenticate k.signing body)

/-- The message of a token, if it was made with the key. -/
def verify? (k : Key) (token : List Char) : Option (List UInt8) :=
  match Base64.decode? token with
  | none => none
  | some bytes =>
    let body := bytes.take (bytes.length - 32)
    -- The code is checked before anything is decrypted. The time is not looked at.
    if bytes.head? != some version || bytes.length < 9 then none
    else if Sha256.authenticate k.signing body != bytes.drop (bytes.length - 32) then none
    else Aes.decrypt? k.encryption ((body.drop 9).take 16) (body.drop 25)

end ActionEngine.Fernet
