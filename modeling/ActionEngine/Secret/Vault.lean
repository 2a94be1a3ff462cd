import ActionEngine.Disk.Tree
import ActionEngine.Log
import ActionEngine.Secret.Entropy
import ActionEngine.Secret.Fernet
import ActionEngine.Text.Encoding

/-!
# The vault

The vault encrypts the API key for the settings file. Its own key stands in a file
beside the settings, which is made when it is needed for the first time. An encrypted
secret names the vault's scheme in front of a colon; one without a colon counts as
belonging to that scheme.
-/

namespace ActionEngine

/-- What settings are kept with: the disk, random bytes, the vault's key once it is
    known, and the log. -/
structure Shelf where
  disk : Disk := {}
  entropy : Entropy := {}
  key : Option Fernet.Key := none
  log : Log := []
deriving Repr

/-- A step that works with a shelf. What it has done remains done if it fails. -/
abbrev Keeping (α : Type) := ExceptT Fault (StateM Shelf) α

namespace Keeping

/-- A step that looks at the disk. -/
def look {α : Type} (f : Disk → Except Fault α) : Keeping α := do
  f (← get).disk

/-- A step that changes the disk. -/
def alter (f : Disk → Except Fault Disk) : Keeping Unit := do
  let disk ← f (← get).disk
  modify fun s => { s with disk }

def remark (log : Log) : Keeping Unit :=
  modify fun s => { s with log := s.log ++ log }

def draw : Keeping (List UInt8) :=
  modifyGet fun s => let (bytes, entropy) := s.entropy.draw; (bytes, { s with entropy })

end Keeping

namespace Vault

open Keeping

def scheme : String := "fernet"

/-- Bytes without the ASCII blanks around them. -/
def trimBytes (bytes : List UInt8) : List UInt8 :=
  let blank (b : UInt8) : Bool := b == 32 || (9 ≤ b && b ≤ 13)
  ((bytes.dropWhile blank).reverse.dropWhile blank).reverse

/-- A file is written beside its place first, and then moved there. -/
def replaceFile (path : Path) (content : List UInt8) : Keeping Unit := do
  let draft ← path.withSuffix ".tmp"
  alter fun d => d.write draft content
  alter fun d => d.move draft path

/-- The content of the key file, which is made if there is none. -/
def keyText (keyPath : Path) : Keeping (List Char) := do
  alter fun d => d.ensureDirectory keyPath.parent
  if ← look fun d => d.has keyPath then
    let bytes ← look fun d => d.read keyPath
    pure ((trimBytes bytes).map fun b => Char.ofNat b.toNat)
  else
    let text := Fernet.Key.text (← draw)
    replaceFile keyPath (Text.utf8Encode text)
    pure text

/-- The vault's key: once it is known, the key file is not read again. -/
def unlock (keyPath : Path) : Keeping Fernet.Key := do
  match (← get).key with
  | some key => pure key
  | none =>
    match Fernet.Key.ofText? (← keyText keyPath) with
    | some key =>
      -- Only a key that could be read is remembered.
      modify fun s => { s with key := some key }
      pure key
    | none => throw (.value "Fernet key must be 32 url-safe base64-encoded bytes.")

/-- Encrypt a secret; there is nothing to encrypt if it is empty. -/
def encrypt (keyPath : Path) (secret : Value) : Keeping String := do
  if !secret.isPresent then return ""
  let key ← unlock keyPath
  match secret with
  | .text s =>
    let bytes ← s.utf8
    let token := Fernet.sign key (← get).entropy.time ((← draw).take 16) bytes
    return scheme ++ ":" ++ String.ofList token
  | other => throw (.system .member
      (some ("'" ++ other.kind ++ "' object has no attribute 'encode'")))

/-- The scheme and the token of an encrypted secret. -/
def parts (s : List Text.Code) : List Text.Code × List Text.Code :=
  match s.dropWhile (· != .char ':') with
  -- A colon with nothing behind it names no scheme.
  | _ :: c :: token => (s.takeWhile (· != .char ':'), c :: token)
  | _ => (scheme.toList.map .char, s)

/-- Decrypt an encrypted secret; an empty one stands for none. -/
def decrypt (keyPath : Path) (secret : Value) : Keeping String := do
  if !secret.isPresent then return ""
  match secret with
  | .text s =>
    let (named, token) := parts s.codes
    if named != scheme.toList.map .char then
      throw (.value ("Unsupported secret backend '" ++ (LooseText.ofCodes named).display ++ "'"))
    -- The key comes first: a key file is made even for a token that turns out unreadable.
    let key ← unlock keyPath
    match (Fernet.verify? key (← Text.ascii token)).map Text.utf8Decode with
    | some (.ok text) => return String.ofList text
    | some (.error fault) => throw (Disk.undecodable fault)
    | none => throw (.value "Invalid Fernet token")
  | .bytes _ => throw (.wrongKind "a bytes-like object is required, not 'str'")
  | other => throw (.system .member
      (some ("'" ++ other.kind ++ "' object has no attribute 'partition'")))

end Vault

end ActionEngine
