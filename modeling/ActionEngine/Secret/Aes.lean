/-!
# AES with keys of 128 bits

A block of sixteen bytes is encrypted in ten rounds. Each round substitutes the bytes,
rotates the rows, mixes the columns and adds a round key; each of these steps has an
inverse, and decryption takes the inverses in reverse order. Longer messages are
filled up to whole blocks, and every block is added to the encrypted one before it.
-/

namespace ActionEngine.Aes

/-- The substitution of bytes: the inverse in the field of 256 elements, followed by an
    affine map. -/
def box : List UInt8 :=
  [0x63, 0x7c, 0x77, 0x7b, 0xf2, 0x6b, 0x6f, 0xc5, 0x30, 0x01, 0x67, 0x2b, 0xfe, 0xd7, 0xab, 0x76,
   0xca, 0x82, 0xc9, 0x7d, 0xfa, 0x59, 0x47, 0xf0, 0xad, 0xd4, 0xa2, 0xaf, 0x9c, 0xa4, 0x72, 0xc0,
   0xb7, 0xfd, 0x93, 0x26, 0x36, 0x3f, 0xf7, 0xcc, 0x34, 0xa5, 0xe5, 0xf1, 0x71, 0xd8, 0x31, 0x15,
   0x04, 0xc7, 0x23, 0xc3, 0x18, 0x96, 0x05, 0x9a, 0x07, 0x12, 0x80, 0xe2, 0xeb, 0x27, 0xb2, 0x75,
   0x09, 0x83, 0x2c, 0x1a, 0x1b, 0x6e, 0x5a, 0xa0, 0x52, 0x3b, 0xd6, 0xb3, 0x29, 0xe3, 0x2f, 0x84,
   0x53, 0xd1, 0x00, 0xed, 0x20, 0xfc, 0xb1, 0x5b, 0x6a, 0xcb, 0xbe, 0x39, 0x4a, 0x4c, 0x58, 0xcf,
   0xd0, 0xef, 0xaa, 0xfb, 0x43, 0x4d, 0x33, 0x85, 0x45, 0xf9, 0x02, 0x7f, 0x50, 0x3c, 0x9f, 0xa8,
   0x51, 0xa3, 0x40, 0x8f, 0x92, 0x9d, 0x38, 0xf5, 0xbc, 0xb6, 0xda, 0x21, 0x10, 0xff, 0xf3, 0xd2,
   0xcd, 0x0c, 0x13, 0xec, 0x5f, 0x97, 0x44, 0x17, 0xc4, 0xa7, 0x7e, 0x3d, 0x64, 0x5d, 0x19, 0x73,
   0x60, 0x81, 0x4f, 0xdc, 0x22, 0x2a, 0x90, 0x88, 0x46, 0xee, 0xb8, 0x14, 0xde, 0x5e, 0x0b, 0xdb,
   0xe0, 0x32, 0x3a, 0x0a, 0x49, 0x06, 0x24, 0x5c, 0xc2, 0xd3, 0xac, 0x62, 0x91, 0x95, 0xe4, 0x79,
   0xe7, 0xc8, 0x37, 0x6d, 0x8d, 0xd5, 0x4e, 0xa9, 0x6c, 0x56, 0xf4, 0xea, 0x65, 0x7a, 0xae, 0x08,
   0xba, 0x78, 0x25, 0x2e, 0x1c, 0xa6, 0xb4, 0xc6, 0xe8, 0xdd, 0x74, 0x1f, 0x4b, 0xbd, 0x8b, 0x8a,
   0x70, 0x3e, 0xb5, 0x66, 0x48, 0x03, 0xf6, 0x0e, 0x61, 0x35, 0x57, 0xb9, 0x86, 0xc1, 0x1d, 0x9e,
   0xe1, 0xf8, 0x98, 0x11, 0x69, 0xd9, 0x8e, 0x94, 0x9b, 0x1e, 0x87, 0xe9, 0xce, 0x55, 0x28, 0xdf,
   0x8c, 0xa1, 0x89, 0x0d, 0xbf, 0xe6, 0x42, 0x68, 0x41, 0x99, 0x2d, 0x0f, 0xb0, 0x54, 0xbb, 0x16]

def substitute (b : UInt8) : UInt8 :=
  box.getD b.toNat 0

def restore (b : UInt8) : UInt8 :=
  UInt8.ofNat (box.findIdx (· == b))

def add (xs ys : List UInt8) : List UInt8 :=
  xs.zipWith (· ^^^ ·) ys

def double (b : UInt8) : UInt8 :=
  if b < 0x80 then b <<< 1 else (b <<< 1) ^^^ 0x1b

/-- A byte times a number below sixteen, given by its bits. -/
def times (eight four two one : Bool) (b : UInt8) : UInt8 :=
  -- Multiplication by a sum of powers of two is a sum of doublings.
  let two' := double b
  let four' := double two'
  let eight' := double four'
  (if eight then eight' else 0) ^^^ (if four then four' else 0) ^^^
    (if two then two' else 0) ^^^ (if one then b else 0)

def mixColumn (a b c d : UInt8) : List UInt8 :=
  [double a ^^^ (double b ^^^ b) ^^^ c ^^^ d, a ^^^ double b ^^^ (double c ^^^ c) ^^^ d,
   a ^^^ b ^^^ double c ^^^ (double d ^^^ d), (double a ^^^ a) ^^^ b ^^^ c ^^^ double d]

def unmixColumn (a b c d : UInt8) : List UInt8 :=
  let m14 := times true true true false
  let m11 := times true false true true
  let m13 := times true true false true
  let m9 := times true false false true
  [m14 a ^^^ m11 b ^^^ m13 c ^^^ m9 d, m9 a ^^^ m14 b ^^^ m11 c ^^^ m13 d,
   m13 a ^^^ m9 b ^^^ m14 c ^^^ m11 d, m11 a ^^^ m13 b ^^^ m9 c ^^^ m14 d]

/-- Carry a map of columns to all columns of a block. -/
def columns (f : UInt8 → UInt8 → UInt8 → UInt8 → List UInt8) : List UInt8 → List UInt8
  | a :: b :: c :: d :: rest => f a b c d ++ columns f rest
  | _ => []

/-- The bytes of a block, which stands column by column, in a new order. -/
def reorder (places : List Nat) (block : List UInt8) : List UInt8 :=
  places.map fun i => block.getD i 0

/-- Where each byte comes from when the rows are rotated. -/
def rotation : List Nat := [0, 5, 10, 15, 4, 9, 14, 3, 8, 13, 2, 7, 12, 1, 6, 11]

def rotationBack : List Nat := [0, 13, 10, 7, 4, 1, 14, 11, 8, 5, 2, 15, 12, 9, 6, 3]

/-! ### Round keys -/

/-- The round key behind another one, made with a constant. -/
def nextKey (constant : UInt8) (key : List UInt8) : List UInt8 :=
  -- Four words of four bytes; each one is added to the word before it.
  let last := key.drop 12
  let first := add (add (key.take 4) ((last.drop 1 ++ last.take 1).map substitute))
    [constant, 0, 0, 0]
  let second := add ((key.drop 4).take 4) first
  let third := add ((key.drop 8).take 4) second
  first ++ second ++ third ++ add last third

def keyConstants : List UInt8 := [0x01, 0x02, 0x04, 0x08, 0x10, 0x20, 0x40, 0x80, 0x1b, 0x36]

def keysFrom : List UInt8 → List UInt8 → List (List UInt8)
  | _, [] => []
  | key, constant :: rest => nextKey constant key :: keysFrom (nextKey constant key) rest

/-! ### Blocks -/

/-- The rounds of encryption: the last one mixes no columns. -/
def encryptRounds (block : List UInt8) : List (List UInt8) → List UInt8
  | [] => block
  | [key] => add (reorder rotation (block.map substitute)) key
  | key :: rest =>
    encryptRounds (add (columns mixColumn (reorder rotation (block.map substitute))) key) rest

def encryptBlock (key block : List UInt8) : List UInt8 :=
  encryptRounds (add block key) (keysFrom key keyConstants)

def decryptRounds (block : List UInt8) : List (List UInt8) → List UInt8
  | [] => block
  | [key] => (reorder rotationBack (add block key)).map restore
  -- The keys come in the order of encryption, so the last rounds are undone first.
  | key :: rest =>
    (reorder rotationBack (columns unmixColumn (add (decryptRounds block rest) key))).map restore

def decryptBlock (key block : List UInt8) : List UInt8 :=
  add (decryptRounds block (keysFrom key keyConstants)) key

/-! ### Messages -/

/-- A message filled up to whole blocks: each byte that is added tells how many they are. -/
def fill (message : List UInt8) : List UInt8 :=
  -- A message of whole blocks gets another one, so that there is always something to tell.
  let n := 16 - message.length % 16
  message ++ List.replicate n (UInt8.ofNat n)

/-- The message without the bytes that filled it up, if these are as they should be. -/
def unfill? (blocks : List UInt8) : Option (List UInt8) :=
  let n := (blocks.getLastD 0).toNat
  let message := blocks.take (blocks.length - n)
  if n = 0 || 16 < n || blocks.length < n then none
  else if blocks.drop (blocks.length - n) = List.replicate n (UInt8.ofNat n) then some message
  else none

/-- Encrypt a number of blocks, each added to the encrypted one before it. -/
def encryptChain (key previous : List UInt8) : Nat → List UInt8 → List UInt8
  | 0, _ => []
  | n + 1, message =>
    let block := encryptBlock key (add (message.take 16) previous)
    block ++ encryptChain key block n (message.drop 16)

def decryptChain (key previous : List UInt8) : Nat → List UInt8 → List UInt8
  | 0, _ => []
  | n + 1, message =>
    let block := message.take 16
    add (decryptBlock key block) previous ++ decryptChain key block n (message.drop 16)

/-- Encrypt a message under a key; the start is the block that stands before the first. -/
def encrypt (key start message : List UInt8) : List UInt8 :=
  let filled := fill message
  encryptChain key start (filled.length / 16) filled

/-- Decrypt a message of whole blocks, at least one. -/
def decrypt? (key start message : List UInt8) : Option (List UInt8) :=
  if message.length % 16 != 0 || message.isEmpty then none
  else unfill? (decryptChain key start (message.length / 16) message)

end ActionEngine.Aes
