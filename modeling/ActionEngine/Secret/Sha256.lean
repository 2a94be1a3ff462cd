/-!
# SHA-256

The hash of a row of bytes, and the code that authenticates bytes under a key.
-/

namespace ActionEngine.Sha256

/-- The round constants: the fractional parts of the cube roots of the first 64 primes. -/
def constants : List UInt32 :=
  [0x428a2f98, 0x71374491, 0xb5c0fbcf, 0xe9b5dba5, 0x3956c25b, 0x59f111f1, 0x923f82a4, 0xab1c5ed5,
   0xd807aa98, 0x12835b01, 0x243185be, 0x550c7dc3, 0x72be5d74, 0x80deb1fe, 0x9bdc06a7, 0xc19bf174,
   0xe49b69c1, 0xefbe4786, 0x0fc19dc6, 0x240ca1cc, 0x2de92c6f, 0x4a7484aa, 0x5cb0a9dc, 0x76f988da,
   0x983e5152, 0xa831c66d, 0xb00327c8, 0xbf597fc7, 0xc6e00bf3, 0xd5a79147, 0x06ca6351, 0x14292967,
   0x27b70a85, 0x2e1b2138, 0x4d2c6dfc, 0x53380d13, 0x650a7354, 0x766a0abb, 0x81c2c92e, 0x92722c85,
   0xa2bfe8a1, 0xa81a664b, 0xc24b8b70, 0xc76c51a3, 0xd192e819, 0xd6990624, 0xf40e3585, 0x106aa070,
   0x19a4c116, 0x1e376c08, 0x2748774c, 0x34b0bcb5, 0x391c0cb3, 0x4ed8aa4a, 0x5b9cca4f, 0x682e6ff3,
   0x748f82ee, 0x78a5636f, 0x84c87814, 0x8cc70208, 0x90befffa, 0xa4506ceb, 0xbef9a3f7, 0xc67178f2]

/-- The eight words that the hash works on. -/
structure State where
  a : UInt32
  b : UInt32
  c : UInt32
  d : UInt32
  e : UInt32
  f : UInt32
  g : UInt32
  h : UInt32
deriving DecidableEq, Repr

/-- The words before the first block: the fractional parts of the square roots of the
    first eight primes. -/
def State.initial : State :=
  ⟨0x6a09e667, 0xbb67ae85, 0x3c6ef372, 0xa54ff53a, 0x510e527f, 0x9b05688c, 0x1f83d9ab, 0x5be0cd19⟩

def turn (x : UInt32) (n : UInt32) : UInt32 :=
  (x >>> n) ||| (x <<< (32 - n))

/-- One round, with a word of the message and a constant. -/
def State.round (s : State) (word constant : UInt32) : State :=
  let choice := (s.e &&& s.f) ^^^ (~~~s.e &&& s.g)
  let majority := (s.a &&& s.b) ^^^ (s.a &&& s.c) ^^^ (s.b &&& s.c)
  let t := s.h + (turn s.e 6 ^^^ turn s.e 11 ^^^ turn s.e 25) + choice + constant + word
  let u := (turn s.a 2 ^^^ turn s.a 13 ^^^ turn s.a 22) + majority
  ⟨t + u, s.a, s.b, s.c, s.d + t, s.e, s.f, s.g⟩

def State.add (s t : State) : State :=
  ⟨s.a + t.a, s.b + t.b, s.c + t.c, s.d + t.d, s.e + t.e, s.f + t.f, s.g + t.g, s.h + t.h⟩

/-- The word that follows the last sixteen ones. -/
def nextWord (ws : List UInt32) : UInt32 :=
  let w (i : Nat) : UInt32 := ws.getD i 0
  (turn (w 14) 17 ^^^ turn (w 14) 19 ^^^ (w 14 >>> 10)) + w 9 +
    (turn (w 1) 7 ^^^ turn (w 1) 18 ^^^ (w 1 >>> 3)) + w 0

/-- The given number of words: the sixteen of a block, and those that follow them. -/
def schedule : Nat → List UInt32 → List UInt32
  | 0, _ => []
  | n + 1, ws => ws.headD 0 :: schedule n (ws.tail ++ [nextWord ws])

def State.block (s : State) (words : List UInt32) : State :=
  s.add (((schedule 64 words).zip constants).foldl (fun t w => t.round w.1 w.2) s)

/-- Bytes as words, the high byte first. -/
def words : List UInt8 → List UInt32
  | a :: b :: c :: d :: rest =>
    ((a.toUInt32 <<< 24) ||| (b.toUInt32 <<< 16) ||| (c.toUInt32 <<< 8) ||| d.toUInt32) ::
      words rest
  | _ => []

/-- A number as bytes, the high byte first. -/
def bigEndian : Nat → Nat → List UInt8
  | 0, _ => []
  | width + 1, n => bigEndian width (n / 256) ++ [UInt8.ofNat (n % 256)]

/-- A message filled up to whole blocks of 64 bytes: a one bit, zeros, and its length in
    bits. -/
def padded (message : List UInt8) : List UInt8 :=
  -- Eight bytes are kept for the length: 119 is twice 64 less these and the marker.
  message ++ 0x80 :: List.replicate ((119 - message.length % 64) % 64) 0 ++
    bigEndian 8 (8 * message.length)

def State.blocks (s : State) : Nat → List UInt32 → State
  | 0, _ => s
  | n + 1, ws => (s.block (ws.take 16)).blocks n (ws.drop 16)

def hash (message : List UInt8) : List UInt8 :=
  let ws := words (padded message)
  let s := State.initial.blocks (ws.length / 16) ws
  [s.a, s.b, s.c, s.d, s.e, s.f, s.g, s.h].flatMap fun w => bigEndian 4 w.toNat

/-- A key of at most 64 bytes, filled up with zeros and masked. -/
def maskedKey (mask : UInt8) (key : List UInt8) : List UInt8 :=
  (key ++ List.replicate (64 - key.length) 0).map (· ^^^ mask)

/-- The code that authenticates a message under a key of at most 64 bytes. -/
def authenticate (key message : List UInt8) : List UInt8 :=
  hash (maskedKey 0x5c key ++ hash (maskedKey 0x36 key ++ message))

end ActionEngine.Sha256
