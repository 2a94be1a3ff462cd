import ActionEngine.Secret.Sha256

/-!
# Random bytes

Keys and encrypted messages need random bytes and the time. Both come from outside:
the bytes are drawn from a random seed by hashing it together with a count.
-/

namespace ActionEngine

/-- A source of random bytes, and the time in seconds. -/
structure Entropy where
  seed : List UInt8 := []
  drawn : Nat := 0
  time : Nat := 0
deriving DecidableEq, Repr, Inhabited

def Entropy.draw (e : Entropy) : List UInt8 × Entropy :=
  (Sha256.hash (e.seed ++ Sha256.bigEndian 8 e.drawn), { e with drawn := e.drawn + 1 })

end ActionEngine
