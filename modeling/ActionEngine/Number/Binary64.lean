/-!
# Binary floating-point numbers

The 64-bit binary format as an inductive type: each of its values has exactly one
form, so equality is decided by structure (there is one not-a-number). A decimal or
a quotient is read by rounding its exact value once, to the nearest number of the
format, and to the one with an even significand when two are equally near.
-/

namespace ActionEngine

/-- A number of the 64-bit binary format. A finite one has a sign, an exponent and
    a fraction; the exponent 0 marks the numbers without a leading one. -/
inductive Binary64 where
  | nan
  | infinite (negative : Bool)
  | finite (negative : Bool) (exponent : Fin 2047) (fraction : Fin (Nat.pow 2 52))
deriving DecidableEq, Repr

namespace Binary64

instance : Inhabited Binary64 := ⟨.nan⟩

def zero (negative : Bool) : Binary64 :=
  .finite negative 0 0

/-- The significand of a finite number: it is worth `significand * 2 ^ scale`. -/
def significand (exponent : Fin 2047) (fraction : Fin (Nat.pow 2 52)) : Nat :=
  if exponent.val = 0 then fraction.val else Nat.pow 2 52 + fraction.val

/-- The power of two that the significand is multiplied by. -/
def scale (exponent : Fin 2047) : Int :=
  (max exponent.val 1 : Nat) - 1075

/-- The quotient rounded to the nearest whole number, a half to the even one. -/
def roundQuotient (num den : Nat) : Nat :=
  let q := num / den
  let r := num % den
  -- The remainder is compared with half the denominator without dividing it.
  if 2 * r < den then q
  else if den < 2 * r then q + 1
  else if q % 2 = 0 then q else q + 1

/-- The whole part of the binary logarithm of a positive quotient. -/
def logQuotient (num den : Nat) : Int :=
  -- The difference of the two logarithms is at most one too high.
  let k : Int := (num.log2 : Int) - (den.log2 : Int)
  if den * Nat.pow 2 k.toNat ≤ num * Nat.pow 2 (-k).toNat then k else k - 1

/-- The number worth `m * 2 ^ q`, for a significand of at most 53 bits that has all
    53 of them unless `q` is the least scale. -/
def assemble (negative : Bool) (m : Nat) (q : Int) : Binary64 :=
  if h : m < Nat.pow 2 52 then .finite negative 0 ⟨m, h⟩
  -- Rounding up may carry into a bit more than there are.
  else if m = Nat.pow 2 53 then
    if h : (q + 1076).toNat < 2047 then .finite negative ⟨(q + 1076).toNat, h⟩ 0
    else .infinite negative
  else if h : (q + 1075).toNat < 2047 ∧ m - Nat.pow 2 52 < Nat.pow 2 52 then
    .finite negative ⟨(q + 1075).toNat, h.1⟩ ⟨m - Nat.pow 2 52, h.2⟩
  else .infinite negative

/-- The number nearest to a quotient. -/
def ofQuotient (negative : Bool) (num den : Nat) : Binary64 :=
  if num = 0 then zero negative
  else
    -- With this scale the quotient has 53 bits before the point, or fewer at the least one.
    let q := max (logQuotient num den - 52) (-1074)
    assemble negative
      (roundQuotient (num * Nat.pow 2 (-q).toNat) (den * Nat.pow 2 q.toNat)) q

/-- The number nearest to `digits * 10 ^ exponent`. Exponents far outside the range
    of the format are settled without computing the power. -/
def ofDecimal (negative : Bool) (digits : Nat) (exponent : Int) : Binary64 :=
  if digits = 0 then zero negative
  else if 400 < exponent then .infinite negative
  else if (digits.log2 : Int) + 3 * exponent < -1100 then zero negative
  else ofQuotient negative (digits * Nat.pow 10 exponent.toNat) (Nat.pow 10 (-exponent).toNat)

def ofInt? (n : Int) : Option Binary64 :=
  -- An integer beyond the format is not taken for an infinity.
  match ofQuotient (n < 0) n.natAbs 1 with
  | .infinite _ => none
  | x => some x

/-- Numerator and denominator of the size of a finite number. -/
def quotient (exponent : Fin 2047) (fraction : Fin (Nat.pow 2 52)) : Nat × Nat :=
  let m := significand exponent fraction
  let q := scale exponent
  (m * Nat.pow 2 q.toNat, Nat.pow 2 (-q).toNat)

def truncate (negative : Bool) (exponent : Fin 2047) (fraction : Fin (Nat.pow 2 52)) : Int :=
  let (num, den) := quotient exponent fraction
  if negative then -(num / den : Nat) else (num / den : Nat)

def isZero : Binary64 → Bool
  | .finite _ e f => e.val == 0 && f.val == 0
  | _ => false

/-- The numerical order of finite numbers and the infinities; not-a-number is below
    nothing and nothing is below it. -/
def less : Binary64 → Binary64 → Bool
  | .nan, _ => false
  | _, .nan => false
  | .infinite n, .infinite m => n && !m
  | .infinite n, .finite .. => n
  | .finite .., .infinite m => !m
  | .finite n e f, .finite m e' f' =>
    let size : Nat × Nat := quotient e f
    let size' : Nat × Nat := quotient e' f'
    let left : Int := if n then -(size.1 : Int) else size.1
    let right : Int := if m then -(size'.1 : Int) else size'.1
    -- Both denominators are positive.
    left * size'.2 < right * size.2

/-- The number multiplied by a power of two, rounded once. -/
def timesPower (k : Nat) : Binary64 → Binary64
  | .finite n e f =>
    let (num, den) := quotient e f
    ofQuotient n (num * Nat.pow 2 k) den
  | x => x

end Binary64

end ActionEngine
