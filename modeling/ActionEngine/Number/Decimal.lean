import ActionEngine.Number.Binary64

/-!
# The decimal text of a number

A floating-point number is written with the fewest digits that read back to it, and
of two such decimals the nearer one. It stands in positional notation when the
exponent of its first digit lies between -4 and 15, otherwise with an explicit
exponent of at least two digits and a sign.
-/

namespace ActionEngine.Binary64

/-- The least `k` for which the quotient is below `10 ^ k`; one of three candidates
    around an estimate from the binary logarithm. -/
def decimalExponent (num den : Nat) : Int :=
  -- The factor is the decimal logarithm of two, to five digits.
  let guess := logQuotient num den * 30103 / 100000 + 1
  let below (k : Int) : Bool := num * Nat.pow 10 (-k).toNat < den * Nat.pow 10 k.toNat
  if below (guess - 1) then guess - 1 else if below guess then guess else guess + 1

/-- The decimals of `n` digits next to the size of a number, below and above it, that
    read back to it; of two the nearer one, and the even one if both are equally near. -/
def decimalOf (exponent : Fin 2047) (fraction : Fin (Nat.pow 2 52)) (point : Int) (n : Nat) :
    Option (Nat × Int) :=
  let (num, den) := quotient exponent fraction
  let grid := point - n
  let top := num * Nat.pow 10 (-grid).toNat
  let bottom := den * Nat.pow 10 grid.toNat
  let low := top / bottom
  let rest := top % bottom
  let hit (d : Nat) : Bool := ofDecimal false d grid == .finite false exponent fraction
  -- No other decimal of this length can be nearer than these two.
  match hit low, hit (low + 1) with
  | false, false => none
  | true, false => some (low, grid)
  | false, true => some (low + 1, grid)
  | true, true =>
    if 2 * rest < bottom then some (low, grid)
    else if bottom < 2 * rest then some (low + 1, grid)
    else if low % 2 = 0 then some (low, grid) else some (low + 1, grid)

/-- The shortest decimal that reads back to a number other than zero; beyond
    seventeen digits its exact value. -/
def shortest (exponent : Fin 2047) (fraction : Fin (Nat.pow 2 52)) : Nat × Int :=
  let (num, den) := quotient exponent fraction
  let point := decimalExponent num den
  match (List.range 17).findSome? fun n => decimalOf exponent fraction point (n + 1) with
  | some d => d
  | none =>
    -- Seventeen digits always suffice; this branch only makes the function total.
    let q := scale exponent
    if 0 ≤ q then (num, 0) else (significand exponent fraction * Nat.pow 5 (-q).toNat, q)

/-- The digits of a decimal without trailing zeros, and the exponent of the first. -/
def leadingDigits (digits : Nat) (exponent : Int) : List Char × Int :=
  let all := (Nat.repr digits).toList
  ((all.reverse.dropWhile (· == '0')).reverse, exponent + all.length - 1)

/-- Lay out digits whose first one has the given decimal exponent. -/
def layout (digits : List Char) (exponent : Int) : List Char :=
  if -4 ≤ exponent && exponent < 16 then
    if exponent < 0 then
      '0' :: '.' :: List.replicate (-exponent - 1).toNat '0' ++ digits
    else
      let whole := exponent.toNat + 1
      let after := digits.drop whole
      digits.take whole ++ List.replicate (whole - digits.length) '0' ++
        '.' :: (if after.isEmpty then ['0'] else after)
  else
    let size := (Nat.repr exponent.natAbs).toList
    let tail := match digits.drop 1 with
      | [] => []
      | more => '.' :: more
    digits.take 1 ++ tail ++ 'e' :: (if exponent < 0 then '-' else '+') ::
      (if size.length < 2 then '0' :: size else size)

def text : Binary64 → String
  | .nan => "nan"
  | .infinite negative => if negative then "-inf" else "inf"
  | .finite negative exponent fraction =>
    let body :=
      if exponent.val = 0 ∧ fraction.val = 0 then ['0', '.', '0']
      else
        let (digits, power) := shortest exponent fraction
        let (digits, lead) := leadingDigits digits power
        layout digits lead
    String.ofList (if negative then '-' :: body else body)

end ActionEngine.Binary64
