import ActionEngine.Number.Decimal
import ActionEngine.Number.Reading
import ActionEngine.Proofs.Number.Rounding

/-!
# The text of a number reads back to it

The decimal that is chosen for a number rounds to the number, and laying its digits out
with a point and an exponent does not change what they are worth.
-/

namespace ActionEngine

/-! ### Digits -/

namespace Reading

theorem digitsValue_eq (ds : List Char) : digitsValue ds = Nat.ofDigitChars 10 ds 0 := by
  rw [Nat.ofDigitChars_eq_foldl]
  rfl

theorem digitsValue_append (ds more : List Char) :
    digitsValue (ds ++ more) = digitsValue ds * 10 ^ more.length + digitsValue more := by
  rw [digitsValue_eq, Nat.ofDigitChars_append, Nat.ofDigitChars_eq_ofDigitChars_zero, Nat.mul_comm,
    ← digitsValue_eq, ← digitsValue_eq]

theorem digitsValue_zeros (n : Nat) : digitsValue (List.replicate n '0') = 0 := by
  rw [digitsValue_eq, Nat.ofDigitChars_replicate_zero, Nat.mul_zero]

theorem digitsValue_toDigits (n : Nat) : digitsValue (Nat.toDigits 10 n) = n := by
  rw [digitsValue_eq, Nat.ofDigitChars_ten_toDigits]

theorem isDigit_toDigits (n : Nat) : ∀ c ∈ Nat.toDigits 10 n, c.isDigit :=
  fun _ h => Nat.isDigit_of_mem_toDigits (by decide) (by decide) h

theorem head?_toDigits (n : Nat) (positive : 0 < n) : (Nat.toDigits 10 n).head? ≠ some '0' := by
  induction n using Nat.strongRecOn with
  | ind n ih =>
      by_cases small : n < 10
      · rw [Nat.toDigits_of_lt_base small]
        simpa using positive.ne'
      · have front := ih (n / 10) (by omega) (by omega)
        rw [Nat.toDigits_of_base_le (by decide) (by omega), List.head?_append]
        cases first : (Nat.toDigits 10 (n / 10)).head? with
        | none => exact absurd (List.head?_eq_none_iff.1 first) Nat.toDigits_ne_nil
        | some c => rwa [first] at front

end Reading

open Reading

/-! ### Numerals -/

/-- A number in decimal notation: the digits before the point and behind it, and those of
    an exponent with its sign. -/
structure Numeral where
  whole : List Char
  fraction : List Char := []
  down : Bool := false
  exponent : List Char := []

namespace Numeral

def chars (n : Numeral) : List Char :=
  n.whole ++ (if n.fraction = [] then [] else '.' :: n.fraction) ++
    (if n.exponent = [] then [] else 'e' :: (if n.down then '-' else '+') :: n.exponent)

def digits (n : Numeral) : Nat :=
  digitsValue (n.whole ++ n.fraction)

def power (n : Numeral) : Int :=
  (if n.down then -(digitsValue n.exponent : Int) else digitsValue n.exponent) - n.fraction.length

def worth (n : Numeral) : ℚ :=
  n.digits * 10 ^ n.power

/-- The parts hold digits only, and the first digit is no zero unless it is the only one
    before the point. -/
structure IsProper (n : Numeral) : Prop where
  first : n.whole = ['0'] ∨ n.whole ≠ [] ∧ n.whole.head? ≠ some '0'
  whole : ∀ c ∈ n.whole, c.isDigit
  fraction : ∀ c ∈ n.fraction, c.isDigit
  exponent : ∀ c ∈ n.exponent, c.isDigit

/-- The numeral of a whole number. -/
def ofNat (n : Nat) : Numeral where
  whole := Nat.toDigits 10 n

theorem isProper_ofNat (n : Nat) : (ofNat n).IsProper where
  first := by
    rcases Nat.eq_zero_or_pos n with rfl | positive
    · exact .inl rfl
    · exact .inr ⟨Nat.toDigits_ne_nil, head?_toDigits n positive⟩
  whole := isDigit_toDigits n
  fraction := by simp [ofNat]
  exponent := by simp [ofNat]

end Numeral

namespace Binary64

/-! ### Layout -/

/-- The digits of an exponent, at least two. -/
def exponentDigits (exponent : Int) : List Char :=
  let size := Nat.toDigits 10 exponent.natAbs
  if size.length < 2 then '0' :: size else size

/-- The numeral of some digits whose first one has the given decimal exponent. -/
def numeral (digits : List Char) (exponent : Int) : Numeral :=
  if -4 ≤ exponent ∧ exponent < 16 then
    if exponent < 0 then
      { whole := ['0'], fraction := List.replicate (-exponent - 1).toNat '0' ++ digits }
    else
      let size := exponent.toNat + 1
      { whole := digits.take size ++ List.replicate (size - digits.length) '0'
        fraction := if digits.drop size = [] then ['0'] else digits.drop size }
  else
    { whole := digits.take 1, fraction := digits.drop 1
      down := exponent < 0, exponent := exponentDigits exponent }

theorem exponentDigits_ne_nil (exponent : Int) : exponentDigits exponent ≠ [] := by
  unfold exponentDigits
  dsimp only
  split
  · exact List.cons_ne_nil _ _
  · exact Nat.toDigits_ne_nil

theorem digitsValue_exponentDigits (exponent : Int) :
    digitsValue (exponentDigits exponent) = exponent.natAbs := by
  unfold exponentDigits
  dsimp only
  split
  · exact digitsValue_toDigits _
  · exact digitsValue_toDigits _

variable {digits : List Char} {exponent : Int}

theorem layout_eq (filled : digits ≠ []) :
    layout digits exponent = (numeral digits exponent).chars := by
  obtain ⟨d, ds, rfl⟩ := List.exists_cons_of_ne_nil filled
  unfold layout numeral Numeral.chars
  simp only [Bool.and_eq_true, decide_eq_true_eq, List.isEmpty_iff, Nat.toList_repr]
  split
  · split
    · simp
    · split <;> simp [*]
  · rw [if_neg (exponentDigits_ne_nil exponent)]
    unfold exponentDigits
    cases ds <;> simp

theorem numeral_marked (filled : digits ≠ []) :
    (numeral digits exponent).fraction ≠ [] ∨ (numeral digits exponent).exponent ≠ [] := by
  unfold numeral
  split
  · left
    split
    · simp [filled]
    · dsimp only
      split
      · exact List.cons_ne_nil _ _
      · assumption
  · exact .inr (exponentDigits_ne_nil exponent)

theorem isProper_numeral (filled : digits ≠ []) (first : digits.head? ≠ some '0')
    (all : ∀ c ∈ digits, c.isDigit) : (numeral digits exponent).IsProper := by
  have zeros (n : Nat) : ∀ c ∈ List.replicate n '0', c.isDigit := by
    intro c hc
    rw [(List.mem_replicate.1 hc).2]
    decide
  have front (n : Nat) : ∀ c ∈ digits.take n, c.isDigit :=
    fun c hc => all c (List.mem_of_mem_take hc)
  have back (n : Nat) : ∀ c ∈ digits.drop n, c.isDigit :=
    fun c hc => all c (List.mem_of_mem_drop hc)
  obtain ⟨d, ds, rfl⟩ := List.exists_cons_of_ne_nil filled
  unfold numeral
  split
  · split
    · exact ⟨.inl rfl, zeros 1, List.forall_mem_append.2 ⟨zeros _, all⟩, by simp⟩
    · refine ⟨.inr ⟨by simp, by simpa using first⟩,
        List.forall_mem_append.2 ⟨front _, zeros _⟩, ?_, by simp⟩
      dsimp only
      split
      · exact zeros 1
      · exact back _
  · refine ⟨.inr ⟨by simp, by simpa using first⟩, front 1, back 1, ?_⟩
    unfold exponentDigits
    dsimp only
    split
    · exact List.forall_mem_cons.2 ⟨by decide, isDigit_toDigits _⟩
    · exact isDigit_toDigits _

/-- Laying digits out does not change what they are worth. -/
theorem worth_numeral (filled : digits ≠ []) :
    (numeral digits exponent).worth =
      digitsValue digits * 10 ^ (exponent + 1 - digits.length) := by
  unfold numeral Numeral.worth Numeral.digits Numeral.power
  split
  · split
    · -- A number below one: zeros stand before the digits.
      have value : digitsValue (['0'] ++ (List.replicate (-exponent - 1).toNat '0' ++ digits)) =
          digitsValue digits := by
        rw [digitsValue_append, digitsValue_append, digitsValue_zeros, show digitsValue ['0'] = 0
          from rfl, Nat.zero_mul, Nat.zero_mul, Nat.zero_add, Nat.zero_add]
      dsimp only
      rw [value, List.length_append, List.length_replicate, if_neg Bool.false_ne_true]
      congr 2
      change (0 : Int) - _ = _
      omega
    · next above =>
      dsimp only
      rw [if_neg Bool.false_ne_true, show digitsValue [] = 0 from rfl]
      split
      · -- All digits stand before the point, and zeros behind them.
        next short =>
        have short := List.drop_eq_nil_iff.1 short
        rw [List.take_of_length_le short, digitsValue_append, digitsValue_append,
          digitsValue_zeros, show digitsValue ['0'] = 0 from rfl, List.length_replicate,
          show exponent + 1 - digits.length = (exponent.toNat + 1 - digits.length : Nat) by omega,
          zpow_natCast]
        push_cast
        simp only [List.length_singleton]
        ring_nf
      · -- The point stands inside the digits.
        next long =>
        have long := mt List.drop_eq_nil_iff.2 long
        rw [show exponent.toNat + 1 - digits.length = 0 by omega, List.replicate_zero,
          List.append_nil, List.take_append_drop, List.length_drop]
        congr 2
        omega
  -- With an exponent the point stands behind the first digit.
  · dsimp only
    have size := List.length_pos_iff.2 filled
    have sign : (if decide (exponent < 0) = true then -(exponent.natAbs : Int)
        else exponent.natAbs) = exponent := by
      simp only [decide_eq_true_eq]
      omega
    rw [List.take_append_drop, digitsValue_exponentDigits, List.length_drop, sign]
    congr 2
    omega

/-! ### The shortest decimal -/

variable {e : Fin 2047} {f : Fin (Nat.pow 2 52)}

theorem ofDecimal_decimalOf {point : Int} {n : Nat} {d : Nat × Int}
    (h : decimalOf e f point n = some d) : ofDecimal false d.1 d.2 = .finite false e f := by
  unfold decimalOf at h
  dsimp only at h
  split at h
  · cases h
  · next low _ =>
    cases h
    exact eq_of_beq low
  · next _ high =>
    cases h
    exact eq_of_beq high
  · next low high =>
    rw [← apply_ite some, ← apply_ite some, ← apply_ite some] at h
    cases h
    split
    · exact eq_of_beq low
    · split
      · exact eq_of_beq high
      · split
        · exact eq_of_beq low
        · exact eq_of_beq high

/-- The exact value of a number is a decimal. -/
theorem ofDecimal_exact (filled : ¬ (e.val = 0 ∧ f.val = 0)) {d : Nat} {x : Int}
    (worth : (d * 10 ^ x : ℚ) = significand e f * 2 ^ scale e) :
    ofDecimal false d x = .finite false e f := by
  have apart : ((quotient e f).2 : ℚ) ≠ 0 := by exact_mod_cast (quotient_pos filled).2.ne'
  have tens : ((Nat.pow 10 (-x).toNat : Nat) : ℚ) ≠ 0 := by
    exact_mod_cast (ten_pow_pos _).ne'
  rw [← ofQuotient_quotient false filled, ofDecimal_eq]
  apply ofQuotient_congr false (ten_pow_pos _) (quotient_pos filled).2
  rw [← quotient_of_decimal, ← quotient_eq, div_eq_div_iff tens apart] at worth
  exact_mod_cast worth

/-- The decimal that is chosen for a number rounds to it. -/
theorem ofDecimal_shortest (filled : ¬ (e.val = 0 ∧ f.val = 0)) :
    ofDecimal false (shortest e f).1 (shortest e f).2 = .finite false e f := by
  unfold shortest
  dsimp only
  split
  · next d found =>
    obtain ⟨n, -, hit⟩ := List.exists_of_findSome?_eq_some found
    exact ofDecimal_decimalOf hit
  · split
    · next whole =>
      apply ofDecimal_exact filled
      rw [← quotient_eq, zpow_zero, mul_one]
      unfold quotient
      dsimp only
      rw [show (-scale e).toNat = 0 by omega, show Nat.pow 2 0 = 1 from rfl, Nat.cast_one, div_one]
    · next part =>
      obtain ⟨n, down⟩ : ∃ n : Nat, scale e = -n := ⟨(-scale e).toNat, by omega⟩
      apply ofDecimal_exact filled
      dsimp only
      rw [down, Int.neg_neg, Int.toNat_natCast, zpow_neg, zpow_neg, zpow_natCast, zpow_natCast,
        Nat.pow_eq, show (10 : ℚ) = 2 * 5 by norm_num, mul_pow]
      push_cast
      field_simp

/-! ### The digits without trailing zeros -/

theorem trailing_zeros (ds : List Char) :
    ∃ n, ds = (ds.reverse.dropWhile (· == '0')).reverse ++ List.replicate n '0' := by
  refine ⟨(ds.reverse.takeWhile (· == '0')).length, ?_⟩
  have zeros : ds.reverse.takeWhile (· == '0') =
      List.replicate (ds.reverse.takeWhile (· == '0')).length '0' := by
    rw [List.eq_replicate_iff]
    exact ⟨rfl, fun c hc => eq_of_beq (List.all_eq_true.1 List.all_takeWhile c hc)⟩
  rw [← List.reverse_inj, List.reverse_append, List.reverse_reverse, List.reverse_replicate,
    ← zeros, List.takeWhile_append_dropWhile]

theorem leadingDigits_spec {n : Nat} (positive : 0 < n) (x : Int) :
    ((leadingDigits n x).1 ≠ [] ∧ (leadingDigits n x).1.head? ≠ some '0' ∧
      ∀ c ∈ (leadingDigits n x).1, c.isDigit) ∧
    (digitsValue (leadingDigits n x).1 *
      10 ^ ((leadingDigits n x).2 + 1 - (leadingDigits n x).1.length) : ℚ) = n * 10 ^ x := by
  obtain ⟨k, split⟩ := trailing_zeros (Nat.toDigits 10 n)
  have first := head?_toDigits n positive
  have all := isDigit_toDigits n
  have value := digitsValue_toDigits n
  have size := congrArg List.length split
  unfold leadingDigits
  simp only [Nat.toList_repr]
  generalize ((Nat.toDigits 10 n).reverse.dropWhile (· == '0')).reverse = ds at split size ⊢
  rw [split] at first all value
  rw [List.length_append, List.length_replicate] at size
  rw [digitsValue_append, digitsValue_zeros, List.length_replicate, Nat.add_zero] at value
  refine ⟨⟨?_, ?_, fun c hc => all c (List.mem_append_left _ hc)⟩, ?_⟩
  · rintro rfl
    rw [show digitsValue [] = 0 from rfl, Nat.zero_mul] at value
    omega
  · cases ds with
    | nil => simp
    | cons d ds => simpa using first
  · rw [show x + (Nat.toDigits 10 n).length - 1 + 1 - ds.length = x + k by omega,
      zpow_add₀ (by norm_num), zpow_natCast, ← value]
    push_cast
    ring

/-! ### The text -/

/-- The text of a finite number is a numeral with a point or an exponent that rounds to
    the number. -/
theorem text_finite (negative : Bool) (e : Fin 2047) (f : Fin (Nat.pow 2 52)) :
    ∃ n : Numeral, n.IsProper ∧ (n.fraction ≠ [] ∨ n.exponent ≠ []) ∧
      (text (.finite negative e f)).toList = (if negative then '-' :: n.chars else n.chars) ∧
      ofDecimal negative n.digits n.power = .finite negative e f := by
  unfold text
  dsimp only
  rw [String.toList_ofList]
  by_cases empty : e.val = 0 ∧ f.val = 0
  · have zero : ∀ c ∈ ['0'], c.isDigit := List.forall_mem_singleton.2 rfl
    refine ⟨{ whole := ['0'], fraction := ['0'] },
      ⟨.inl rfl, zero, zero, List.forall_mem_nil _⟩, .inl (by decide), ?_, ?_⟩
    · rw [if_pos empty]
      rfl
    · obtain ⟨least, none⟩ := empty
      obtain rfl : e = 0 := Fin.ext least
      obtain rfl : f = 0 := Fin.ext none
      rfl
  · rw [if_neg empty]
    have rounds := ofDecimal_shortest empty
    have positive : 0 < (shortest e f).1 := by
      apply Nat.pos_of_ne_zero
      intro none
      rw [none, ofDecimal, if_pos rfl, zero, Binary64.finite.injEq] at rounds
      exact empty ⟨congrArg Fin.val rounds.2.1.symm, congrArg Fin.val rounds.2.2.symm⟩
    obtain ⟨⟨filled, first, all⟩, value⟩ := leadingDigits_spec positive (shortest e f).2
    refine ⟨numeral _ _, isProper_numeral filled first all, numeral_marked filled,
      by rw [layout_eq filled], ?_⟩
    apply ofDecimal_sign
    rw [← rounds]
    apply ofDecimal_congr
    rw [← value]
    exact worth_numeral filled

end Binary64

end ActionEngine
