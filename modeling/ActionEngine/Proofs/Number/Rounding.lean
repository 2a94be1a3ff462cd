import ActionEngine.Number.Decimal
import Mathlib.Algebra.Order.Field.Power
import Mathlib.Data.Int.Log
import Mathlib.Data.Rat.Floor
import Mathlib.Tactic.FieldSimp

/-!
# Rounding depends on the value

A decimal or a quotient is rounded once, so two that are worth the same give the same
number, and what a number is worth exactly gives that number back.
-/

namespace ActionEngine.Binary64

/-! ### Powers with integers as exponents -/

theorem zpow_eq (b : Nat) (k : Int) :
    (b : ℚ) ^ k = (Nat.pow b k.toNat : Nat) / (Nat.pow b (-k).toNat : Nat) := by
  obtain ⟨n, rfl | rfl⟩ := Int.eq_nat_or_neg k
  · simp
  · simp

theorem pow_pos_cast {b : Nat} (positive : 0 < b) (n : Nat) : (0 : ℚ) < (Nat.pow b n : Nat) := by
  rw [Nat.pow_eq]
  exact_mod_cast Nat.pow_pos positive

theorem pow_mul_mul_pow (m n c : Nat) :
    Nat.pow 2 m * (c * Nat.pow 2 n) = c * Nat.pow 2 (m + n) := by
  rw [Nat.pow_eq, Nat.pow_eq, Nat.pow_eq, Nat.pow_add, Nat.mul_left_comm]

variable {num den num' den' : Nat}

/-- A power of two is at most a quotient, said without a division. -/
theorem zpow_le_iff (positive : 0 < den) (k : Int) :
    (2 : ℚ) ^ k ≤ num / den ↔ den * Nat.pow 2 k.toNat ≤ num * Nat.pow 2 (-k).toNat := by
  have power := zpow_eq 2 k
  rw [Nat.cast_two] at power
  rw [power, div_le_div_iff₀ (pow_pos_cast (by decide) _) (by exact_mod_cast positive), mul_comm]
  norm_cast

/-! ### The logarithm -/

theorem logQuotient_eq (large : 0 < num) (positive : 0 < den) :
    logQuotient num den = Int.log 2 (num / den : ℚ) := by
  have value : (0 : ℚ) < num / den := by positivity
  have low : (num.log2 : Int) - den.log2 - 1 ≤ Int.log 2 (num / den : ℚ) := by
    rw [← Int.zpow_le_iff_le_log (by decide) value]
    have top : (2 : ℚ) ^ (num.log2 : Int) ≤ num := by
      exact_mod_cast Nat.log2_self_le (Nat.pos_iff_ne_zero.1 large)
    have bottom : (den : ℚ) ≤ 2 ^ ((den.log2 : Int) + 1) := by
      exact_mod_cast (Nat.lt_log2_self (n := den)).le
    rw [Nat.cast_two, show (num.log2 : Int) - den.log2 - 1 = num.log2 - (den.log2 + 1) by ring,
      zpow_sub₀ two_ne_zero]
    gcongr
  have high : Int.log 2 (num / den : ℚ) < (num.log2 : Int) - den.log2 + 1 := by
    rw [← Int.lt_zpow_iff_log_lt (by decide) value]
    have top : (num : ℚ) < 2 ^ ((num.log2 : Int) + 1) := by
      exact_mod_cast Nat.lt_log2_self (n := num)
    have bottom : (2 : ℚ) ^ (den.log2 : Int) ≤ den := by
      exact_mod_cast Nat.log2_self_le (Nat.pos_iff_ne_zero.1 positive)
    rw [Nat.cast_two, show (num.log2 : Int) - den.log2 + 1 = num.log2 + 1 - den.log2 by ring,
      zpow_sub₀ two_ne_zero]
    calc (num / den : ℚ) < 2 ^ ((num.log2 : Int) + 1) / den := by gcongr
      _ ≤ 2 ^ ((num.log2 : Int) + 1) / 2 ^ (den.log2 : Int) := by gcongr
  unfold logQuotient
  dsimp only
  have exact_at := Int.zpow_le_iff_le_log (b := 2) (R := ℚ) (by decide) value
    (x := (num.log2 : Int) - den.log2)
  rw [Nat.cast_two, zpow_le_iff positive] at exact_at
  split
  · next reached =>
    have := exact_at.1 reached
    omega
  · next missed =>
    have := mt exact_at.2 missed
    omega

theorem le_logQuotient_iff (large : 0 < num) (positive : 0 < den) (k : Int) :
    k ≤ logQuotient num den ↔ (2 : ℚ) ^ k ≤ num / den := by
  rw [logQuotient_eq large positive, ← Int.zpow_le_iff_le_log (by decide) (by positivity),
    Nat.cast_two]

/-! ### Rounding a quotient to a whole number -/

theorem roundQuotient_mul (num den : Nat) {c : Nat} (positive : 0 < c) :
    roundQuotient (num * c) (den * c) = roundQuotient num den := by
  have doubled : 2 * (num % den * c) = 2 * (num % den) * c := by ring
  unfold roundQuotient
  simp only [Nat.mul_div_mul_right _ _ positive, Nat.mul_mod_mul_right, doubled,
    Nat.mul_lt_mul_right positive]

theorem roundQuotient_congr (positive : 0 < den) (positive' : 0 < den')
    (same : num * den' = num' * den) : roundQuotient num den = roundQuotient num' den' := by
  rw [← roundQuotient_mul num den positive', same, Nat.mul_comm den den',
    roundQuotient_mul num' den' positive]

theorem le_roundQuotient (num den : Nat) : num / den ≤ roundQuotient num den := by
  unfold roundQuotient
  dsimp only
  split
  · exact le_rfl
  · split
    · omega
    · split <;> omega

theorem roundQuotient_of_small (small : 2 * num < den) : roundQuotient num den = 0 := by
  unfold roundQuotient
  rw [Nat.div_eq_of_lt (by omega), Nat.mod_eq_of_lt (by omega)]
  exact if_pos small

theorem roundQuotient_exact (m : Nat) (positive : 0 < den) :
    roundQuotient (m * den) den = m := by
  unfold roundQuotient
  rw [Nat.mul_div_cancel _ positive, Nat.mul_mod_left]
  exact if_pos (by omega)

/-! ### Rounding a quotient to a number of the format -/

theorem ofQuotient_congr (negative : Bool) (positive : 0 < den) (positive' : 0 < den')
    (same : num * den' = num' * den) :
    ofQuotient negative num den = ofQuotient negative num' den' := by
  by_cases zero : num = 0
  · have zero' : num' = 0 := by
      rw [zero, Nat.zero_mul] at same
      exact (Nat.mul_eq_zero.1 same.symm).resolve_right (Nat.pos_iff_ne_zero.1 positive)
    rw [ofQuotient, ofQuotient, if_pos zero, if_pos zero']
  · have zero' : num' ≠ 0 := by
      rintro rfl
      rw [Nat.zero_mul] at same
      exact (Nat.mul_eq_zero.1 same).elim zero (Nat.pos_iff_ne_zero.1 positive')
    have value : (num / den : ℚ) = num' / den' := by
      rw [div_eq_div_iff (by exact_mod_cast positive.ne') (by exact_mod_cast positive'.ne')]
      exact_mod_cast same
    have log : logQuotient num den = logQuotient num' den' := by
      rw [logQuotient_eq (by omega) positive, logQuotient_eq (by omega) positive', value]
    rw [ofQuotient, ofQuotient, if_neg zero, if_neg zero', log]
    dsimp only
    congr 1
    apply roundQuotient_congr
    · exact Nat.mul_pos positive (Nat.pow_pos (by decide))
    · exact Nat.mul_pos positive' (Nat.pow_pos (by decide))
    · rw [Nat.mul_mul_mul_comm, same, Nat.mul_mul_mul_comm]

/-- A quotient of at least `2 ^ 1024` is beyond the format. -/
theorem ofQuotient_of_large (negative : Bool) (large : 0 < num) (positive : 0 < den)
    (log : 1024 ≤ logQuotient num den) : ofQuotient negative num den = .infinite negative := by
  have reached := (le_logQuotient_iff large positive _).1 le_rfl
  obtain ⟨k, log_eq⟩ : ∃ k : Nat, logQuotient num den = k + 1024 :=
    ⟨(logQuotient num den - 1024).toNat, by omega⟩
  rw [log_eq, zpow_le_iff positive, show (-((k : Int) + 1024)).toNat = 0 by omega,
    show ((k : Int) + 1024).toNat = 52 + (k + 972) by omega] at reached
  have whole : Nat.pow 2 52 ≤ roundQuotient (num * Nat.pow 2 0) (den * Nat.pow 2 (k + 972)) := by
    refine le_trans ?_ (le_roundQuotient _ _)
    apply (Nat.le_div_iff_mul_le (Nat.mul_pos positive (Nat.pow_pos Nat.two_pos))).2
    calc Nat.pow 2 52 * (den * Nat.pow 2 (k + 972)) = den * Nat.pow 2 (52 + (k + 972)) :=
          pow_mul_mul_pow 52 (k + 972) den
      _ ≤ num * Nat.pow 2 0 := reached
  rw [ofQuotient, if_neg large.ne']
  dsimp only
  rw [log_eq, show max ((k : Int) + 1024 - 52) (-1074) = (k + 972 : Nat) by omega,
    show (-((k + 972 : Nat) : Int)).toNat = 0 by omega, Int.toNat_natCast]
  generalize roundQuotient _ _ = m at whole ⊢
  unfold assemble
  rw [dif_neg (by omega)]
  split
  · rw [dif_neg (by omega)]
  · rw [dif_neg (by omega)]

/-- A quotient below `2 ^ (-n - 1)` is less than half of `2 ^ (-n)`. -/
theorem twice_lt_of_log (large : 0 < num) (positive : 0 < den) (n : Nat)
    (log : logQuotient num den < -(n + 1 : Nat)) : 2 * (num * Nat.pow 2 n) < den := by
  rw [← not_le, le_logQuotient_iff large positive, zpow_le_iff positive,
    show (-((n + 1 : Nat) : Int)).toNat = 0 by omega,
    show (- -((n + 1 : Nat) : Int)).toNat = n + 1 by omega] at log
  rw [Nat.pow_eq, Nat.pow_eq, Nat.pow_zero, Nat.mul_one, Nat.pow_succ, not_le] at log
  rw [Nat.pow_eq]
  linarith

/-- A quotient below `2 ^ -1075` is nearest to zero. -/
theorem ofQuotient_of_small (negative : Bool) (large : 0 < num) (positive : 0 < den)
    (log : logQuotient num den < -1075) : ofQuotient negative num den = zero negative := by
  have small := twice_lt_of_log large positive 1074 log
  rw [ofQuotient, if_neg large.ne']
  dsimp only
  rw [show max (logQuotient num den - 52) (-1074) = -(1074 : Nat) by omega,
    show (- -((1074 : Nat) : Int)).toNat = 1074 by omega,
    show (-((1074 : Nat) : Int)).toNat = 0 by omega]
  rw [roundQuotient_of_small (by simpa only [Nat.pow_eq, Nat.pow_zero, Nat.mul_one] using small)]
  rfl

theorem assemble_sign {m : Nat} {q : Int} {e : Fin 2047} {f : Fin (Nat.pow 2 52)}
    (h : assemble false m q = .finite false e f) (negative : Bool) :
    assemble negative m q = .finite negative e f := by
  unfold assemble at h ⊢
  split at h
  · next least =>
    cases h
    rw [dif_pos least]
  next whole =>
  rw [dif_neg whole]
  split at h
  · next carried =>
    rw [if_pos carried]
    split at h <;> cases h
    next fits => rw [dif_pos fits]
  · next other =>
    rw [if_neg other]
    split at h <;> cases h
    next fits => rw [dif_pos fits]

/-- Only the sign of the result depends on the sign. -/
theorem ofQuotient_sign {e : Fin 2047} {f : Fin (Nat.pow 2 52)}
    (h : ofQuotient false num den = .finite false e f) (negative : Bool) :
    ofQuotient negative num den = .finite negative e f := by
  unfold ofQuotient at h ⊢
  split at h
  · next empty =>
    cases h
    rw [if_pos empty]
    rfl
  · next filled =>
    rw [if_neg filled]
    exact assemble_sign h negative

/-! ### Exact values -/

section Exact

variable {e : Fin 2047} {f : Fin (Nat.pow 2 52)}

theorem quotient_eq (e : Fin 2047) (f : Fin (Nat.pow 2 52)) :
    ((quotient e f).1 / (quotient e f).2 : ℚ) = significand e f * 2 ^ scale e := by
  have power := zpow_eq 2 (scale e)
  rw [Nat.cast_two] at power
  rw [power, mul_div_assoc']
  unfold quotient
  push_cast
  rfl

theorem quotient_pos (filled : ¬ (e.val = 0 ∧ f.val = 0)) :
    0 < (quotient e f).1 ∧ 0 < (quotient e f).2 := by
  have large : 0 < significand e f := by
    unfold significand
    split <;> omega
  exact ⟨Nat.mul_pos large (Nat.pow_pos Nat.two_pos), Nat.pow_pos Nat.two_pos⟩

theorem pow_53 : Nat.pow 2 53 = Nat.pow 2 52 + Nat.pow 2 52 := rfl

/-- The significand has 53 bits, unless the scale is the least one. -/
theorem significand_bounds (e : Fin 2047) (f : Fin (Nat.pow 2 52)) :
    significand e f < Nat.pow 2 53 ∧ (e.val ≠ 0 → Nat.pow 2 52 ≤ significand e f) := by
  have bound := f.isLt
  have double := pow_53
  unfold significand
  split <;> omega

/-- Rounding at the scale of a number leaves its significand alone. -/
theorem scale_of_quotient (filled : ¬ (e.val = 0 ∧ f.val = 0)) :
    max (logQuotient (quotient e f).1 (quotient e f).2 - 52) (-1074) = scale e := by
  obtain ⟨large, positive⟩ := quotient_pos filled
  have power : (0 : ℚ) < 2 ^ scale e := by positivity
  have reaches (n : Nat) : (n + scale e : Int) ≤ logQuotient (quotient e f).1 (quotient e f).2 ↔
      Nat.pow 2 n ≤ significand e f := by
    rw [le_logQuotient_iff large positive, quotient_eq, zpow_add₀ two_ne_zero,
      mul_le_mul_iff_left₀ power, zpow_natCast, Nat.pow_eq]
    norm_cast
  obtain ⟨high, low⟩ := significand_bounds e f
  have above := mt (reaches 53).1 (Nat.not_le_of_lt high)
  by_cases least : e.val = 0
  · have small : significand e f < Nat.pow 2 52 := by
      unfold significand
      rw [if_pos least]
      exact f.isLt
    have below := mt (reaches 52).1 (Nat.not_le_of_lt small)
    unfold scale at below ⊢
    omega
  · have full := (reaches 52).2 (low least)
    unfold scale at above full ⊢
    omega

theorem assemble_significand (negative : Bool) :
    assemble negative (significand e f) (scale e) = .finite negative e f := by
  have bound := f.isLt
  have double := pow_53
  unfold assemble significand scale
  by_cases least : e.val = 0
  · simp only [if_pos least]
    rw [dif_pos bound]
    exact congrArg (Binary64.finite negative · f) (Fin.ext least.symm)
  · have exponent : ((max e.val 1 : Nat) - 1075 + 1075 : Int).toNat = e.val := by omega
    have fraction : Nat.pow 2 52 + f.val - Nat.pow 2 52 = f.val := by omega
    simp only [if_neg least]
    rw [dif_neg (by omega), if_neg (by omega),
      dif_pos ⟨by rw [exponent]; exact e.isLt, by rw [fraction]; exact bound⟩]
    simp only [exponent, fraction]

/-- What a number is worth exactly is rounded to the number itself. -/
theorem ofQuotient_quotient (negative : Bool) (filled : ¬ (e.val = 0 ∧ f.val = 0)) :
    ofQuotient negative (quotient e f).1 (quotient e f).2 = .finite negative e f := by
  rw [ofQuotient, if_neg (quotient_pos filled).1.ne']
  dsimp only
  rw [scale_of_quotient filled]
  unfold quotient
  dsimp only
  rw [Nat.mul_assoc, Nat.mul_comm (Nat.pow 2 (-scale e).toNat), roundQuotient_exact]
  · exact assemble_significand negative
  · exact Nat.mul_pos (Nat.pow_pos Nat.two_pos) (Nat.pow_pos Nat.two_pos)

end Exact

/-! ### Decimals -/

theorem two_pow_le_ten_pow {m n : Nat} (h : m ≤ 3 * n) : Nat.pow 2 m ≤ Nat.pow 10 n := by
  calc 2 ^ m ≤ 2 ^ (3 * n) := Nat.pow_le_pow_right (by decide) h
    _ = 8 ^ n := Nat.pow_mul 2 3 n
    _ ≤ 10 ^ n := Nat.pow_le_pow_left (by decide) n

theorem ten_pow_pos (n : Nat) : 0 < Nat.pow 10 n := Nat.pow_pos (by decide)

theorem le_log_of_high {digits m n : Nat} (filled : 0 < digits) (h : m ≤ 3 * n) :
    (m : Int) ≤ logQuotient (digits * Nat.pow 10 n) (Nat.pow 10 0) := by
  rw [le_logQuotient_iff (Nat.mul_pos filled (ten_pow_pos _)) (ten_pow_pos _),
    zpow_le_iff (ten_pow_pos _), Int.toNat_natCast, show (-(m : Int)).toNat = 0 by omega]
  calc Nat.pow 10 0 * Nat.pow 2 m = Nat.pow 2 m := Nat.one_mul _
    _ ≤ Nat.pow 10 n := two_pow_le_ten_pow h
    _ ≤ digits * Nat.pow 10 n := Nat.le_mul_of_pos_left _ filled
    _ = digits * Nat.pow 10 n * Nat.pow 2 0 := (Nat.mul_one _).symm

theorem log_lt_of_low {digits m n : Nat} (filled : 0 < digits)
    (h : digits.log2 + 1 + m ≤ 3 * n) :
    logQuotient (digits * Nat.pow 10 0) (Nat.pow 10 n) < -(m : Int) := by
  rw [← not_le, le_logQuotient_iff (Nat.mul_pos filled (ten_pow_pos _)) (ten_pow_pos _),
    zpow_le_iff (ten_pow_pos _), not_le, Int.neg_neg, Int.toNat_natCast,
    show (-(m : Int)).toNat = 0 by omega]
  have size : digits < Nat.pow 2 (digits.log2 + 1) := Nat.lt_log2_self
  calc digits * Nat.pow 10 0 * Nat.pow 2 m = digits * Nat.pow 2 m :=
        congrArg (· * Nat.pow 2 m) (Nat.mul_one digits)
    _ < Nat.pow 2 (digits.log2 + 1) * Nat.pow 2 m :=
        Nat.mul_lt_mul_of_pos_right size (Nat.pow_pos Nat.two_pos)
    _ = Nat.pow 2 (digits.log2 + 1 + m) := (Nat.pow_add 2 _ _).symm
    _ ≤ Nat.pow 10 n := two_pow_le_ten_pow h
    _ = Nat.pow 10 n * Nat.pow 2 0 := (Nat.mul_one _).symm

/-- Settling exponents far outside the range beforehand makes no difference. -/
theorem ofDecimal_eq (negative : Bool) (digits : Nat) (x : Int) :
    ofDecimal negative digits x =
      ofQuotient negative (digits * Nat.pow 10 x.toNat) (Nat.pow 10 (-x).toNat) := by
  unfold ofDecimal
  split
  · next zero => rw [zero, Nat.zero_mul, ofQuotient, if_pos rfl]
  next filled =>
  have filled : 0 < digits := by omega
  have large : 0 < digits * Nat.pow 10 x.toNat := Nat.mul_pos filled (ten_pow_pos _)
  split
  · next high =>
    have log := le_log_of_high filled (show 1024 ≤ 3 * x.toNat by omega)
    rw [ofQuotient_of_large negative large (ten_pow_pos _)]
    rwa [show (-x).toNat = 0 by omega]
  · split
    · next low =>
      have log := log_lt_of_low filled (show digits.log2 + 1 + 1075 ≤ 3 * (-x).toNat by omega)
      rw [ofQuotient_of_small negative large (ten_pow_pos _)]
      rwa [show x.toNat = 0 by omega]
    · rfl

theorem quotient_of_decimal (digits : Nat) (x : Int) :
    ((digits * Nat.pow 10 x.toNat : Nat) / (Nat.pow 10 (-x).toNat : Nat) : ℚ) =
      digits * 10 ^ x := by
  have power := zpow_eq 10 x
  rw [Nat.cast_ofNat] at power
  rw [power, mul_div_assoc', Nat.cast_mul]

/-- Decimals of the same worth give the same number. -/
theorem ofDecimal_congr (negative : Bool) {digits digits' : Nat} {x x' : Int}
    (same : (digits * 10 ^ x : ℚ) = digits' * 10 ^ x') :
    ofDecimal negative digits x = ofDecimal negative digits' x' := by
  have apart (n : Nat) : ((Nat.pow 10 n : Nat) : ℚ) ≠ 0 := by exact_mod_cast (ten_pow_pos n).ne'
  rw [ofDecimal_eq, ofDecimal_eq]
  apply ofQuotient_congr negative (ten_pow_pos _) (ten_pow_pos _)
  rw [← quotient_of_decimal, ← quotient_of_decimal, div_eq_div_iff (apart _) (apart _)] at same
  exact_mod_cast same

theorem ofDecimal_sign {digits : Nat} {x : Int} {e : Fin 2047} {f : Fin (Nat.pow 2 52)}
    (h : ofDecimal false digits x = .finite false e f) (negative : Bool) :
    ofDecimal negative digits x = .finite negative e f := by
  rw [ofDecimal_eq] at h ⊢
  exact ofQuotient_sign h negative

end ActionEngine.Binary64
