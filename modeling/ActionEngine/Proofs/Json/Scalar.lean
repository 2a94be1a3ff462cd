import ActionEngine.Json.Printer
import ActionEngine.Json.Reader
import ActionEngine.Proofs.Number.Decimal
import ActionEngine.Proofs.Text.Loose

/-!
# Numbers and texts in a document

A number and a text that have been written are read back, and reading stops where they
end. For a number this needs that what follows cannot be taken for a part of it.
-/

namespace ActionEngine.Json

open Reading

/-! ### Numbers -/

/-- No digit, no point and no mark of an exponent comes first. -/
def Ends (rest : List Char) : Prop :=
  ∀ c ∈ rest.head?, c.isDigit = false ∧ c ≠ '.' ∧ c ≠ 'e' ∧ c ≠ 'E'

theorem ends_nil : Ends [] := by simp [Ends]

theorem ends_cons {c : Char} {rest : List Char} (digit : c.isDigit = false) (point : c ≠ '.')
    (small : c ≠ 'e') (capital : c ≠ 'E') : Ends (c :: rest) := by
  rintro d ⟨rfl⟩
  exact ⟨digit, point, small, capital⟩

section Digits

variable {ds rest : List Char}

theorem takeWhile_digits (digits : ∀ c ∈ ds, c.isDigit)
    (ends : ∀ c ∈ rest.head?, c.isDigit = false) :
    (ds ++ rest).takeWhile Char.isDigit = ds := by
  rw [List.takeWhile_append_of_pos digits]
  cases rest with
  | nil => simp
  | cons c rest => rw [List.takeWhile_cons_of_neg (by simp [ends c rfl]), List.append_nil]

theorem dropWhile_digits (digits : ∀ c ∈ ds, c.isDigit)
    (ends : ∀ c ∈ rest.head?, c.isDigit = false) :
    (ds ++ rest).dropWhile Char.isDigit = rest := by
  rw [List.dropWhile_append_of_pos digits]
  cases rest with
  | nil => rfl
  | cons c rest => rw [List.dropWhile_cons_of_neg (by simp [ends c rfl])]

theorem wholePart_append (digits : ∀ c ∈ ds, c.isDigit)
    (first : ds = ['0'] ∨ ds ≠ [] ∧ ds.head? ≠ some '0')
    (ends : ∀ c ∈ rest.head?, c.isDigit = false) :
    wholePart (ds ++ rest) = some (ds, rest) := by
  rcases first with rfl | ⟨filled, first⟩
  · rfl
  · obtain ⟨d, more, rfl⟩ := List.exists_cons_of_ne_nil filled
    unfold wholePart
    split
    · next same =>
      cases same
      exact absurd rfl first
    · dsimp only
      rw [takeWhile_digits digits ends, dropWhile_digits digits ends]
      rfl

theorem fractionPart_append (filled : ds ≠ []) (digits : ∀ c ∈ ds, c.isDigit)
    (ends : ∀ c ∈ rest.head?, c.isDigit = false) :
    fractionPart ('.' :: ds ++ rest) = (ds, rest) := by
  change (let taken := (ds ++ rest).takeWhile Char.isDigit
    if taken.isEmpty then ([], '.' :: (ds ++ rest))
      else (taken, (ds ++ rest).dropWhile Char.isDigit)) = _
  rw [takeWhile_digits digits ends, dropWhile_digits digits ends]
  exact if_neg (by simpa using filled)

theorem fractionPart_of_ne (h : ∀ c ∈ rest.head?, c ≠ '.') : fractionPart rest = ([], rest) := by
  unfold fractionPart
  split
  · exact absurd rfl (h _ rfl)
  · rfl

theorem exponentPart_append (filled : ds ≠ []) (digits : ∀ c ∈ ds, c.isDigit) (down : Bool)
    (ends : ∀ c ∈ rest.head?, c.isDigit = false) :
    exponentPart ('e' :: (if down then '-' else '+') :: ds ++ rest) =
      (some (if down then -(digitsValue ds : Int) else digitsValue ds), rest) := by
  unfold exponentPart
  have sign : sign ((if down then '-' else '+') :: (ds ++ rest)) = (down, ds ++ rest) := by
    cases down <;> rfl
  dsimp only [List.cons_append]
  rw [sign, if_pos (by decide)]
  dsimp only
  rw [takeWhile_digits digits ends, dropWhile_digits digits ends, if_neg (by simpa using filled)]

theorem exponentPart_of_ne (h : ∀ c ∈ rest.head?, c ≠ 'e' ∧ c ≠ 'E') :
    exponentPart rest = (none, rest) := by
  unfold exponentPart
  split
  · next c rest =>
    obtain ⟨small, capital⟩ := h c rfl
    rw [if_neg (by simp [small, capital])]
  · rfl

end Digits

def signed (negative : Bool) (s : List Char) : List Char :=
  if negative then '-' :: s else s

variable {n : Numeral} {rest : List Char}

theorem exists_first (proper : n.IsProper) : ∃ c more, n.chars = c :: more ∧ c.isDigit := by
  obtain ⟨c, more, whole⟩ : ∃ c more, n.whole = c :: more := by
    rcases proper.first with zero | ⟨filled, -⟩
    · exact ⟨_, _, zero⟩
    · exact List.exists_cons_of_ne_nil filled
  have digit := proper.whole c (by rw [whole]; exact List.mem_cons_self)
  unfold Numeral.chars
  rw [whole]
  exact ⟨c, _, rfl, digit⟩

theorem number_of_parts {body whole behind fraction after : List Char} {exponent : Option Int}
    (unsigned : ∀ c ∈ body.head?, c ≠ '-') (first : wholePart body = some (whole, behind))
    (second : fractionPart behind = (fraction, after))
    (third : exponentPart after = (exponent, rest)) (negative : Bool) :
    number (signed negative body) =
      if fraction.isEmpty && exponent.isNone then
        if maxDigits < whole.length then
          .error ⟨.longInteger whole.length, (signed negative body).length⟩
        else .ok (.int (if negative then -(digitsValue whole : Int) else digitsValue whole), rest)
      else .ok (.float (Binary64.ofDecimal negative (digitsValue (whole ++ fraction))
        (exponent.getD 0 - fraction.length)), rest) := by
  unfold number
  cases negative with
  | true => simp only [signed, if_true, first, second, third]
  | false =>
      have apart (more : List Char) : body ≠ '-' :: more := by
        rintro rfl
        exact unsigned _ rfl rfl
      simp [signed, first, second, third]

/-- The parts of a numeral are taken off it one after the other. -/
theorem parts_of_numeral (proper : n.IsProper) (ends : Ends rest) :
    ∃ behind after,
      wholePart (n.chars ++ rest) = some (n.whole, behind) ∧
      fractionPart behind = (n.fraction, after) ∧
      exponentPart after =
        (if n.exponent = [] then none
          else some (if n.down then -(digitsValue n.exponent : Int) else digitsValue n.exponent),
          rest) := by
  unfold Numeral.chars
  rw [List.append_assoc, List.append_assoc]
  generalize exponent : (if n.exponent = [] then [] else _) ++ rest = after
  have third : exponentPart after =
      (if n.exponent = [] then none
        else some (if n.down then -(digitsValue n.exponent : Int) else digitsValue n.exponent),
        rest) := by
    subst exponent
    split
    · exact exponentPart_of_ne fun c hc => (ends c hc).2.2
    · next filled =>
      exact exponentPart_append filled proper.exponent n.down fun c hc => (ends c hc).1
  have between : ∀ c ∈ after.head?, c.isDigit = false ∧ c ≠ '.' := by
    subst exponent
    split
    · exact fun c hc => ⟨(ends c hc).1, (ends c hc).2.1⟩
    · rintro c ⟨rfl⟩
      decide
  generalize fraction : (if n.fraction = [] then [] else _) ++ after = behind
  have second : fractionPart behind = (n.fraction, after) := by
    subst fraction
    split
    · next empty =>
      rw [empty]
      exact fractionPart_of_ne fun c hc => (between c hc).2
    · next filled =>
      exact fractionPart_append filled proper.fraction fun c hc => (between c hc).1
  have front : ∀ c ∈ behind.head?, c.isDigit = false := by
    subst fraction
    split
    · exact fun c hc => (between c hc).1
    · rintro c ⟨rfl⟩
      decide
  exact ⟨behind, after, wholePart_append proper.whole proper.first front, second, third⟩

theorem unsigned_of_isProper (proper : n.IsProper) : ∀ c ∈ (n.chars ++ rest).head?, c ≠ '-' := by
  obtain ⟨c, more, chars, digit⟩ := exists_first proper
  rw [chars]
  rintro d ⟨rfl⟩ rfl
  cases digit

theorem signed_append (negative : Bool) (s rest : List Char) :
    signed negative s ++ rest = signed negative (s ++ rest) := by
  cases negative <;> rfl

/-- A numeral with a point or an exponent is read as a floating-point number. -/
theorem number_marked (proper : n.IsProper) (marked : n.fraction ≠ [] ∨ n.exponent ≠ [])
    (negative : Bool) (ends : Ends rest) :
    number (signed negative n.chars ++ rest) =
      .ok (.float (Binary64.ofDecimal negative n.digits n.power), rest) := by
  obtain ⟨behind, after, whole, fraction, exponent⟩ := parts_of_numeral proper ends
  rw [signed_append,
    number_of_parts (unsigned_of_isProper proper) whole fraction exponent negative]
  have float : (n.fraction.isEmpty && Option.isNone (if n.exponent = [] then none
      else some (if n.down then -(digitsValue n.exponent : Int) else digitsValue n.exponent))) =
        false := by
    rcases marked with filled | filled
    · simp [filled]
    · simp [filled]
  rw [float, if_neg Bool.false_ne_true]
  unfold Numeral.digits Numeral.power
  split
  · next empty => simp [empty, digitsValue]
  · rfl

/-- A whole number that is not too long is read as an integer. -/
theorem number_ofNat {m : Nat} (short : m < Nat.pow 10 maxDigits) (negative : Bool)
    (ends : Ends rest) :
    number (signed negative (Nat.toDigits 10 m) ++ rest) =
      .ok (.int (if negative then -(m : Int) else m), rest) := by
  have proper := Numeral.isProper_ofNat m
  obtain ⟨behind, after, whole, fraction, exponent⟩ := parts_of_numeral proper ends
  have chars : Nat.toDigits 10 m = (Numeral.ofNat m).chars := by
    simp [Numeral.ofNat, Numeral.chars]
  have size (k : Nat) (positive : 0 < k) (h : m < Nat.pow 10 k) : (Nat.toDigits 10 m).length ≤ k :=
    (Nat.length_toDigits_le_iff (by decide) positive).2 h
  rw [signed_append, chars,
    number_of_parts (unsigned_of_isProper proper) whole fraction exponent negative]
  change (if maxDigits < (Nat.toDigits 10 m).length then _ else
    Except.ok (Value.int (if negative then -(digitsValue (Nat.toDigits 10 m) : Int)
      else digitsValue (Nat.toDigits 10 m)), rest)) = _
  rw [if_neg (Nat.not_lt_of_le (size maxDigits (by decide) short)), digitsValue_toDigits]

/-! ### Texts -/

theorem hexValue?_hexDigit (n : Fin 16) : hexValue? (Text.hexDigit n.val) = some n.val := by
  revert n
  decide

/-- The four digits of a unit spell it. -/
theorem exists_hexDigits {n : Nat} (small : n < 0x10000) :
    ∃ a b c d, Text.hexDigits 4 n = [a, b, c, d] ∧ code? a b c d = some n := by
  refine ⟨_, _, _, _, rfl, ?_⟩
  have digit (m : Nat) : hexValue? (Text.hexDigit (m % 16)) = some (m % 16) :=
    hexValue?_hexDigit ⟨m % 16, Nat.mod_lt _ (by decide)⟩
  unfold code?
  rw [digit, digit, digit, digit]
  change
    some (((n / 16 / 16 / 16 % 16 * 16 + n / 16 / 16 % 16) * 16 + n / 16 % 16) * 16 + n % 16) = _
  congr 1
  omega

variable {opened : Nat} {text : List Text.Code} {after s : List Char}

/-- The text goes on with the second half of a pair, by its unit. -/
def StartsLow (s : List Char) : Prop :=
  ∃ a b c d n rest, s = '\\' :: 'u' :: a :: b :: c :: d :: rest ∧ code? a b c d = some n ∧ isLow n

/-- A unit at which a text goes on is well-formed, if the text can be read. -/
theorem code_of_string {a b c d : Char}
    (read : string opened ('\\' :: 'u' :: a :: b :: c :: d :: s) = .ok (text, after)) :
    ∃ n, code? a b c d = some n := by
  rw [string.eq_def] at read
  split at read
  case h_3 same =>
    cases same
    split at read
    · cases read
    · next n code => exact ⟨n, code⟩
  case h_4 same =>
    cases same
    split at read
    · cases read
    · next n code => exact ⟨n, code⟩
  all_goals grind

theorem isHigh_unit (h : Text.Half) : isHigh h.unit = h.isHigh := by
  have low : 0xD800 ≤ h.unit := Nat.le_add_right _ _
  unfold isHigh Text.Half.isHigh
  rw [decide_eq_true low, Bool.true_and, decide_eq_decide]
  unfold Text.Half.unit
  omega

theorem isLow_unit (h : Text.Half) : isLow h.unit = !h.isHigh := by
  have bound := h.isLt
  unfold isLow Text.Half.isHigh Text.Half.unit
  rw [Bool.eq_iff_iff]
  simp only [Bool.and_eq_true, Bool.not_eq_true', decide_eq_true_eq, decide_eq_false_iff_not]
  omega

theorem codeOf_unit (h : Text.Half) : codeOf h.unit = .half h := by
  have back : Fin.ofNat 0x800 (h.unit - 0xD800) = h := by
    apply Fin.ext
    rw [Text.Half.unit, Nat.add_sub_cancel_left]
    exact Nat.mod_eq_of_lt h.isLt
  unfold codeOf
  rw [isHigh_unit, isLow_unit, back, if_pos (by simp)]

theorem codeOf_char (c : Char) : codeOf c.toNat = .char c := by
  have bounds := Text.toNat_bounds c
  unfold codeOf isHigh isLow
  rw [if_neg, Char.ofNat_toNat]
  simp only [Bool.or_eq_true, Bool.and_eq_true, decide_eq_true_eq]
  omega

/-- The second half of a pair stands for itself. -/
theorem codeOf_low {n : Nat} (low : isLow n) : ∃ h, codeOf n = .half h ∧ h.isHigh = false := by
  have bounds : 0xDC00 ≤ n ∧ n < 0xE000 := by simpa [isLow] using low
  let h : Text.Half := ⟨n - 0xD800, by omega⟩
  have unit : h.unit = n := by
    change 0xD800 + (n - 0xD800) = n
    omega
  refine ⟨h, unit ▸ codeOf_unit h, ?_⟩
  rw [← unit, isLow_unit] at low
  simpa using low

theorem unit_of_codeOf {n : Nat} {h : Text.Half} (own : codeOf n = .half h) : h.unit = n := by
  unfold codeOf at own
  split at own
  · next half =>
    simp only [isHigh, isLow, Bool.or_eq_true, Bool.and_eq_true, decide_eq_true_eq] at half
    rw [← Text.Code.half.inj own, Text.Half.unit, Fin.val_ofNat, Nat.mod_eq_of_lt (by omega)]
    omega
  · cases own

theorem cons_of_read {read : Except Stop (List Text.Code × List Char)} {c : Text.Code}
    (h : (do let (text, after) ← read; .ok (c :: text, after)) = .ok (text, after)) :
    ∃ more, read = .ok (more, after) ∧ text = c :: more := by
  obtain stop | ⟨more, rest⟩ := read
  · cases h
  · cases h
    exact ⟨more, rfl, rfl⟩

/-- How a text is read on: to its end, by a character, or by a unit that makes no pair. -/
inductive Reads (opened : Nat) (after : List Char) : List Char → List Text.Code → Prop
  | close (rest : List Char) : Reads opened after ('"' :: rest) []
  | char {s s' : List Char} (c : Char) {more : List Text.Code} (other : ¬StartsLow s)
      (shorter : s'.length < s.length) (read : string opened s' = .ok (more, after)) :
      Reads opened after s (.char c :: more)
  | unit {a b c d : Char} {n : Nat} {s : List Char} {more : List Text.Code}
      (code : code? a b c d = some n) (alone : isHigh n → ¬StartsLow s)
      (read : string opened s = .ok (more, after)) :
      Reads opened after ('\\' :: 'u' :: a :: b :: c :: d :: s) (codeOf n :: more)

theorem isLow_of_isHigh {n : Nat} (high : isHigh n) : isLow n = false := by
  simp only [isHigh, Bool.and_eq_true, decide_eq_true_eq] at high
  simp only [isLow, Bool.and_eq_false_iff, decide_eq_false_iff_not]
  omega

theorem not_startsLow_unit {a b c d : Char} {n : Nat} (code : code? a b c d = some n)
    (other : isLow n = false) : ¬StartsLow ('\\' :: 'u' :: a :: b :: c :: d :: s) := by
  rintro ⟨_, _, _, _, m, _, same, code', low⟩
  cases same
  rw [code, Option.some.injEq] at code'
  subst code'
  rw [other] at low
  cases low

theorem reads_of_string (read : string opened s = .ok (text, after)) :
    Reads opened after s text := by
  rw [string.eq_def] at read
  split at read
  case h_2 =>
    cases read
    exact .close _
  case h_3 =>
    split at read
    · cases read
    next n code =>
    split at read
    · next high =>
      split at read
      · cases read
      next m code' =>
      split at read
      · obtain ⟨more, later, rfl⟩ := cons_of_read read
        exact .char _ (not_startsLow_unit code (isLow_of_isHigh high)) (by simp) later
      · next other =>
        obtain ⟨more, later, rfl⟩ := cons_of_read read
        exact .unit code (fun _ => not_startsLow_unit code' (Bool.eq_false_iff.2 other)) later
    · next single =>
      obtain ⟨more, later, rfl⟩ := cons_of_read read
      exact .unit code (fun high => absurd high single) later
  case h_4 a b c d e rest alone =>
    split at read
    · cases read
    next n code =>
    obtain ⟨more, later, rfl⟩ := cons_of_read read
    refine .unit code (fun _ low => ?_) later
    obtain ⟨a', b', c', d', m, behind, same, -, -⟩ := low
    cases behind with
    | nil =>
        rw [same] at later
        cases later
    | cons f behind =>
        cases same
        exact alone _ _ _ _ _ _ rfl rfl
  case h_7 c rest _ _ noUnit =>
    split at read
    · cases read
    obtain ⟨more, later, rfl⟩ := cons_of_read read
    refine .char _ ?_ (by rw [List.length_cons, List.length_cons]; omega) later
    rintro ⟨_, _, _, _, _, _, same, -⟩
    cases same
    exact noUnit rfl
  case h_8 c rest _ _ _ _ _ noEscape =>
    split at read
    · cases read
    obtain ⟨more, later, rfl⟩ := cons_of_read read
    refine .char _ ?_ (by simp) later
    rintro ⟨_, _, _, _, _, _, same, -⟩
    cases same
    exact noEscape _ _ rfl rfl
  all_goals cases read

/-- The text that is read there has the second half first. -/
theorem head_of_startsLow (low : StartsLow s) (read : string opened s = .ok (text, after)) :
    ∃ h more, text = .half h :: more ∧ h.isHigh = false := by
  cases reads_of_string read with
  | close rest =>
      obtain ⟨_, _, _, _, _, _, same, -⟩ := low
      cases same
  | char c other => exact absurd low other
  | @unit a b c d n s more code alone =>
      have second : isLow n := by
        by_contra other
        exact not_startsLow_unit code (Bool.eq_false_iff.2 other) low
      obtain ⟨h, half, second⟩ := codeOf_low second
      exact ⟨h, more, by rw [half], second⟩

/-- A second half comes first only where its unit stands. -/
theorem startsLow_of_head {h : Text.Half} {more : List Text.Code} (second : h.isHigh = false)
    (read : string opened s = .ok (.half h :: more, after)) : StartsLow s := by
  generalize same : Text.Code.half h :: more = text at read
  cases reads_of_string read with
  | close rest => cases same
  | char c => cases same
  | @unit a b c d n s more code =>
      have low : isLow n := by
        rw [← unit_of_codeOf (List.cons.inj same).1.symm, isLow_unit, second]
        rfl
      exact ⟨a, b, c, d, n, s, rfl, code, low⟩

/-- No two codes of a text that was read are taken for one. -/
theorem string_settled (read : string opened s = .ok (text, after)) :
    (LooseText.ofCodes text).Settled := by
  unfold LooseText.Settled
  rw [LooseText.codes_ofCodes]
  induction size : s.length using Nat.strong_induction_on generalizing s text with
  | _ n ih =>
      subst size
      cases reads_of_string read with
      | close rest => exact List.isChain_nil
      | char c other shorter later =>
          refine List.isChain_cons.2 ⟨?_, ih _ shorter later rfl⟩
          rintro (_ | _) - joins
          all_goals exact joins
      | @unit a b c d n s more code alone later =>
          have shorter : s.length < ('\\' :: 'u' :: a :: b :: c :: d :: s).length := by
            simp only [List.length_cons]
            omega
          refine List.isChain_cons.2 ⟨?_, ih _ shorter later rfl⟩
          intro next first joins
          cases own : codeOf n with
          | char c =>
              rw [own] at joins
              cases next <;> exact joins
          | half h =>
              rw [own] at joins
              cases next with
              | char c => exact joins
              | half l =>
                  obtain ⟨more, rfl⟩ := List.head?_eq_some_iff.1 first
                  refine alone ?_ (startsLow_of_head joins.2 later)
                  rw [← unit_of_codeOf own, isHigh_unit]
                  exact joins.1

/-- A unit makes no pair if it is no first half of one, or if no second half follows. -/
theorem string_unit {a b c d : Char} {n : Nat} (code : code? a b c d = some n)
    (alone : isHigh n → ¬StartsLow s) (filled : s ≠ [])
    (read : string opened s = .ok (text, after)) :
    string opened ('\\' :: 'u' :: a :: b :: c :: d :: s) = .ok (codeOf n :: text, after) := by
  obtain ⟨e, more, rfl⟩ := List.exists_cons_of_ne_nil filled
  rw [string.eq_def]
  split
  case h_3 same =>
    cases same
    rw [code]
    dsimp only
    split
    · next high =>
      obtain ⟨m, code'⟩ := code_of_string read
      have other : isLow m = false :=
        Bool.eq_false_iff.2 fun low => alone high ⟨_, _, _, _, m, _, rfl, code', low⟩
      rw [code']
      dsimp only
      rw [other, if_neg Bool.false_ne_true, read]
      rfl
    · rw [read]
      rfl
  case h_4 same =>
    cases same
    rw [code, read]
    rfl
  all_goals grind

/-- The two halves of a pair stand for one character. -/
theorem string_pair {a b c d a' b' c' d' : Char} {n m : Nat} (code : code? a b c d = some n)
    (code' : code? a' b' c' d' = some m) (high : isHigh n) (low : isLow m) (filled : s ≠ [])
    (read : string opened s = .ok (text, after)) :
    string opened ('\\' :: 'u' :: a :: b :: c :: d :: '\\' :: 'u' :: a' :: b' :: c' :: d' :: s) =
      .ok (.char (Char.ofNat (0x10000 + (n - 0xD800) * 0x400 + (m - 0xDC00))) :: text, after) := by
  obtain ⟨e, more, rfl⟩ := List.exists_cons_of_ne_nil filled
  rw [string, code]
  dsimp only
  rw [if_pos high, code']
  dsimp only
  rw [if_pos low, read]
  rfl

theorem string_escape {c e : Char} (escaped : escaped? c = some e)
    (read : string opened s = .ok (text, after)) :
    string opened ('\\' :: c :: s) = .ok (.char e :: text, after) := by
  have other : c ≠ 'u' := by
    rintro rfl
    cases escaped
  rw [string.eq_def]
  split
  case h_7 same =>
    cases same
    rw [escaped, read]
    rfl
  all_goals grind

theorem string_plain {c : Char} (quote : c ≠ '"') (slash : c ≠ '\\') (control : ¬ c.toNat < 0x20)
    (read : string opened s = .ok (text, after)) :
    string opened (c :: s) = .ok (.char c :: text, after) := by
  rw [string.eq_def]
  split
  case h_8 same =>
    cases same
    rw [if_neg control, read]
    rfl
  all_goals grind

theorem codeOf_toNat (c : Text.Code) : codeOf c.toNat = c := by
  cases c with
  | char c => exact codeOf_char c
  | half h => exact codeOf_unit h

/-- A code by its unit. -/
theorem string_unitCode {c : Text.Code} (short : c.toNat < 0x10000)
    (alone : isHigh c.toNat → ¬StartsLow s) (filled : s ≠ [])
    (read : string opened s = .ok (text, after)) :
    string opened (unitCode c.toNat ++ s) = .ok (c :: text, after) := by
  obtain ⟨x, y, z, w, digits, code⟩ := exists_hexDigits short
  have unit := string_unit code alone filled read
  rw [codeOf_toNat] at unit
  unfold unitCode
  rw [digits]
  exact unit

/-- A character is no first half of a pair. -/
theorem isHigh_char (c : Char) : isHigh c.toNat = false := by
  have bounds := Text.toNat_bounds c
  simp only [isHigh, Bool.and_eq_false_iff, decide_eq_false_iff_not]
  omega

/-- A character by two codes, if one is too short for it. -/
theorem string_unitCodes {c : Char} (long : 0x10000 ≤ c.toNat) (filled : s ≠ [])
    (read : string opened s = .ok (text, after)) :
    string opened (unitCode (0xD800 + (c.toNat - 0x10000) / 0x400) ++
      unitCode (0xDC00 + (c.toNat - 0x10000) % 0x400) ++ s) = .ok (.char c :: text, after) := by
  have bounds := Text.toNat_bounds c
  have small : 0xD800 + (c.toNat - 0x10000) / 0x400 < 0x10000 := by omega
  have small' : 0xDC00 + (c.toNat - 0x10000) % 0x400 < 0x10000 := by omega
  obtain ⟨x, y, z, w, digits, code⟩ := exists_hexDigits small
  obtain ⟨x', y', z', w', digits', code'⟩ := exists_hexDigits small'
  have high : isHigh (0xD800 + (c.toNat - 0x10000) / 0x400) := by
    simp only [isHigh, Bool.and_eq_true, decide_eq_true_eq]
    omega
  have low : isLow (0xDC00 + (c.toNat - 0x10000) % 0x400) := by
    simp only [isLow, Bool.and_eq_true, decide_eq_true_eq]
    omega
  have joined : 0x10000 + (0xD800 + (c.toNat - 0x10000) / 0x400 - 0xD800) * 0x400 +
      (0xDC00 + (c.toNat - 0x10000) % 0x400 - 0xDC00) = c.toNat := by
    omega
  have pair := string_pair code code' high low filled read
  rw [joined, Char.ofNat_toNat] at pair
  unfold unitCode
  rw [digits, digits']
  exact pair

/-- A character that has been written is read back. -/
theorem string_writeChar (ascii : Bool) (c : Char) (filled : s ≠ [])
    (read : string opened s = .ok (text, after)) :
    string opened (writeChar ascii c ++ s) = .ok (.char c :: text, after) := by
  unfold writeChar
  split
  · next special =>
    rcases Bool.or_eq_true_iff.1 special with same | same
    · rw [eq_of_beq same]
      exact string_escape rfl read
    · rw [eq_of_beq same]
      exact string_escape rfl read
  next plain =>
  split
  · next same => exact eq_of_beq same ▸ string_escape rfl read
  split
  · next same => exact eq_of_beq same ▸ string_escape rfl read
  split
  · next same => exact eq_of_beq same ▸ string_escape rfl read
  split
  · next same => exact eq_of_beq same ▸ string_escape rfl read
  split
  · next same => exact eq_of_beq same ▸ string_escape rfl read
  dsimp only
  split
  · next short =>
    simp only [Bool.or_eq_true, Bool.and_eq_true, decide_eq_true_eq] at short
    have alone : isHigh c.toNat → ¬StartsLow s := fun high => by simp [isHigh_char] at high
    exact string_unitCode (c := .char c) (by change c.toNat < _; omega) alone filled read
  next single =>
  split
  · next long =>
    simp only [Bool.and_eq_true, decide_eq_true_eq] at long
    exact string_unitCodes long.2 filled read
  · simp only [Bool.or_eq_true, decide_eq_true_eq, not_or] at single
    simp only [Bool.or_eq_true, beq_iff_eq, not_or] at plain
    exact string_plain plain.1 plain.2 single.1 read

/-- A text that has been written is read back, unless two of its codes are taken for one. -/
theorem string_writeText (ascii : Bool) {cs : List Text.Code}
    (settled : cs.IsChain fun a b => ¬a.Joins b) (rest : List Char) :
    string opened (cs.flatMap (writeCode ascii) ++ '"' :: rest) = .ok (cs, rest) := by
  induction cs with
  | nil => rfl
  | cons c cs ih =>
      have read := ih settled.tail
      rw [List.flatMap_cons, List.append_assoc]
      cases c with
      | char c => exact string_writeChar ascii c (by simp) read
      | half h =>
          have short : h.unit < 0x10000 := by
            have bound := h.isLt
            unfold Text.Half.unit
            omega
          refine string_unitCode (c := .half h) short (fun high low => ?_) (by simp) read
          obtain ⟨l, more, rfl, second⟩ := head_of_startsLow low read
          have first : h.isHigh := (isHigh_unit h).symm.trans high
          exact (List.isChain_cons_cons.1 settled).1 ⟨first, second⟩

end ActionEngine.Json
