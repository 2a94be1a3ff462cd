import ActionEngine.Text.Lines
import ActionEngine.Text.Utf8
import Mathlib.Tactic.SplitIfs

/-!
# A text survives as bytes

The UTF-8 form of a text is read back to the text, whatever the text is. Reading a file
changes nothing more if the text has no carriage return.
-/

namespace ActionEngine.Text

/-! ### Bytes -/

theorem toNat_ofNat {n : Nat} (small : n < 256) : (UInt8.ofNat n).toNat = n :=
  UInt8.toNat_ofNat_of_lt' small

theorem isContinuation_ofNat {n : Nat} (small : n < 0x40) :
    isContinuation (UInt8.ofNat (0x80 + n)) := by
  unfold isContinuation
  rw [toNat_ofNat (by omega)]
  simp only [Bool.and_eq_true, decide_eq_true_eq]
  omega

/-! ### First bytes -/

section Lead

variable {n : Nat}

theorem utf8Lead_two (low : 0x80 ≤ n) (high : n < 0x800) :
    utf8Lead (0xC0 + n / 0x40) = some (2, 0x80, 0xBF) := by
  unfold utf8Lead
  rw [if_pos (by simp only [Bool.and_eq_true, decide_eq_true_eq]; omega)]

/-- The bounds of the second byte keep out shorter forms and halves of pairs only. -/
theorem utf8Lead_three (low : 0x800 ≤ n) (high : n < 0x10000) (whole : n < 0xD800 ∨ 0xDFFF < n) :
    ∃ least most, utf8Lead (0xE0 + n / 0x1000) = some (3, least, most) ∧
      least ≤ 0x80 + n / 0x40 % 0x40 ∧ 0x80 + n / 0x40 % 0x40 ≤ most := by
  unfold utf8Lead
  simp only [Bool.and_eq_true, decide_eq_true_eq, beq_iff_eq]
  split_ifs
  all_goals first
    | omega
    | exact ⟨_, _, rfl, by omega, by omega⟩

theorem utf8Lead_four (low : 0x10000 ≤ n) (high : n < 0x110000) :
    ∃ least most, utf8Lead (0xF0 + n / 0x40000) = some (4, least, most) ∧
      least ≤ 0x80 + n / 0x1000 % 0x40 ∧ 0x80 + n / 0x1000 % 0x40 ≤ most := by
  unfold utf8Lead
  simp only [Bool.and_eq_true, decide_eq_true_eq, beq_iff_eq]
  split_ifs
  all_goals first
    | omega
    | exact ⟨_, _, rfl, by omega, by omega⟩

end Lead

/-! ### Characters -/

section Character

variable (c : Char) (start : Nat) (rest : List UInt8)

theorem utf8From_two (low : 0x80 ≤ c.toNat) (high : c.toNat < 0x800) :
    utf8From start (UInt8.ofNat (0xC0 + c.toNat / 0x40) :: UInt8.ofNat (0x80 + c.toNat % 0x40) ::
      rest) = (utf8From (start + 2) rest).map (c :: ·) := by
  have worth : (0xC0 + c.toNat / 0x40 - 0xC0) * 0x40 + (0x80 + c.toNat % 0x40 - 0x80) =
      c.toNat := by omega
  rw [utf8From, toNat_ofNat (n := 0xC0 + c.toNat / 0x40) (by omega), if_neg (by omega),
    utf8Lead_two low high]
  dsimp only
  rw [toNat_ofNat (by omega), if_neg (by simp; omega), if_pos (by decide), worth,
    Char.ofNat_toNat]

theorem utf8From_three (low : 0x800 ≤ c.toNat) (high : c.toNat < 0x10000)
    (whole : c.toNat < 0xD800 ∨ 0xDFFF < c.toNat) :
    utf8From start (UInt8.ofNat (0xE0 + c.toNat / 0x1000) ::
      UInt8.ofNat (0x80 + c.toNat / 0x40 % 0x40) :: UInt8.ofNat (0x80 + c.toNat % 0x40) :: rest) =
        (utf8From (start + 3) rest).map (c :: ·) := by
  have worth : (0xE0 + c.toNat / 0x1000 - 0xE0) * 0x1000 +
      (0x80 + c.toNat / 0x40 % 0x40 - 0x80) * 0x40 + (0x80 + c.toNat % 0x40 - 0x80) =
        c.toNat := by omega
  obtain ⟨least, most, lead, above, under⟩ := utf8Lead_three low high whole
  rw [utf8From, toNat_ofNat (n := 0xE0 + c.toNat / 0x1000) (by omega), if_neg (by omega), lead]
  dsimp only
  rw [toNat_ofNat (n := 0x80 + c.toNat / 0x40 % 0x40) (by omega), if_neg (by simp; omega),
    if_neg (by decide), isContinuation_ofNat (Nat.mod_lt _ (by decide)), toNat_ofNat (by omega),
    worth, Char.ofNat_toNat]
  rfl

theorem utf8From_four (low : 0x10000 ≤ c.toNat) (high : c.toNat < 0x110000) :
    utf8From start (UInt8.ofNat (0xF0 + c.toNat / 0x40000) ::
      UInt8.ofNat (0x80 + c.toNat / 0x1000 % 0x40) ::
      UInt8.ofNat (0x80 + c.toNat / 0x40 % 0x40) :: UInt8.ofNat (0x80 + c.toNat % 0x40) :: rest) =
        (utf8From (start + 4) rest).map (c :: ·) := by
  have worth : (0xF0 + c.toNat / 0x40000 - 0xF0) * 0x40000 +
      (0x80 + c.toNat / 0x1000 % 0x40 - 0x80) * 0x1000 +
      (0x80 + c.toNat / 0x40 % 0x40 - 0x80) * 0x40 + (0x80 + c.toNat % 0x40 - 0x80) =
        c.toNat := by omega
  obtain ⟨least, most, lead, above, under⟩ := utf8Lead_four low high
  rw [utf8From, toNat_ofNat (n := 0xF0 + c.toNat / 0x40000) (by omega), if_neg (by omega), lead]
  dsimp only
  rw [toNat_ofNat (n := 0x80 + c.toNat / 0x1000 % 0x40) (by omega), if_neg (by simp; omega),
    if_neg (by decide), isContinuation_ofNat (Nat.mod_lt _ (by decide)), if_neg (by decide),
    if_neg (by decide), isContinuation_ofNat (Nat.mod_lt _ (by decide)),
    toNat_ofNat (n := 0x80 + c.toNat / 0x40 % 0x40) (by omega), toNat_ofNat (by omega), worth,
    Char.ofNat_toNat]
  rfl

/-- A character is read from its bytes. -/
theorem utf8From_char :
    ∃ next, utf8From start (utf8Char c ++ rest) = (utf8From next rest).map (c :: ·) := by
  have valid : c.toNat.isValidChar := c.valid
  unfold Nat.isValidChar at valid
  unfold utf8Char
  dsimp only
  split
  · next small =>
    refine ⟨start + 1, ?_⟩
    rw [List.singleton_append, utf8From, toNat_ofNat (by omega), if_pos small, Char.ofNat_toNat]
  split
  · exact ⟨start + 2, utf8From_two c start rest (by omega) (by omega)⟩
  split
  · exact ⟨start + 3, utf8From_three c start rest (by omega) (by omega) (by omega)⟩
  · exact ⟨start + 4, utf8From_four c start rest (by omega) (by omega)⟩

end Character

/-! ### Texts -/

theorem utf8From_encode (s : List Char) (start : Nat) : utf8From start (utf8Encode s) = .ok s := by
  induction s generalizing start with
  | nil => rfl
  | cons c s ih =>
      obtain ⟨next, read⟩ := utf8From_char c start (utf8Encode s)
      rw [utf8Encode, List.flatMap_cons, ← utf8Encode, read, ih]
      rfl

/-- A text is read back from its UTF-8 form. -/
theorem utf8Decode_encode (s : List Char) : utf8Decode (utf8Encode s) = .ok s :=
  utf8From_encode s 0

theorem utf8Encode_append (s s' : List Char) :
    utf8Encode (s ++ s') = utf8Encode s ++ utf8Encode s' :=
  List.flatMap_append

theorem length_utf8Encode_le (s : List Char) : (utf8Encode s).length ≤ 4 * s.length := by
  induction s with
  | nil => exact Nat.le_refl 0
  | cons c s ih =>
      have char : (utf8Char c).length ≤ 4 := by
        unfold utf8Char
        dsimp only
        split_ifs <;> simp
      rw [utf8Encode, List.flatMap_cons, ← utf8Encode, List.length_append, List.length_cons]
      omega

/-- Every ASCII character is one byte. -/
theorem utf8Encode_of_ascii {s : List Char} (ascii : ∀ c ∈ s, c.toNat < 0x80) :
    utf8Encode s = s.map fun c => UInt8.ofNat c.toNat := by
  induction s with
  | nil => rfl
  | cons c s ih =>
      obtain ⟨first, rest⟩ := List.forall_mem_cons.1 ascii
      rw [utf8Encode, List.flatMap_cons, ← utf8Encode, ih rest, utf8Char,
        if_pos first]
      rfl

theorem normaliseNewlines_eq {s : List Char} (h : '\r' ∉ s) : normaliseNewlines s = s := by
  induction s with
  | nil => rfl
  | cons c s ih =>
      rw [List.mem_cons, not_or] at h
      unfold normaliseNewlines
      split
      · contradiction
      · next same =>
        cases same
        exact absurd rfl h.1
      · next same =>
        cases same
        exact absurd rfl h.1
      · next same =>
        cases same
        rw [ih h.2]

end ActionEngine.Text
