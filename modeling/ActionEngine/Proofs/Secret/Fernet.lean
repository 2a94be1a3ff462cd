import ActionEngine.Proofs.Secret.Aes
import ActionEngine.Proofs.Text.Utf8
import ActionEngine.Secret.Entropy
import ActionEngine.Secret.Fernet

/-!
# A token gives its message back

Bytes are read back from their text, and a message from the token that was made of it with
the same key. A text of bytes consists of printable ASCII characters.
-/

namespace ActionEngine

/-! ### Bytes as text -/

namespace Base64

theorem value?_digit {n : Nat} (small : n < 64) : value? (digit n) = some n := by
  have each (n : Fin 64) : value? (digit n.val) = some n.val := by
    revert n
    decide
  exact each ⟨n, small⟩

/-- A printable ASCII character. -/
def IsMark (c : Char) : Prop := 32 < c.toNat ∧ c.toNat < 127

theorem digit_facts {n : Nat} (small : n < 64) : digit n ≠ '=' ∧ IsMark (digit n) := by
  have each (n : Fin 64) :
      digit n.val ≠ '=' ∧ 32 < (digit n.val).toNat ∧ (digit n.val).toNat < 127 := by
    revert n
    decide
  exact each ⟨n, small⟩

section Steps

variable {n : Nat} (small : n < 64) (bits signs : Nat) (rest : List Char)

include small

theorem decodeFrom_first :
    decodeFrom 0 bits signs (digit n :: rest) = decodeFrom 1 n 0 rest := by
  rw [decodeFrom, if_neg (by simpa using (digit_facts small).1), value?_digit small]
  rfl

theorem decodeFrom_second : decodeFrom 1 bits signs (digit n :: rest) =
    (decodeFrom 2 (n % 16) 0 rest).map (UInt8.ofNat (bits * 4 + n / 16) :: ·) := by
  rw [decodeFrom, if_neg (by simpa using (digit_facts small).1), value?_digit small]
  rfl

theorem decodeFrom_third : decodeFrom 2 bits signs (digit n :: rest) =
    (decodeFrom 3 (n % 4) 0 rest).map (UInt8.ofNat (bits * 16 + n / 4) :: ·) := by
  rw [decodeFrom, if_neg (by simpa using (digit_facts small).1), value?_digit small]
  rfl

theorem decodeFrom_fourth : decodeFrom 3 bits signs (digit n :: rest) =
    (decodeFrom 0 0 0 rest).map (UInt8.ofNat (bits * 64 + n) :: ·) := by
  rw [decodeFrom, if_neg (by simpa using (digit_facts small).1), value?_digit small]
  rfl

end Steps

theorem ofNat_eq {n : Nat} {b : UInt8} (h : n = b.toNat) : UInt8.ofNat n = b := by
  rw [h, UInt8.ofNat_toNat]

/-- Bytes are read back from their text. -/
theorem decode_encode (bytes : List UInt8) : decode? (encode bytes) = some bytes := by
  unfold decode?
  induction bytes using encode.induct with
  | case1 => rfl
  | case2 a =>
      have bound := a.toNat_lt
      rw [encode, decodeFrom_first (by omega), decodeFrom_second (by omega),
        ofNat_eq (b := a) (by omega)]
      rfl
  | case3 a b =>
      have bound := a.toNat_lt
      have bound' := b.toNat_lt
      rw [encode, decodeFrom_first (by omega), decodeFrom_second (by omega),
        decodeFrom_third (by omega), ofNat_eq (b := a) (by omega), ofNat_eq (b := b) (by omega)]
      rfl
  | case4 a b c rest ih =>
      have bound := a.toNat_lt
      have bound' := b.toNat_lt
      have bound'' := c.toNat_lt
      rw [encode, decodeFrom_first (by omega), decodeFrom_second (by omega),
        decodeFrom_third (by omega), decodeFrom_fourth (by omega), ih, ofNat_eq (b := a) (by omega),
        ofNat_eq (b := b) (by omega), ofNat_eq (b := c) (by omega)]
      rfl

/-- The text of bytes consists of digits, with equals signs behind them. -/
theorem mem_encode (bytes : List UInt8) :
    ∀ c ∈ encode bytes, c = '=' ∨ ∃ n < 64, c = digit n := by
  have mark {n : Nat} (small : n < 64) : digit n = '=' ∨ ∃ m < 64, digit n = digit m :=
    .inr ⟨n, small, rfl⟩
  induction bytes using encode.induct with
  | case1 => simp [encode]
  | case2 a =>
      have bound := a.toNat_lt
      simp only [encode, List.forall_mem_cons]
      exact ⟨mark (by omega), mark (by omega), .inl trivial, .inl trivial, by simp⟩
  | case3 a b =>
      have bound := a.toNat_lt
      have bound' := b.toNat_lt
      simp only [encode, List.forall_mem_cons]
      exact ⟨mark (by omega), mark (by omega), mark (by omega), .inl trivial, by simp⟩
  | case4 a b c rest ih =>
      have bound := a.toNat_lt
      have bound' := b.toNat_lt
      have bound'' := c.toNat_lt
      simp only [encode, List.forall_mem_cons]
      exact ⟨mark (by omega), mark (by omega), mark (by omega), mark (by omega), ih⟩

theorem isMark_encode (bytes : List UInt8) : ∀ c ∈ encode bytes, IsMark c := by
  intro c hc
  rcases mem_encode bytes c hc with rfl | ⟨n, small, rfl⟩
  · unfold IsMark
    decide
  · exact (digit_facts small).2

theorem length_encode (bytes : List UInt8) :
    (encode bytes).length = 4 * ((bytes.length + 2) / 3) := by
  induction bytes using encode.induct with
  | case4 a b c rest ih =>
      simp only [encode, List.length_cons, ih]
      omega
  | _ => simp [encode]

/-- Three bytes are four digits. -/
theorem encode_front {bytes : List UInt8} (enough : 3 ≤ bytes.length) :
    ∃ front rest, encode bytes = front ++ rest ∧ front.length = 4 ∧
      ∀ c ∈ front, ∃ n < 64, c = digit n := by
  cases bytes using encode.fun_cases with
  | case4 a b c rest =>
      have bound := a.toNat_lt
      have bound' := b.toNat_lt
      have bound'' := c.toNat_lt
      refine ⟨[_, _, _, _], encode rest, rfl, rfl, ?_⟩
      simp only [List.forall_mem_cons]
      exact ⟨⟨_, by omega, rfl⟩, ⟨_, by omega, rfl⟩, ⟨_, by omega, rfl⟩, ⟨_, by omega, rfl⟩,
        by simp⟩
  | _ => simp at enough

/-- Every four marks in front of the first equals sign stand for three bytes. -/
theorem length_decodeFrom {position bits signs : Nat} (inside : position < 4)
    {front rest : List Char} (unsigned : ∀ c ∈ front, c ≠ '=') {bytes : List UInt8}
    (decoded : decodeFrom position bits signs (front ++ rest) = some bytes) :
    (position + front.countP fun c => (value? c).isSome) * 3 / 4 ≤
      position * 3 / 4 + bytes.length := by
  induction front generalizing position bits signs bytes with
  | nil => simp
  | cons c front ih =>
      obtain ⟨other, unsigned⟩ := List.forall_mem_cons.1 unsigned
      rw [List.cons_append, decodeFrom, if_neg (by simpa using other)] at decoded
      rw [List.countP_cons]
      cases value : value? c with
      | none =>
          rw [value] at decoded
          simpa using ih inside unsigned decoded
      | some n =>
          rw [value] at decoded
          have next {p b s : Nat} {a : UInt8} (inside : p < 4)
              (decoded : (decodeFrom p b s (front ++ rest)).map (a :: ·) = some bytes) :
              (p + front.countP fun c => (value? c).isSome) * 3 / 4 + 1 ≤
                p * 3 / 4 + bytes.length := by
            obtain ⟨more, behind, rfl⟩ := Option.map_eq_some_iff.1 decoded
            exact Nat.succ_le_succ (ih inside unsigned behind)
          rw [if_pos (Option.isSome_some)]
          obtain rfl | rfl | rfl | rfl :
              position = 0 ∨ position = 1 ∨ position = 2 ∨ position = 3 := by omega
          · have := ih (by decide) unsigned decoded
            omega
          · have := next (by decide) decoded
            omega
          · have := next (by decide) decoded
            omega
          · have := next (by decide) decoded
            omega

end Base64

/-! ### Sizes -/

namespace Sha256

theorem length_bigEndian (width n : Nat) : (bigEndian width n).length = width := by
  induction width generalizing n with
  | zero => rfl
  | succ width ih => rw [bigEndian, List.length_append, ih, List.length_singleton]

theorem length_hash (message : List UInt8) : (hash message).length = 32 := by
  unfold hash
  simp [length_bigEndian]

end Sha256

theorem Entropy.length_draw (e : Entropy) : e.draw.1.length = 32 :=
  Sha256.length_hash _

namespace Fernet

/-! ### Keys -/

variable {key : Key}

/-- Both halves of the key have sixteen bytes. -/
structure Key.IsWhole (key : Key) : Prop where
  signing : Aes.IsBlock key.signing
  encryption : Aes.IsBlock key.encryption

theorem Key.isWhole_of_ofText? {text : List Char} (h : Key.ofText? text = some key) :
    key.IsWhole := by
  unfold Key.ofText? at h
  split at h
  · split at h <;> cases h
    next size =>
    constructor
    · unfold Aes.IsBlock
      rw [List.length_take, size]
      rfl
    · unfold Aes.IsBlock
      rw [List.length_drop, size]
  · cases h

/-- The text of 32 bytes spells a key. -/
theorem Key.ofText?_text {bytes : List UInt8} (size : bytes.length = 32) :
    Key.ofText? (Key.text bytes) = some ⟨bytes.take 16, bytes.drop 16⟩ := by
  unfold Key.ofText? Key.text
  rw [Base64.decode_encode]
  exact if_pos size

/-! ### Tokens -/

theorem body_parts (key : Key) (time : Nat) {start : List UInt8} (first : Aes.IsBlock start)
    (message : List UInt8) :
    ((body key time start message).drop 9).take 16 = start ∧
      (body key time start message).drop 25 = Aes.encrypt key.encryption start message := by
  have front : (version :: Sha256.bigEndian 8 time).length = 9 := by
    rw [List.length_cons, Sha256.length_bigEndian]
  have behind : (body key time start message).drop 9 =
      start ++ Aes.encrypt key.encryption start message := by
    unfold body
    rw [List.append_assoc, List.drop_left' front]
  constructor
  · rw [behind, List.take_left' first]
  · rw [show 25 = 9 + 16 from rfl, ← List.drop_drop, behind, List.drop_left' first]

/-- What was made with a key is read back with the same key. -/
theorem verify_sign (whole : key.IsWhole) {start : List UInt8} (first : Aes.IsBlock start)
    (time : Nat) (message : List UInt8) :
    verify? key (sign key time start message) = some message := by
  obtain ⟨start_eq, cipher_eq⟩ := body_parts key time first message
  have long : 9 ≤ (body key time start message).length := by
    simp [body, Sha256.length_bigEndian]
  have head : (body key time start message).head? = some version := rfl
  unfold verify? sign
  rw [Base64.decode_encode]
  dsimp only
  generalize body key time start message = covered at *
  have code : (Sha256.authenticate key.signing covered).length = 32 := Sha256.length_hash _
  have size :
      (covered ++ Sha256.authenticate key.signing covered).length - 32 = covered.length := by
    rw [List.length_append, code, Nat.add_sub_cancel]
  rw [size, List.take_left, List.drop_left, List.head?_append, head, if_neg, if_neg (by simp),
    start_eq, cipher_eq, Aes.decrypt_encrypt first whole.encryption]
  rw [List.length_append, code]
  simp

theorem length_sign (whole : key.IsWhole) {start : List UInt8} (first : Aes.IsBlock start)
    (time : Nat) (message : List UInt8) :
    (sign key time start message).length = 4 * ((16 * (message.length / 16 + 1) + 59) / 3) := by
  have body_size : (body key time start message).length = 16 * (message.length / 16 + 1) + 25 := by
    unfold body
    rw [List.length_append, List.length_append, List.length_cons, Sha256.length_bigEndian,
      Aes.length_encrypt first whole.encryption, first]
    omega
  have code (covered : List UInt8) : (Sha256.authenticate key.signing covered).length = 32 :=
    Sha256.length_hash _
  unfold sign
  dsimp only
  rw [Base64.length_encode, List.length_append, code, body_size]

theorem isMark_sign (key : Key) (time : Nat) (start message : List UInt8) :
    ∀ c ∈ sign key time start message, Base64.IsMark c :=
  Base64.isMark_encode _

/-- A token starts with four digits. -/
theorem sign_front (key : Key) (time : Nat) (start message : List UInt8) :
    ∃ front rest, sign key time start message = front ++ rest ∧ front.length = 4 ∧
      ∀ c ∈ front, ∃ n < 64, c = Base64.digit n := by
  apply Base64.encode_front
  simp [body, Sha256.length_bigEndian]
  omega

theorem sign_ne_nil (whole : key.IsWhole) {start : List UInt8} (first : Aes.IsBlock start)
    (time : Nat) (message : List UInt8) : sign key time start message ≠ [] := by
  intro empty
  have read := verify_sign whole first time message
  rw [empty] at read
  cases read

end Fernet

end ActionEngine
