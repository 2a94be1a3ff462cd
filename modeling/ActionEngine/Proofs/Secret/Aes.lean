import ActionEngine.Secret.Aes
import Mathlib.Data.Fin.Basic
import Mathlib.Data.List.Basic

/-!
# Decryption undoes encryption

Every step of a round has an inverse. The mixing of columns is undone because doubling a
byte is additive, so that mixing and unmixing can be multiplied out.
-/

namespace ActionEngine.Aes

/-! ### Bytes -/

/-- What holds of the first 256 numbers as bytes holds of all bytes. -/
theorem forall_byte {P : UInt8 → Prop} (h : ∀ n : Fin 256, P (UInt8.ofNat n.val)) (b : UInt8) :
    P b := by
  have each := h ⟨b.toNat, b.toNat_lt⟩
  rwa [UInt8.ofNat_toNat] at each

/-- Bytes compared as numbers, which is how the search is evaluated. -/
theorem restore_eq (b : UInt8) :
    restore b = UInt8.ofNat (box.findIdx fun c => Nat.beq c.toNat b.toNat) := by
  have same (c : UInt8) : (c == b) = Nat.beq c.toNat b.toNat := by
    rw [Bool.eq_iff_iff, beq_iff_eq, Nat.beq_eq, UInt8.toNat_inj]
  unfold restore
  simp only [same]

theorem findIdx_box (n : Fin 256) :
    (box.findIdx fun c => Nat.beq c.toNat (box.getD n.val 0).toNat) = n.val := by
  revert n
  decide +kernel

theorem restore_substitute (b : UInt8) : restore (substitute b) = b := by
  rw [restore_eq]
  exact (congrArg UInt8.ofNat (findIdx_box ⟨b.toNat, b.toNat_lt⟩)).trans UInt8.ofNat_toNat

theorem xor_xor_cancel (a b : UInt8) : a ^^^ b ^^^ b = a := by
  rw [UInt8.xor_assoc, UInt8.xor_self, UInt8.xor_zero]

/-- What the top bit of a byte adds to its double. -/
def carry (b : UInt8) : UInt8 :=
  (b >>> 7) * 0x1b

theorem double_eq (b : UInt8) : double b = (b <<< 1) ^^^ carry b := by
  revert b
  apply forall_byte
  decide +kernel

theorem carry_xor (a b : UInt8) : carry (a ^^^ b) = carry a ^^^ carry b := by
  have bit (c : UInt8) : c >>> 7 = 0 ∨ c >>> 7 = 1 := by
    revert c
    apply forall_byte
    decide +kernel
  unfold carry
  rw [UInt8.shiftRight_xor]
  rcases bit a with ha | ha <;> rcases bit b with hb | hb <;> rw [ha, hb] <;> rfl

/-- Doubling is additive. -/
theorem double_xor (a b : UInt8) : double (a ^^^ b) = double a ^^^ double b := by
  rw [double_eq, double_eq, double_eq, carry_xor, UInt8.shiftLeft_xor]
  ac_rfl

theorem times_xor (eight four two one : Bool) (a b : UInt8) :
    times eight four two one (a ^^^ b) =
      times eight four two one a ^^^ times eight four two one b := by
  have term (bit : Bool) (a b : UInt8) :
      (if bit then a ^^^ b else 0) = (if bit then a else 0) ^^^ (if bit then b else 0) := by
    cases bit <;> simp
  unfold times
  dsimp only
  rw [double_xor, double_xor, double_xor, term, term, term, term]
  ac_rfl

/-! ### Columns -/

def m14 : UInt8 → UInt8 := times true true true false
def m11 : UInt8 → UInt8 := times true false true true
def m13 : UInt8 → UInt8 := times true true false true
def m9 : UInt8 → UInt8 := times true false false true

theorem factors_xor (a b : UInt8) :
    m14 (a ^^^ b) = m14 a ^^^ m14 b ∧ m11 (a ^^^ b) = m11 a ^^^ m11 b ∧
      m13 (a ^^^ b) = m13 a ^^^ m13 b ∧ m9 (a ^^^ b) = m9 a ^^^ m9 b :=
  ⟨times_xor .., times_xor .., times_xor .., times_xor ..⟩

/-- What each byte of a column contributes to the first byte after mixing and unmixing. -/
theorem contributions (b : UInt8) :
    m14 (double b) ^^^ m11 b ^^^ m13 b ^^^ (m9 (double b) ^^^ m9 b) = b ∧
    (m14 (double b) ^^^ m14 b) ^^^ m11 (double b) ^^^ m13 b ^^^ m9 b = 0 ∧
    m14 b ^^^ (m11 (double b) ^^^ m11 b) ^^^ m13 (double b) ^^^ m9 b = 0 ∧
    m14 b ^^^ m11 b ^^^ (m13 (double b) ^^^ m13 b) ^^^ m9 (double b) = 0 := by
  revert b
  apply forall_byte
  decide +kernel

/-- The first byte of a mixed column. The other ones are that of the column rotated. -/
def mixRow (a b c d : UInt8) : UInt8 :=
  double a ^^^ (double b ^^^ b) ^^^ c ^^^ d

/-- The first byte of an unmixed column. -/
def unmixRow (a b c d : UInt8) : UInt8 :=
  m14 a ^^^ m11 b ^^^ m13 c ^^^ m9 d

theorem mixColumn_eq (a b c d : UInt8) :
    mixColumn a b c d = [mixRow a b c d, mixRow b c d a, mixRow c d a b, mixRow d a b c] := by
  unfold mixColumn mixRow
  simp only [List.cons.injEq, true_and, and_true]
  refine ⟨?_, ?_, ?_⟩ <;> ac_rfl

theorem unmixColumn_eq (a b c d : UInt8) :
    unmixColumn a b c d =
      [unmixRow a b c d, unmixRow b c d a, unmixRow c d a b, unmixRow d a b c] := by
  change [m14 a ^^^ m11 b ^^^ m13 c ^^^ m9 d, m9 a ^^^ m14 b ^^^ m11 c ^^^ m13 d,
    m13 a ^^^ m9 b ^^^ m14 c ^^^ m11 d, m11 a ^^^ m13 b ^^^ m9 c ^^^ m14 d] = _
  unfold unmixRow
  simp only [List.cons.injEq, true_and, and_true]
  refine ⟨?_, ?_, ?_⟩ <;> ac_rfl

/-- Multiplied out, everything but the first byte of the column cancels. -/
theorem unmixRow_mixRow (a b c d : UInt8) :
    unmixRow (mixRow a b c d) (mixRow b c d a) (mixRow c d a b) (mixRow d a b c) = a := by
  unfold unmixRow mixRow
  simp only [factors_xor]
  calc _ = (m14 (double a) ^^^ m11 a ^^^ m13 a ^^^ (m9 (double a) ^^^ m9 a)) ^^^
        ((m14 (double b) ^^^ m14 b) ^^^ m11 (double b) ^^^ m13 b ^^^ m9 b) ^^^
        (m14 c ^^^ (m11 (double c) ^^^ m11 c) ^^^ m13 (double c) ^^^ m9 c) ^^^
        (m14 d ^^^ m11 d ^^^ (m13 (double d) ^^^ m13 d) ^^^ m9 (double d)) := by ac_rfl
    _ = a ^^^ 0 ^^^ 0 ^^^ 0 := by
        rw [(contributions a).1, (contributions b).2.1, (contributions c).2.2.1,
          (contributions d).2.2.2]
    _ = a := by simp

theorem columns_mix (a b c d : UInt8) (rest : List UInt8) :
    columns unmixColumn (mixColumn a b c d ++ rest) =
      a :: b :: c :: d :: columns unmixColumn rest := by
  rw [mixColumn_eq]
  change unmixColumn _ _ _ _ ++ columns unmixColumn rest = _
  rw [unmixColumn_eq, unmixRow_mixRow, unmixRow_mixRow, unmixRow_mixRow, unmixRow_mixRow]
  rfl

/-- Unmixing undoes mixing in a row of whole columns. -/
theorem columns_unmix_mix {n : Nat} {block : List UInt8} (whole : block.length = 4 * n) :
    columns unmixColumn (columns mixColumn block) = block := by
  induction n generalizing block with
  | zero =>
      rw [List.length_eq_zero_iff.1 whole]
      rfl
  | succ n ih =>
      match block with
      | a :: b :: c :: d :: rest =>
          rw [columns, columns_mix, ih (by simp at whole; omega)]
      | [] | [_] | [_, _] | [_, _, _] => simp at whole <;> omega

theorem length_columns {n : Nat} {block : List UInt8} (whole : block.length = 4 * n) :
    (columns mixColumn block).length = 4 * n := by
  induction n generalizing block with
  | zero =>
      rw [List.length_eq_zero_iff.1 whole]
      rfl
  | succ n ih =>
      match block with
      | a :: b :: c :: d :: rest =>
          rw [columns, List.length_append, ih (by simp at whole; omega)]
          simp [mixColumn]
          omega
      | [] | [_] | [_, _] | [_, _, _] => simp at whole <;> omega

/-! ### Rows -/

theorem reorder_reorder {places more : List Nat} (inside : ∀ i ∈ places, i < more.length)
    (block : List UInt8) :
    reorder places (reorder more block) = reorder (places.map fun i => more.getD i 0) block := by
  unfold reorder
  rw [List.map_map]
  apply List.map_congr_left
  intro i hi
  have bound := inside i hi
  simp [List.getD_eq_getElem?_getD, List.getElem?_map, List.getElem?_eq_getElem bound]

theorem reorder_range (block : List UInt8) : reorder (List.range block.length) block = block := by
  unfold reorder
  apply List.ext_getElem
  · simp
  · intro i bound bound'
    simp [List.getD_eq_getElem?_getD, List.getElem?_eq_getElem bound']

/-- Rotating the rows back undoes rotating them. -/
theorem reorder_rotation {block : List UInt8} (whole : block.length = 16) :
    reorder rotationBack (reorder rotation block) = block := by
  have places : rotationBack.map (fun i => rotation.getD i 0) = List.range 16 := by decide
  rw [reorder_reorder (by decide), places, ← whole, reorder_range]

/-! ### Adding -/

theorem length_add (xs ys : List UInt8) : (add xs ys).length = min xs.length ys.length :=
  List.length_zipWith

theorem add_add {xs ys : List UInt8} (enough : xs.length ≤ ys.length) :
    add (add xs ys) ys = xs := by
  induction xs generalizing ys with
  | nil => rfl
  | cons x xs ih =>
      cases ys with
      | nil => cases enough
      | cons y ys =>
          change (x ^^^ y ^^^ y) :: add (add xs ys) ys = _
          rw [xor_xor_cancel, ih (Nat.le_of_succ_le_succ enough)]

/-! ### Blocks -/

def IsBlock (block : List UInt8) : Prop := block.length = 16

variable {block key : List UInt8}

theorem IsBlock.add (whole : IsBlock block) (whole' : IsBlock key) : IsBlock (add block key) := by
  unfold IsBlock at *
  rw [length_add, whole, whole']
  rfl

theorem isBlock_reorder {places : List Nat} (size : places.length = 16) (block : List UInt8) :
    IsBlock (reorder places block) := by
  unfold IsBlock reorder
  rw [List.length_map, size]

theorem isBlock_columns (whole : IsBlock block) : IsBlock (columns mixColumn block) :=
  length_columns (n := 4) whole

theorem restore_map (block : List UInt8) : (block.map substitute).map restore = block := by
  rw [List.map_map]
  conv_rhs => rw [← List.map_id block]
  exact List.map_congr_left fun b _ => restore_substitute b

theorem reorder_substitute (whole : IsBlock block) :
    reorder rotationBack (reorder rotation (block.map substitute)) = block.map substitute :=
  reorder_rotation ((List.length_map _).trans whole)

theorem add_add_block (whole : IsBlock block) (whole' : IsBlock key) :
    add (add block key) key = block :=
  add_add (whole.trans whole'.symm).le

theorem isBlock_encryptRounds {keys : List (List UInt8)} (whole : IsBlock block)
    (all : ∀ key ∈ keys, IsBlock key) : IsBlock (encryptRounds block keys) := by
  induction keys generalizing block with
  | nil => exact whole
  | cons key rest ih =>
      have here := all key List.mem_cons_self
      have turned : IsBlock (reorder rotation (block.map substitute)) := isBlock_reorder rfl _
      cases rest with
      | nil => exact turned.add here
      | cons next rest =>
          exact ih ((isBlock_columns turned).add here) fun k hk => all k (List.mem_cons_of_mem _ hk)

/-- Each round is undone, the last one first. -/
theorem decryptRounds_encryptRounds {keys : List (List UInt8)} (whole : IsBlock block)
    (all : ∀ key ∈ keys, IsBlock key) :
    decryptRounds (encryptRounds block keys) keys = block := by
  induction keys generalizing block with
  | nil => rfl
  | cons key rest ih =>
      have here := all key List.mem_cons_self
      have turned : IsBlock (reorder rotation (block.map substitute)) := isBlock_reorder rfl _
      cases rest with
      | nil =>
          rw [encryptRounds, decryptRounds, add_add_block turned here, reorder_substitute whole,
            restore_map]
      | cons next rest =>
          have mixed := isBlock_columns turned
          have later := ih (mixed.add here) fun k hk => all k (List.mem_cons_of_mem _ hk)
          rw [encryptRounds, decryptRounds, later, add_add_block mixed here,
            columns_unmix_mix (n := 4) turned, reorder_substitute whole, restore_map]
          · exact List.cons_ne_nil _ _
          · exact List.cons_ne_nil _ _

theorem isBlock_nextKey (constant : UInt8) (whole : IsBlock key) :
    IsBlock (nextKey constant key) := by
  unfold IsBlock at *
  unfold nextKey
  simp [length_add, whole]

theorem isBlock_keysFrom {constants : List UInt8} (whole : IsBlock key) :
    ∀ k ∈ keysFrom key constants, IsBlock k := by
  induction constants generalizing key with
  | nil => simp [keysFrom]
  | cons constant rest ih =>
      have next := isBlock_nextKey constant whole
      exact List.forall_mem_cons.2 ⟨next, ih next⟩

theorem isBlock_encryptBlock (whole : IsBlock block) (whole' : IsBlock key) :
    IsBlock (encryptBlock key block) :=
  isBlock_encryptRounds (whole.add whole') (isBlock_keysFrom whole')

theorem decryptBlock_encryptBlock (whole : IsBlock block) (whole' : IsBlock key) :
    decryptBlock key (encryptBlock key block) = block := by
  unfold decryptBlock encryptBlock
  rw [decryptRounds_encryptRounds (whole.add whole') (isBlock_keysFrom whole'),
    add_add_block whole whole']

/-! ### Messages -/

variable {start message : List UInt8}

theorem isBlock_take {n : Nat} (whole : message.length = 16 * (n + 1)) :
    IsBlock (message.take 16) := by
  unfold IsBlock
  rw [List.length_take, whole]
  omega

theorem length_encryptChain {n : Nat} (whole : message.length = 16 * n) (first : IsBlock start)
    (key_size : IsBlock key) : (encryptChain key start n message).length = 16 * n := by
  induction n generalizing start message with
  | zero => rfl
  | succ n ih =>
      have block := isBlock_encryptBlock ((isBlock_take whole).add first) key_size
      rw [encryptChain, List.length_append, ih (by simp [whole]; omega) block, block]
      omega

/-- Decrypting a chain of blocks gives back what was encrypted. -/
theorem decryptChain_encryptChain {n : Nat} (whole : message.length = 16 * n)
    (first : IsBlock start) (key_size : IsBlock key) :
    decryptChain key start n (encryptChain key start n message) = message := by
  induction n generalizing start message with
  | zero => exact (List.length_eq_zero_iff.1 whole).symm
  | succ n ih =>
      have taken := isBlock_take whole
      have block := isBlock_encryptBlock (taken.add first) key_size
      rw [encryptChain, decryptChain, List.take_left' block, List.drop_left' block,
        decryptBlock_encryptBlock (taken.add first) key_size, add_add_block taken first,
        ih (by simp [whole]; omega) block, List.take_append_drop]

/-- What is added tells how much it is, and fills up a block. -/
theorem exists_fill (message : List UInt8) :
    ∃ n, 0 < n ∧ n ≤ 16 ∧ fill message = message ++ List.replicate n (UInt8.ofNat n) ∧
      16 ∣ (fill message).length := by
  refine ⟨16 - message.length % 16, by omega, by omega, rfl, ?_⟩
  unfold fill
  dsimp only
  rw [List.length_append, List.length_replicate]
  omega

theorem unfill_fill (message : List UInt8) : unfill? (fill message) = some message := by
  obtain ⟨n, positive, bound, filled, -⟩ := exists_fill message
  have last : ((fill message).getLastD 0).toNat = n := by
    obtain ⟨m, rfl⟩ : ∃ m, n = m + 1 := ⟨n - 1, by omega⟩
    rw [filled, List.replicate_succ', ← List.append_assoc, List.getLastD_concat,
      UInt8.toNat_ofNat_of_lt' (Nat.lt_of_le_of_lt bound (by decide))]
  unfold unfill?
  dsimp only
  rw [last, filled, List.length_append, List.length_replicate, Nat.add_sub_cancel,
    if_neg (by simp; omega), List.drop_left, if_pos rfl, List.take_left]

theorem length_encrypt (first : IsBlock start) (key_size : IsBlock key) (message : List UInt8) :
    (encrypt key start message).length = 16 * (message.length / 16 + 1) := by
  have filled : (fill message).length = 16 * (message.length / 16 + 1) := by
    unfold fill
    dsimp only
    rw [List.length_append, List.length_replicate]
    omega
  unfold encrypt
  dsimp only
  rw [filled, Nat.mul_div_cancel_left _ (by decide)]
  exact length_encryptChain filled first key_size

/-- A message is read back from what it was encrypted to. -/
theorem decrypt_encrypt (first : IsBlock start) (key_size : IsBlock key) :
    decrypt? key start (encrypt key start message) = some message := by
  obtain ⟨n, positive, -, filled, k, size⟩ := exists_fill message
  have blocks : (fill message).length / 16 = k := by omega
  have text : encrypt key start message = encryptChain key start k (fill message) := by
    unfold encrypt
    dsimp only
    rw [blocks]
  have length := length_encryptChain size first key_size
  have some_block : (encryptChain key start k (fill message)).isEmpty = false := by
    rw [filled, List.length_append, List.length_replicate] at size
    rw [List.isEmpty_eq_false_iff, ← List.length_pos_iff, length]
    omega
  unfold decrypt?
  rw [text, if_neg (by simp [length, some_block]), length, Nat.mul_div_cancel_left k (by decide),
    decryptChain_encryptChain size first key_size, unfill_fill]

end ActionEngine.Aes
