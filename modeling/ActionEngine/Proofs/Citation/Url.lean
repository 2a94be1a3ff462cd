import ActionEngine.Citation.Url
import ActionEngine.Json.Reader
import ActionEngine.Proofs.Text.Loose
import ActionEngine.Proofs.Text.Utf8
import Mathlib.Data.List.Basic

/-!
# A citation URL is read back

An escaped query is read by its escapes, which gives bytes, and then as UTF-8. That gives the
query, whatever characters it has; a query that is no string has no bytes to escape, and no URL.
An escaped query has neither colons nor slashes, so a URL also tells where its scheme ends: no
two searches share a URL.
-/

namespace ActionEngine.Citation

open Json Text

/-! ### Escaped texts -/

def isPlain (c : Char) : Bool :=
  c.isAlphanum || c == '_' || c == '.' || c == '-' || c == '~'

def isHexDigit (c : Char) : Bool :=
  c.isDigit || 'A' ≤ c && c ≤ 'F'

/-- A text of characters that stand for themselves, and of escapes. -/
inductive Escaped : List Char → Prop
  | nil : Escaped []
  | plain {c : Char} {rest : List Char} (own : isPlain c) (more : Escaped rest) :
      Escaped (c :: rest)
  | escape {a b : Char} {rest : List Char} (high : isHexDigit a) (low : isHexDigit b)
      (more : Escaped rest) : Escaped ('%' :: a :: b :: rest)

/-- The bytes that an escaped text stands for. -/
def percentBytes? : List Char → Option (List UInt8)
  | [] => some []
  | c :: rest =>
    if c = '%' then
      match rest with
      | a :: b :: rest =>
        match hexValue? a, hexValue? b with
        | some high, some low =>
          (percentBytes? rest).map (UInt8.ofNat (high * 16 + low) :: ·)
        | _, _ => none
      | _ => none
    else if c.toNat < 0x80 then (percentBytes? rest).map (UInt8.ofNat c.toNat :: ·)
    else none

def percentDecode? (s : List Char) : Option (List Char) :=
  (percentBytes? s).bind fun bytes => (Text.utf8Decode bytes).toOption

/-! ### One byte -/

section Byte

variable {c : Char} {rest : List Char}

theorem toNat_of_isPlain (own : isPlain c) : c.toNat < 0x80 := by
  unfold isPlain at own
  simp only [Bool.or_eq_true, beq_iff_eq] at own
  rcases own with (((own | rfl) | rfl) | rfl) | rfl
  · delta Char.isAlphanum Char.isAlpha Char.isUpper Char.isLower at own
    simp [Char.isDigit, UInt32.le_iff_toNat_le] at own
    omega
  all_goals decide

/-- No mark of a URL's structure stands for itself. -/
theorem ne_of_isPlain (own : isPlain c) : c ≠ '%' ∧ c ≠ ':' ∧ c ≠ '/' := by
  refine ⟨?_, ?_, ?_⟩
  all_goals
    rintro rfl
    exact absurd own (by decide)

theorem upperHexDigit_read {n : Nat} (small : n < 16) :
    isHexDigit (upperHexDigit n) = true ∧ hexValue? (upperHexDigit n) = some n := by
  have each : ∀ n : Fin 16,
      isHexDigit (upperHexDigit n) = true ∧ hexValue? (upperHexDigit n) = some n.val := by decide
  exact each ⟨n, small⟩

/-- A byte is two digits of the base 16. -/
theorem ofNat_digits (b : UInt8) : UInt8.ofNat (b.toNat / 16 * 16 + b.toNat % 16) = b := by
  rw [Nat.div_add_mod', UInt8.ofNat_toNat]

theorem percentByte_escaped (b : UInt8) (more : Escaped rest) :
    Escaped (percentByte b ++ rest) := by
  have bound : b.toNat < 256 := b.toNat_lt
  unfold percentByte
  split
  · next own => exact .plain own more
  · exact .escape (upperHexDigit_read (by omega)).1 (upperHexDigit_read (by omega)).1 more

/-- A byte is read from the front of an escaped text. -/
theorem percentBytes?_percentByte (b : UInt8) (rest : List Char) :
    percentBytes? (percentByte b ++ rest) = (percentBytes? rest).map (b :: ·) := by
  have bound : b.toNat < 256 := b.toNat_lt
  unfold percentByte
  split
  · next own =>
    have own : isPlain (Char.ofNat b.toNat) := own
    have code : (Char.ofNat b.toNat).toNat = b.toNat := by
      unfold Char.ofNat
      rw [dif_pos (.inl (by omega))]
      rfl
    rw [List.singleton_append, percentBytes?.eq_def]
    dsimp only
    rw [if_neg (ne_of_isPlain own).1, if_pos (toNat_of_isPlain own), code, UInt8.ofNat_toNat]
  · simp only [List.cons_append, List.nil_append]
    rw [percentBytes?, if_pos rfl]
    simp only [(upperHexDigit_read (show b.toNat / 16 < 16 by omega)).2,
      (upperHexDigit_read (show b.toNat % 16 < 16 by omega)).2, ofNat_digits]

end Byte

/-! ### Queries -/

theorem flatMap_percentByte_read (bytes : List UInt8) :
    Escaped (bytes.flatMap percentByte) ∧
      percentBytes? (bytes.flatMap percentByte) = some bytes := by
  induction bytes with
  | nil => exact ⟨.nil, rfl⟩
  | cons b bytes ih =>
      obtain ⟨escaped, read⟩ := ih
      rw [List.flatMap_cons]
      refine ⟨percentByte_escaped b escaped, ?_⟩
      rw [percentBytes?_percentByte, read]
      rfl

theorem percentEncode_escaped (bytes : List UInt8) : Escaped (percentEncode bytes) :=
  (flatMap_percentByte_read bytes).1

/-- A query is read back from its escaped form. -/
theorem percentDecode?_encode (s : List Char) :
    percentDecode? (percentEncode (Text.utf8Encode s)) = some s := by
  unfold percentDecode? percentEncode
  rw [(flatMap_percentByte_read _).2, Option.bind_some, Text.utf8Decode_encode]
  rfl

theorem Escaped.no_slash {s : List Char} (escaped : Escaped s) : '/' ∉ s := by
  induction escaped with
  | nil => exact List.not_mem_nil
  | plain own more ih =>
      intro member
      rcases List.mem_cons.1 member with rfl | later
      · exact (ne_of_isPlain own).2.2 rfl
      · exact ih later
  | escape high low more ih =>
      intro member
      simp only [List.mem_cons] at member
      rcases member with percent | rfl | rfl | later
      · exact absurd percent (by decide)
      · exact absurd high (by decide)
      · exact absurd low (by decide)
      · exact ih later

/-! ### URLs -/

/-- A URL under a scheme that searches for a text: the scheme alone if there is no text, and
    otherwise a query in escaped form that the text is read back from. -/
inductive Searches (scheme : List Code) (text : List Char) : List Code → Prop
  | bare (empty : text = []) : Searches scheme text (scheme ++ "://".toList.map .char)
  | query {escaped : List Char} (given : text ≠ []) (escapes : Escaped escaped)
      (reads : percentDecode? escaped = some text) :
      Searches scheme text (scheme ++ ("://search?query=".toList ++ escaped).map .char)

/-- The URL that a text is searched by searches for it. -/
theorem urlOf_searches (scheme : LooseText) (text : List Char) :
    Searches (normalScheme scheme) text (urlOf scheme (Text.utf8Encode text)).codes := by
  rw [urlOf, LooseText.codes_ofCodes, address]
  cases text with
  | nil => exact .bare rfl
  | cons c text =>
      have filled : (Text.utf8Encode (c :: text)).isEmpty = false := by
        have reads := Text.utf8Decode_encode (c :: text)
        cases bytes : Text.utf8Encode (c :: text) with
        | nil =>
            rw [bytes] at reads
            cases reads
        | cons b bytes => rfl
      rw [filled]
      exact .query (List.cons_ne_nil c text) (percentEncode_escaped _) (percentDecode?_encode _)

/-- There is a URL exactly for the queries that are strings when they have no blanks around
    them. -/
theorem searchUrl_eq_ok_iff {query scheme url : LooseText} :
    searchUrl query scheme = .ok url ↔
      ∃ text : String, query.trim = text ∧ url = urlOf scheme (Text.utf8Encode text.toList) := by
  unfold searchUrl
  cases trimmed : query.trim with
  | whole text => exact ⟨fun h => ⟨text, rfl, (Except.ok.inj h).symm⟩, by rintro ⟨_, ⟨⟩, rfl⟩; rfl⟩
  | broken front half rest => exact ⟨fun h => (by cases h), by rintro ⟨_, ⟨⟩, -⟩⟩

/-- Two rows that agree, each cut at the last place of something, are cut at the same place. -/
theorem cut_at_last {α : Type} {mark : α} {s s' t t' : List α} (last : mark ∉ t)
    (last' : mark ∉ t') (same : s ++ mark :: t = s' ++ mark :: t') : s = s' ∧ t = t' := by
  rcases List.append_eq_append_iff.1 same with ⟨between, rfl, h⟩ | ⟨between, rfl, h⟩
  · cases between with
    | nil => exact ⟨(List.append_nil s).symm, (List.cons.inj h).2⟩
    | cons c between =>
        obtain ⟨-, rfl⟩ := List.cons.inj h
        exact absurd (by simp) last
  · cases between with
    | nil => exact ⟨List.append_nil s', (List.cons.inj h).2.symm⟩
    | cons c between =>
        obtain ⟨-, rfl⟩ := List.cons.inj h
        exact absurd (by simp) last'

namespace Searches

variable {scheme scheme' url : List Code} {text text' : List Char}

/-- What a URL that searches for a text has behind its last slash. -/
theorem behind_slash (searches : Searches scheme text url) :
    ∃ rest : List Char, url = (scheme ++ [.char ':', .char '/']) ++ .char '/' :: rest.map .char ∧
      '/' ∉ rest ∧ (rest = [] ∧ text = [] ∨ ∃ escaped, rest = "search?query=".toList ++ escaped ∧
        percentDecode? escaped = some text) := by
  cases searches with
  | bare empty => exact ⟨[], by simp, List.not_mem_nil, .inl ⟨rfl, empty⟩⟩
  | @query escaped given escapes reads =>
      refine ⟨"search?query=".toList ++ escaped, by simp, ?_, .inr ⟨escaped, rfl, reads⟩⟩
      rw [List.mem_append, not_or]
      exact ⟨by decide, escapes.no_slash⟩

/-- A URL searches for one text under one scheme. -/
theorem unique (searches : Searches scheme text url) (searches' : Searches scheme' text' url) :
    scheme = scheme' ∧ text = text' := by
  obtain ⟨rest, rfl, free, after⟩ := searches.behind_slash
  obtain ⟨rest', same, free', after'⟩ := searches'.behind_slash
  have apart {rest : List Char} (free : '/' ∉ rest) : Code.char '/' ∉ rest.map .char := by
    simpa using free
  obtain ⟨schemes, rests⟩ := cut_at_last (apart free) (apart free') same
  obtain rfl := List.map_injective_iff.2 (fun _ _ => Code.char.inj) rests
  refine ⟨List.append_cancel_right schemes, ?_⟩
  rcases after with ⟨rfl, rfl⟩ | ⟨escaped, rfl, reads⟩
  · rcases after' with ⟨-, empty⟩ | ⟨escaped, wrong, -⟩
    · exact empty.symm
    · cases wrong
  · rcases after' with ⟨wrong, -⟩ | ⟨escaped', same', reads'⟩
    · cases wrong
    · rw [List.append_cancel_left same', reads'] at reads
      exact (Option.some.inj reads).symm

end Searches

end ActionEngine.Citation
