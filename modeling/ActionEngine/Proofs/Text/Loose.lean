import ActionEngine.Text.Encoding
import Mathlib.Data.List.Chain
import Mathlib.Data.List.TakeWhile
import Mathlib.Order.Basic
import Mathlib.Order.Lex

/-!
# Texts and their codes

A text is given by its codes, and is a string if all of them are characters. Only then it has
bytes in UTF-8. A text is settled if it can be told from its 16-bit units: no first half of a
pair stands directly in front of a second one.
-/

namespace ActionEngine

namespace Text

/-- A character is no half of a pair. -/
theorem toNat_bounds (c : Char) :
    (c.toNat < 0xD800 ∨ 0xDFFF < c.toNat) ∧ c.toNat < 0x110000 := by
  have valid : c.toNat.isValidChar := c.valid
  unfold Nat.isValidChar at valid
  omega

theorem Code.toNat_injective : Function.Injective Code.toNat := by
  intro a b same
  cases a with
  | char c =>
      cases b with
      | char c' => exact congrArg char (Char.toNat_inj.1 same)
      | half h =>
          have bounds := toNat_bounds c
          simp only [toNat, Half.unit] at same
          omega
  | half h =>
      cases b with
      | char c =>
          have bounds := toNat_bounds c
          simp only [toNat, Half.unit] at same
          omega
      | half h' =>
          simp only [toNat, Half.unit, Nat.add_left_cancel_iff] at same
          exact congrArg half (Fin.ext same)

/-- Two codes that a reader of 16-bit units takes for one character. -/
def Code.Joins : Code → Code → Prop
  | .half h, .half l => h.isHigh ∧ l.isHigh = false
  | _, _ => False

instance : DecidableRel Code.Joins
  | .half _, .half _ => inferInstanceAs (Decidable (_ ∧ _))
  | .half _, .char _ => inferInstanceAs (Decidable False)
  | .char _, _ => inferInstanceAs (Decidable False)

end Text

open Text

namespace LooseText

variable {s t : LooseText}

/-! ### Codes -/

@[simp] theorem codes_whole (s : String) : (whole s).codes = s.toList.map .char := rfl

theorem codes_ofCodesBehind (front : List Char) (cs : List Code) :
    (ofCodesBehind front cs).codes = front.reverse.map .char ++ cs := by
  induction cs generalizing front with
  | nil => simp [ofCodesBehind]
  | cons c cs ih => cases c <;> simp [ofCodesBehind, codes, ih]

@[simp] theorem codes_ofCodes (cs : List Code) : (ofCodes cs).codes = cs :=
  codes_ofCodesBehind [] cs

theorem ofCodesBehind_chars (front chars : List Char) (cs : List Code) :
    ofCodesBehind front (chars.map .char ++ cs) = ofCodesBehind (chars.reverse ++ front) cs := by
  induction chars generalizing front with
  | nil => rfl
  | cons c chars ih =>
      rw [List.map_cons, List.cons_append, ofCodesBehind, ih, List.reverse_cons, List.append_assoc,
        List.singleton_append]

@[simp] theorem ofCodes_chars (chars : List Char) :
    ofCodes (chars.map .char) = whole (String.ofList chars) := by
  have behind := ofCodesBehind_chars [] chars []
  rw [List.append_nil, List.append_nil, ofCodesBehind, List.reverse_reverse] at behind
  exact behind

@[simp] theorem ofCodes_codes (s : LooseText) : ofCodes s.codes = s := by
  induction s with
  | whole s => simp
  | broken front h rest ih =>
      rw [codes, ofCodes, ofCodesBehind_chars, List.append_nil, ofCodesBehind, List.reverse_reverse,
        String.ofList_toList]
      exact congrArg (broken front h) ih

theorem codes_injective : Function.Injective codes :=
  Function.LeftInverse.injective ofCodes_codes

/-- Texts are ordered as strings are: by their codes. -/
instance : LinearOrder LooseText :=
  LinearOrder.lift' (fun s => s.codes.map Code.toNat)
    ((List.map_injective_iff.2 Code.toNat_injective).comp codes_injective)

/-! ### Strings -/

theorem trimCodes_chars (chars : List Char) :
    trimCodes (chars.map .char) = (Text.trim chars).map .char := by
  have blank : Code.isBlank ∘ Code.char = Text.isBlank := rfl
  unfold trimCodes Text.trim Text.trimRight Text.trimLeft
  rw [List.dropWhile_map, ← List.map_reverse, List.dropWhile_map, ← List.map_reverse, blank]

theorem trim_whole (s : String) : (whole s).trim = whole (String.ofList (Text.trim s.toList)) := by
  rw [trim, codes_whole, trimCodes_chars, ofCodes_chars]

/-- Only a string has bytes in UTF-8. -/
theorem utf8_eq_ok_iff {bytes : List UInt8} :
    s.utf8 = .ok bytes ↔ ∃ t, s = whole t ∧ bytes = utf8Encode t.toList := by
  cases s with
  | whole s =>
      constructor
      · intro h
        cases h
        exact ⟨s, rfl, rfl⟩
      · rintro ⟨t, same, rfl⟩
        cases same
        rfl
  | broken front h rest =>
      constructor
      · intro h
        cases h
      · rintro ⟨t, same, -⟩
        cases same

theorem exists_utf8_eq_ok_iff : (∃ bytes, s.utf8 = .ok bytes) ↔ ∃ t : String, s = whole t := by
  simp only [utf8_eq_ok_iff]
  constructor
  · rintro ⟨bytes, t, same, -⟩
    exact ⟨t, same⟩
  · rintro ⟨t, same⟩
    exact ⟨_, t, same, rfl⟩

theorem eq_whole_iff : (∃ t : String, s = whole t) ↔ ∀ c ∈ s.codes, c.isChar := by
  constructor
  · rintro ⟨t, rfl⟩
    simp [Code.isChar]
  · cases s with
    | whole t => exact fun _ => ⟨t, rfl⟩
    | broken front h rest =>
        intro chars
        have half := chars (.half h) (by simp [codes])
        cases half

/-- Only blanks are left out. -/
theorem mem_trimCodes {c : Code} {cs : List Code} (mem : c ∈ cs) (filled : c.isBlank = false) :
    c ∈ trimCodes cs := by
  have kept {cs : List Code} (mem : c ∈ cs) : c ∈ cs.dropWhile Code.isBlank := by
    rw [← List.takeWhile_append_dropWhile (p := Code.isBlank) (l := cs), List.mem_append] at mem
    refine mem.resolve_left fun front => ?_
    rw [List.mem_takeWhile_imp front] at filled
    cases filled
  unfold trimCodes
  rw [List.mem_reverse]
  exact kept (List.mem_reverse.2 (kept mem))

/-- A text is a string exactly if it is one without the blanks around it. -/
theorem exists_trim_eq_whole_iff :
    (∃ t : String, s.trim = whole t) ↔ ∃ t : String, s = whole t := by
  constructor
  · simp only [eq_whole_iff, trim, codes_ofCodes]
    intro chars c mem
    cases c with
    | char c => rfl
    | half h => exact chars _ (mem_trimCodes mem rfl)
  · rintro ⟨t, rfl⟩
    exact ⟨_, trim_whole t⟩

/-! ### Settled texts -/

/-- No two codes of the text are taken for one character. -/
def Settled (s : LooseText) : Prop :=
  s.codes.IsChain fun a b => ¬a.Joins b

instance (s : LooseText) : Decidable s.Settled :=
  inferInstanceAs (Decidable (List.IsChain _ _))

@[simp] theorem settled_whole (s : String) : (whole s).Settled := by
  unfold Settled
  rw [codes_whole]
  exact (List.isChain_map _).2 (List.Pairwise.isChain (List.pairwise_of_forall fun _ _ => id))

end LooseText

end ActionEngine
