import ActionEngine.Text.Blank
import Mathlib.Data.List.DropRight

/-!
# Trimming

Trimming at the end stops at the last character that is not blank, so it leaves alone
whatever stands in front of such a character.
-/

namespace ActionEngine.Text

theorem trimRight_eq_rdropWhile (s : List Char) : trimRight s = s.rdropWhile isBlank := rfl

@[simp] theorem trimRight_nil : trimRight [] = [] := rfl

@[simp] theorem trimRight_trimRight (s : List Char) : trimRight (trimRight s) = trimRight s :=
  List.rdropWhile_idempotent isBlank s

theorem trimRight_eq_nil_iff {s : List Char} : trimRight s = [] ↔ allBlank s = true := by
  rw [trimRight_eq_rdropWhile, List.rdropWhile_eq_nil_iff, allBlank, List.all_eq_true]

theorem trimRight_eq_self_iff {s : List Char} :
    trimRight s = s ↔ ∀ c, s.getLast? = some c → isBlank c = false := by
  rw [trimRight_eq_rdropWhile, List.rdropWhile_eq_self_iff]
  constructor
  · intro h c hc
    have hne : s ≠ [] := by
      rintro rfl
      cases hc
    have last := h hne
    rw [List.getLast?_eq_some_getLast hne] at hc
    cases hc
    simpa using last
  · intro h hne
    simpa using h _ (List.getLast?_eq_some_getLast hne)

theorem trimRight_sublist (s : List Char) : (trimRight s).Sublist s :=
  (List.rdropWhile_prefix isBlank s).sublist

theorem trim_sublist (s : List Char) : (trim s).Sublist s :=
  (trimRight_sublist _).trans (List.dropWhile_sublist isBlank)

/-- What stands in front of something that is not all blank is kept. -/
theorem trimRight_append {s t : List Char} (h : allBlank t = false) :
    trimRight (s ++ t) = s ++ trimRight t := by
  have stays : (t.reverse.dropWhile isBlank).isEmpty = false := by
    have hne : trimRight t ≠ [] := by
      intro hnil
      rw [trimRight_eq_nil_iff.1 hnil] at h
      cases h
    simpa [trimRight] using hne
  unfold trimRight
  rw [List.reverse_append, List.dropWhile_append, stays]
  simp

theorem trimRight_append_of_allBlank {s t : List Char} (h : allBlank t = true) :
    trimRight (s ++ t) = trimRight s := by
  unfold trimRight
  rw [List.reverse_append, List.dropWhile_append_of_pos]
  simpa [allBlank] using h

theorem trimRight_cons {c : Char} (hc : isBlank c = false) (s : List Char) :
    trimRight (c :: s) = c :: trimRight s := by
  have single : trimRight [c] = [c] := trimRight_eq_self_iff.2 (by simp [hc])
  cases blank : allBlank s with
  | true =>
      have h := trimRight_append_of_allBlank (s := [c]) blank
      rw [trimRight_eq_nil_iff.2 blank]
      exact h.trans single
  | false => exact trimRight_append (s := [c]) blank

theorem allBlank_append (s t : List Char) : allBlank (s ++ t) = (allBlank s && allBlank t) :=
  List.all_append

theorem allBlank_trimRight (s : List Char) : allBlank (trimRight s) = allBlank s := by
  rw [Bool.eq_iff_iff, ← trimRight_eq_nil_iff, trimRight_trimRight, trimRight_eq_nil_iff]

/-- A text without blanks at its ends. -/
structure Tight (s : List Char) : Prop where
  first : ∀ c, s.head? = some c → isBlank c = false
  last : ∀ c, s.getLast? = some c → isBlank c = false

theorem all_not_isBlank_iff {c? : Option Char} :
    (c?.all fun c => !isBlank c) = true ↔ ∀ c, c? = some c → isBlank c = false := by
  cases c? <;> simp

instance (s : List Char) : Decidable (Tight s) :=
  decidable_of_iff ((s.head?.all fun c => !isBlank c) = true ∧
      (s.getLast?.all fun c => !isBlank c) = true)
    ⟨fun h => ⟨all_not_isBlank_iff.1 h.1, all_not_isBlank_iff.1 h.2⟩,
      fun h => ⟨all_not_isBlank_iff.2 h.first, all_not_isBlank_iff.2 h.last⟩⟩

namespace Tight

variable {s : List Char}

theorem trimLeft_eq (h : Tight s) : trimLeft s = s := by
  cases s with
  | nil => rfl
  | cons c s => exact List.dropWhile_cons_of_neg (by simp [h.first c rfl])

theorem trimRight_eq (h : Tight s) : trimRight s = s :=
  trimRight_eq_self_iff.2 h.last

theorem trim_eq (h : Tight s) : trim s = s := by
  unfold trim
  rw [h.trimLeft_eq, h.trimRight_eq]

theorem allBlank_eq_false (h : Tight s) (hne : s ≠ []) : allBlank s = false := by
  by_contra blank
  rw [Bool.not_eq_false, ← trimRight_eq_nil_iff, h.trimRight_eq] at blank
  exact hne blank

/-- Nothing that is behind the first character or in front of the last one matters. -/
theorem between {a b : Char} (ha : isBlank a = false) (hb : isBlank b = false)
    (s : List Char) : Tight (a :: s ++ [b]) := by
  refine ⟨?_, ?_⟩
  · intro c hc
    cases hc
    exact ha
  · intro c hc
    rw [List.getLast?_concat] at hc
    cases hc
    exact hb

end Tight

theorem tight_trim (s : List Char) : Tight (trim s) := by
  have front : ∀ c, (trimLeft s).head? = some c → isBlank c = false := by
    intro c hc
    have stays := List.head?_dropWhile_not isBlank s
    unfold trimLeft at hc
    rw [hc] at stays
    simpa using stays
  constructor
  · intro c hc
    have start : trim s <+: trimLeft s := List.rdropWhile_prefix isBlank _
    obtain ⟨rest, same⟩ := start
    apply front c
    rw [← same, List.head?_append, hc]
    rfl
  · exact trimRight_eq_self_iff.1 (trimRight_trimRight _)

end ActionEngine.Text
