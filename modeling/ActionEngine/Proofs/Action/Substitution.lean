import ActionEngine.Action.Template
import Mathlib.Data.List.Infix

/-!
# Substitution in templates

A placeholder opens with two braces, and nothing in it behind its first character can be
read as two opening braces. So no placeholder crosses a point where two braces open: what
stands in front of that point is read as if nothing followed, and what stands behind it as
if nothing preceded.
-/

namespace ActionEngine

namespace Placeholder

def text (p : Placeholder) : String :=
  "\x7b\x7b" ++ p.name ++ "\x7d\x7d"

@[simp] theorem toList_text (p : Placeholder) : p.text.toList = p.marker := by
  simp [text, marker]

/-- The placeholder is written somewhere in a text. -/
def Occurs (p : Placeholder) (s : String) : Prop :=
  ∃ a b, s = a ++ p.text ++ b

theorem occurs_iff {p : Placeholder} {s : String} : p.Occurs s ↔ p.marker <:+: s.toList := by
  constructor
  · rintro ⟨a, b, rfl⟩
    exact ⟨a.toList, b.toList, by simp⟩
  · rintro ⟨a, b, whole⟩
    exact ⟨String.ofList a, String.ofList b, String.toList_inj.1 (by simp [← whole])⟩

instance (p : Placeholder) (s : String) : Decidable (p.Occurs s) :=
  decidable_of_iff _ occurs_iff.symm

def opening : List Char := ['\x7b', '\x7b']

theorem opening_begins_marker (p : Placeholder) : opening <+: p.marker :=
  ⟨p.name.toList ++ ['\x7d', '\x7d'], rfl⟩

theorem mem_all (p : Placeholder) : p ∈ all := by
  cases p <;> decide

/-- No placeholder is the beginning of another one. -/
theorem eq_of_marker_begins {p q : Placeholder} (h : p.marker <+: q.marker) : p = q := by
  revert h
  cases p <;> cases q <;> decide

/-- A text starts with at most one placeholder. -/
theorem eq_of_prefix_of_prefix {p q : Placeholder} {s : List Char} (hp : p.marker <+: s)
    (hq : q.marker <+: s) : p = q := by
  rcases List.prefix_or_prefix_of_prefix hp hq with h | h
  · exact eq_of_marker_begins h
  · exact (eq_of_marker_begins h).symm

theorem marker_prefix_of_at? {p : Placeholder} {s : List Char} (found : at? s = some p) :
    p.marker <+: s := by
  have starts := List.find?_some found
  exact List.isPrefixOf_iff_prefix.1 starts

theorem at?_eq_some_iff {p : Placeholder} {s : List Char} : at? s = some p ↔ p.marker <+: s := by
  refine ⟨marker_prefix_of_at?, fun starts => ?_⟩
  have some_marker : (at? s).isSome :=
    List.find?_isSome.2 ⟨p, p.mem_all, List.isPrefixOf_iff_prefix.2 starts⟩
  obtain ⟨q, found⟩ := Option.isSome_iff_exists.1 some_marker
  rw [found, eq_of_prefix_of_prefix (marker_prefix_of_at? found) starts]

theorem at?_eq_none_iff {s : List Char} : at? s = none ↔ ∀ p : Placeholder, ¬p.marker <+: s := by
  rw [Option.eq_none_iff_forall_ne_some]
  exact forall_congr' fun p => not_congr at?_eq_some_iff

/-! ### Where two braces open -/

/-- What is left of a placeholder behind its first character neither starts with two opening
    braces nor can be continued to do so. -/
theorem not_opening_of_suffix (p : Placeholder) {s : List Char} (rest : s <:+ p.marker)
    (proper : s ≠ p.marker) (hne : s ≠ []) : ¬(s <+: opening ∨ opening <+: s) := by
  have every : ∀ s ∈ p.marker.tails, s ≠ p.marker → s ≠ [] →
      ¬(s <+: opening ∨ opening <+: s) := by
    cases p <;> decide
  exact every s ((List.mem_tails _ _).2 rest) proper hne

/-- A placeholder that starts in front of a point where two braces open ends there too. -/
theorem prefix_of_prefix_append (p : Placeholder) {a s : List Char} (hne : a ≠ [])
    (opens : opening <+: s) (h : p.marker <+: a ++ s) : p.marker <+: a := by
  by_contra beyond
  have inside : a <+: p.marker :=
    (List.prefix_or_prefix_of_prefix h (List.prefix_append a s)).resolve_left beyond
  obtain ⟨rest, whole⟩ := inside
  have follows : rest <+: s := by
    rw [← whole] at h
    exact (List.prefix_append_right_inj a).1 h
  refine p.not_opening_of_suffix ⟨a, whole⟩ ?_ ?_ (List.prefix_or_prefix_of_prefix follows opens)
  · intro same
    rw [same] at whole
    exact hne (List.append_left_eq_self.1 whole)
  · rintro rfl
    rw [List.append_nil] at whole
    exact beyond (whole ▸ List.prefix_rfl)

theorem at?_append {a s : List Char} (hne : a ≠ []) (opens : opening <+: s) :
    at? (a ++ s) = at? a := by
  ext p
  rw [at?_eq_some_iff, at?_eq_some_iff]
  exact ⟨p.prefix_of_prefix_append hne opens, fun h => h.trans (List.prefix_append a s)⟩

end Placeholder

namespace Template

open Placeholder

/-! ### Pieces -/

/-- What a piece looks like in a template. -/
def Piece.source : Piece → List Char
  | literal c => [c]
  | hole p => p.marker

theorem piecesFrom_skip (s t : List Char) : piecesFrom s.length (s ++ t) = pieces t := by
  induction s with
  | nil => rfl
  | cons c s ih => exact ih

/-- A placeholder is read as one piece, whatever follows it. -/
theorem pieces_marker_append (p : Placeholder) (t : List Char) :
    pieces (p.marker ++ t) = .hole p :: pieces t := by
  have starts : at? (p.marker ++ t) = some p := at?_eq_some_iff.2 (List.prefix_append _ t)
  obtain ⟨c, rest, whole⟩ : ∃ c rest, p.marker = c :: rest := ⟨_, _, rfl⟩
  rw [whole, List.cons_append] at starts ⊢
  rw [pieces, piecesFrom, starts]
  dsimp only
  rw [whole, List.length_cons, Nat.add_sub_cancel, piecesFrom_skip]

/-- A template may be read in two parts where two braces open. -/
theorem piecesFrom_append {s : List Char} (opens : opening <+: s) :
    ∀ (a : List Char) (skipped : Nat), skipped ≤ a.length →
      piecesFrom skipped (a ++ s) = piecesFrom skipped a ++ pieces s := by
  intro a
  induction a with
  | nil =>
      intro skipped le
      rw [Nat.le_zero.1 le]
      rfl
  | cons c a ih =>
      intro skipped le
      cases skipped with
      | succ skipped => exact ih skipped (Nat.le_of_succ_le_succ le)
      | zero =>
          have same : at? (c :: (a ++ s)) = at? (c :: a) :=
            at?_append (List.cons_ne_nil c a) opens
          rw [List.cons_append, piecesFrom, piecesFrom, same]
          cases found : at? (c :: a) with
          | none =>
              dsimp only
              rw [ih 0 (Nat.zero_le _)]
              rfl
          | some p =>
              have fits := (at?_eq_some_iff.1 found).length_le
              dsimp only
              rw [ih _ (by rw [List.length_cons] at fits; omega)]
              rfl

/-- A template falls apart at every placeholder. -/
theorem pieces_append_marker (a : List Char) (p : Placeholder) (b : List Char) :
    pieces (a ++ (p.marker ++ b)) = pieces a ++ .hole p :: pieces b := by
  rw [← pieces_marker_append]
  have opens := p.opening_begins_marker.trans (List.prefix_append _ b)
  exact piecesFrom_append opens a 0 (Nat.zero_le _)

/-- Without placeholders every character stands for itself. -/
theorem pieces_of_no_marker {s : List Char} (none_there : ∀ p : Placeholder, ¬p.marker <:+: s) :
    pieces s = s.map .literal := by
  induction s with
  | nil => rfl
  | cons c s ih =>
      have here : at? (c :: s) = none :=
        at?_eq_none_iff.2 fun p starts => none_there p starts.isInfix
      have later := ih fun p h => none_there p (h.trans (List.suffix_cons c s).isInfix)
      rw [pieces, piecesFrom, here]
      exact congrArg _ later

/-! ### Resolving -/

theorem resolve_append_placeholder (context : DocumentContext) (a : String) (p : Placeholder)
    (b : String) : resolve (a ++ p.text ++ b) context =
      resolve a context ++ p.value context ++ resolve b context := by
  have parts : (a ++ p.text ++ b).toList = a.toList ++ (p.marker ++ b.toList) := by simp
  unfold resolve
  rw [parts, pieces_append_marker, List.flatMap_append, List.flatMap_cons]
  simp [Piece.text, String.append_assoc]

theorem resolve_of_plain (context : DocumentContext) {s : String}
    (plain : ∀ p : Placeholder, ¬p.Occurs s) : resolve s context = s := by
  unfold resolve
  rw [pieces_of_no_marker fun p h => plain p (occurs_iff.2 h), List.flatMap_map]
  simp [Piece.text]

/-- A text and further ones, each behind what a placeholder is put down as. -/
def spread (put : Placeholder → String) (first : String) (parts : List (Placeholder × String)) :
    String :=
  first ++ String.join (parts.map fun part => put part.1 ++ part.2)

theorem spread_append (put : Placeholder → String) (first next : String) (p : Placeholder)
    (parts more : List (Placeholder × String)) :
    spread put first (parts ++ (p, next) :: more) =
      spread put first parts ++ put p ++ spread put next more := by
  simp [spread, String.append_assoc]

/-- Every template consists of texts without placeholders, with placeholders between them. -/
theorem exists_parts (s : String) : ∃ first parts, s = spread Placeholder.text first parts ∧
    (∀ p : Placeholder, ¬p.Occurs first) ∧
    (∀ part ∈ parts, ∀ p : Placeholder, ¬p.Occurs part.2) ∧
    ∀ context, resolve s context = spread (Placeholder.value context) first parts := by
  -- A template with a placeholder is longer than what stands on either side of it.
  induction h : s.length using Nat.strongRecOn generalizing s with
  | ind n ih =>
      by_cases plain : ∀ p : Placeholder, ¬p.Occurs s
      · exact ⟨s, [], by simp [spread], plain, by simp, fun context => by
          simp [spread, resolve_of_plain context plain]⟩
      · obtain ⟨p, a, b, rfl⟩ : ∃ p : Placeholder, p.Occurs s := by simpa using plain
        have size : 0 < p.text.length := by
          rw [← String.length_toList, toList_text]
          exact Nat.succ_pos _
        rw [String.length_append, String.length_append] at h
        obtain ⟨first, parts, rfl, before, between, front⟩ := ih a.length (by omega) a rfl
        obtain ⟨next, more, rfl, after, behind, back⟩ := ih b.length (by omega) b rfl
        refine ⟨first, parts ++ (p, next) :: more, (spread_append ..).symm, before, ?_, ?_⟩
        · intro part hpart
          rcases List.mem_append.1 hpart with hpart | hpart
          · exact between part hpart
          · rcases List.mem_cons.1 hpart with rfl | hpart
            · exact after
            · exact behind part hpart
        · intro context
          rw [resolve_append_placeholder, front, back, spread_append]

/-- Every placeholder of a template gives way to its text, and nothing else changes. What is
    put in is not read again, and what stands next to a placeholder does not matter. -/
theorem resolve_replaces_placeholders (context : DocumentContext) :
    (∀ (a : String) (p : Placeholder) (b : String), resolve (a ++ p.text ++ b) context =
      resolve a context ++ p.value context ++ resolve b context) ∧
    (∀ s : String, (∀ p : Placeholder, ¬p.Occurs s) → resolve s context = s) ∧
    ∀ s : String, ∃ first parts, s = spread Placeholder.text first parts ∧
      (∀ p : Placeholder, ¬p.Occurs first) ∧
      (∀ part ∈ parts, ∀ p : Placeholder, ¬p.Occurs part.2) ∧
      resolve s context = spread (Placeholder.value context) first parts := by
  refine ⟨resolve_append_placeholder context, fun s => resolve_of_plain context, fun s => ?_⟩
  obtain ⟨first, parts, whole, before, between, resolved⟩ := exists_parts s
  exact ⟨first, parts, whole, before, between, resolved context⟩

/-- A selection that looks like a placeholder, in a template with braces around it. -/
theorem braces_around_selection_stay :
    let context : DocumentContext := { selection := some "\x7b\x7bparagraph\x7d\x7d" }
    (∀ p : Placeholder, ¬p.Occurs "\x7b" ∧ ¬p.Occurs "\x7d \x7b\x7btitle") ∧
      resolve "\x7b\x7b\x7bselection\x7d\x7d\x7d \x7b\x7btitle" context =
        "\x7b\x7b\x7bparagraph\x7d\x7d\x7d \x7b\x7btitle" := by
  intro context
  have plain : ∀ p : Placeholder, ¬p.Occurs "\x7b" ∧ ¬p.Occurs "\x7d \x7b\x7btitle" := by
    intro p
    cases p <;> decide
  obtain ⟨parts, unchanged, -⟩ := resolve_replaces_placeholders context
  refine ⟨plain, (parts "\x7b" .selection "\x7d \x7b\x7btitle").trans ?_⟩
  rw [unchanged _ fun p => (plain p).1, unchanged _ fun p => (plain p).2]
  rfl

end Template

end ActionEngine
