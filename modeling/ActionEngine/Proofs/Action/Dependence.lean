import ActionEngine.Proofs.Action.Substitution
import ActionEngine.Proofs.Config.Grouping

/-!
# What a resolved template depends on

The placeholders of a template are the ones that are written in it, and they are the holes
of its pieces. So a context matters only through the texts of the placeholders that are
listed, and those come from a few fields each.
-/

namespace ActionEngine

/-! ### First appearances -/

/-- What stands earlier among the first appearances also appears earlier. -/
theorem pairwise_eraseDups {α : Type} [BEq α] [LawfulBEq α] (xs : List α) :
    xs.eraseDups.Pairwise fun x y => y ≠ x ∧ ∃ front rest, xs = front ++ x :: rest ∧ y ∉ front := by
  induction xs using List.reverseRecOn with
  | nil => exact .nil
  | append_singleton xs z ih =>
      have before : xs.eraseDups.Pairwise fun x y =>
          y ≠ x ∧ ∃ front rest, xs ++ [z] = front ++ x :: rest ∧ y ∉ front := by
        refine ih.imp ?_
        rintro x y ⟨other, front, rest, rfl, unseen⟩
        exact ⟨other, front, rest ++ [z], by simp, unseen⟩
      rw [Config.eraseDups_concat]
      split
      · exact before
      · rename_i fresh
        refine List.pairwise_append.2 ⟨before, List.pairwise_singleton _ z, fun x hx y hy => ?_⟩
        rw [List.mem_singleton.1 hy]
        obtain ⟨front, rest, rfl⟩ := List.append_of_mem (List.mem_eraseDups.1 hx)
        refine ⟨?_, front, rest ++ [z], by simp, fun h => fresh (List.mem_append_left _ h)⟩
        rintro rfl
        exact fresh (by simp)

/-- Of two elements of a list the one in front of which the other does not stand is passed
    on the way to the other. -/
theorem concat_prefix_of_append_eq {α : Type} {front rest front' rest' : List α} {x y : α}
    (same : front ++ x :: rest = front' ++ y :: rest') (unseen : y ∉ front) (other : y ≠ x) :
    front ++ [x] <+: front' := by
  have here : front ++ [x] <+: front' ++ y :: rest' := ⟨rest, by simp [← same]⟩
  rcases Nat.lt_or_ge front'.length (front ++ [x]).length with short | long
  · have there : front' ++ [y] <+: front ++ [x] := by
      refine List.prefix_of_prefix_length_le ⟨rest', by simp⟩ here ?_
      rw [List.length_append]
      exact short
    have mem : y ∈ front ++ [x] := there.subset (by simp)
    rcases List.mem_append.1 mem with mem | mem
    · exact absurd mem unseen
    · exact absurd (List.mem_singleton.1 mem) other
  · exact List.prefix_of_prefix_length_le here (List.prefix_append _ _) long

namespace Placeholder

/-- One placeholder is written somewhere in front of all places where another one is. -/
def FirstBefore (p q : Placeholder) (s : String) : Prop :=
  ∃ a b, s = a ++ p.text ++ b ∧ ∀ a' b', s = a' ++ q.text ++ b' → a.length < a'.length

/-- Two contexts agree in the fields that a placeholder consults. -/
def Agree (c d : DocumentContext) : Placeholder → Prop
  | selection => c.selection = d.selection
  | paragraph => c.paragraph = d.paragraph ∧ c.selection = d.selection
  | documentTitle => c.title = d.title
  | sectionHeading => c.heading = d.heading

theorem value_eq_of_agree {c d : DocumentContext} {p : Placeholder} (agree : p.Agree c d) :
    p.value c = p.value d := by
  cases p with
  | selection => exact congrArg (·.getD "") agree
  | paragraph =>
      obtain ⟨paragraph, selection⟩ := agree
      unfold value
      rw [paragraph, selection]
  | documentTitle => exact congrArg (·.getD "") agree
  | sectionHeading => exact congrArg (·.getD "") agree

end Placeholder

namespace Template

open Placeholder

/-! ### Holes -/

theorem flatMap_source_piecesFrom (s : List Char) (skipped : Nat) :
    (piecesFrom skipped s).flatMap Piece.source = s.drop skipped := by
  induction s generalizing skipped with
  | nil => cases skipped <;> rfl
  | cons c s ih =>
      cases skipped with
      | succ skipped => exact ih skipped
      | zero =>
          rw [piecesFrom]
          cases found : at? (c :: s) with
          | none => exact congrArg _ (ih 0)
          | some p =>
              obtain ⟨rest, whole⟩ := at?_eq_some_iff.1 found
              have length : p.marker.length = p.marker.length - 1 + 1 := rfl
              dsimp only
              rw [List.flatMap_cons, ih, List.drop_zero, Piece.source]
              calc p.marker ++ s.drop (p.marker.length - 1)
                  = p.marker ++ (c :: s).drop p.marker.length := by
                    rw [length, List.drop_succ_cons, ← length]
                _ = c :: s := by rw [← whole, List.drop_left]

/-- Reading a template loses nothing. -/
theorem flatMap_source_pieces (s : List Char) : (pieces s).flatMap Piece.source = s :=
  flatMap_source_piecesFrom s 0

/-- The holes of a template are the placeholders that are written in it. -/
theorem hole_mem_pieces_iff {p : Placeholder} {s : String} :
    .hole p ∈ pieces s.toList ↔ p.Occurs s := by
  constructor
  · intro h
    obtain ⟨front, rest, split⟩ := List.append_of_mem h
    have whole := flatMap_source_pieces s.toList
    rw [split, List.flatMap_append, List.flatMap_cons] at whole
    exact occurs_iff.2 ⟨_, _, by rw [List.append_assoc]; exact whole⟩
  · rintro ⟨a, b, rfl⟩
    have parts : (a ++ p.text ++ b).toList = a.toList ++ (p.marker ++ b.toList) := by simp
    rw [parts, pieces_append_marker]
    simp

theorem placeholders_eq (s : String) :
    placeholders s = ((pieces s.toList).filterMap Piece.hole?).eraseDups := by
  have seen := Config.foldl_unseen_eq_eraseDups id ((pieces s.toList).filterMap Piece.hole?)
  rw [List.map_id] at seen
  exact seen

theorem hole?_eq_some_iff {piece : Piece} {p : Placeholder} :
    piece.hole? = some p ↔ piece = .hole p := by
  cases piece <;> simp [Piece.hole?]

theorem mem_holes_iff {p : Placeholder} {ps : List Piece} :
    p ∈ ps.filterMap Piece.hole? ↔ .hole p ∈ ps := by
  simp [List.mem_filterMap, hole?_eq_some_iff]

/-- The placeholders that are listed are those that are written in the template. -/
theorem mem_placeholders {p : Placeholder} {s : String} : p ∈ placeholders s ↔ p.Occurs s := by
  rw [placeholders_eq, List.mem_eraseDups, mem_holes_iff, hole_mem_pieces_iff]

/-- A hole in front of which there is no hole for another placeholder is written in front of
    all places where that one is. -/
theorem firstBefore_of_pieces {p q : Placeholder} {s : String} {front rest : List Piece}
    (split : pieces s.toList = front ++ .hole p :: rest) (unseen : .hole q ∉ front)
    (other : q ≠ p) : p.FirstBefore q s := by
  have whole := flatMap_source_pieces s.toList
  rw [split, List.flatMap_append, List.flatMap_cons] at whole
  refine ⟨String.ofList (front.flatMap Piece.source), String.ofList (rest.flatMap Piece.source),
    String.toList_inj.1 (by simp [← whole, Piece.source]), fun a' b' cut => ?_⟩
  have parts : s.toList = a'.toList ++ (q.marker ++ b'.toList) := by simp [cut]
  rw [parts, pieces_append_marker] at split
  obtain ⟨between, passed⟩ :=
    concat_prefix_of_append_eq split.symm unseen fun same => other (Piece.hole.inj same)
  have longer :
      a'.toList = front.flatMap Piece.source ++ p.marker ++ between.flatMap Piece.source := by
    rw [← flatMap_source_pieces a'.toList, ← passed]
    simp [Piece.source]
  rw [← String.length_toList, ← String.length_toList, longer, String.toList_ofList,
    List.length_append, List.length_append]
  have size : 0 < p.marker.length := Nat.succ_pos _
  omega

theorem pairwise_placeholders (s : String) :
    (placeholders s).Pairwise fun p q => p.FirstBefore q s := by
  rw [placeholders_eq]
  refine (pairwise_eraseDups _).imp ?_
  rintro p q ⟨other, front, rest, split, unseen⟩
  obtain ⟨before, behind, whole, rfl, holes⟩ := List.filterMap_eq_append_iff.1 split
  obtain ⟨between, piece, later, rfl, literals, hole, -⟩ := List.filterMap_eq_cons_iff.1 holes
  rw [hole?_eq_some_iff.1 hole, ← List.append_assoc] at whole
  refine firstBefore_of_pieces whole ?_ other
  rw [List.mem_append, not_or]
  exact ⟨fun h => unseen (mem_holes_iff.2 h), fun h => nomatch literals _ h⟩

/-- The placeholders that are listed are exactly those that are written in the template, in
    the order in which they are first written there. A context that agrees with another one
    in the fields that these consult gives the same text. -/
theorem resolve_depends_on_placeholders (s : String) :
    (placeholders s).Nodup ∧ (∀ p, p ∈ placeholders s ↔ p.Occurs s) ∧
      (placeholders s).Pairwise (fun p q => p.FirstBefore q s) ∧
      ∀ c d : DocumentContext, (∀ p ∈ placeholders s, p.Agree c d) → resolve s c = resolve s d := by
  refine ⟨?_, fun p => mem_placeholders, pairwise_placeholders s, fun c d agree => ?_⟩
  · rw [placeholders_eq]
    exact Config.nodup_eraseDups _
  · refine congrArg String.ofList (List.flatMap_congr fun piece h => ?_)
    cases piece with
    | literal ch => rfl
    | hole p =>
        have listed := mem_placeholders.2 (hole_mem_pieces_iff.1 h)
        exact congrArg String.toList (value_eq_of_agree (agree p listed))

/-- A template that uses the heading twice, and neither the title nor the selection but
    through the paragraph. -/
def headingTemplate : String :=
  Placeholder.sectionHeading.text ++ ": \x7b" ++ Placeholder.paragraph.text ++
    Placeholder.sectionHeading.text

theorem title_does_not_matter :
    let c : DocumentContext := { title := some "One", heading := some "H" }
    let d : DocumentContext := { title := some "Two", heading := some "H", source := some "S" }
    placeholders headingTemplate = [.sectionHeading, .paragraph] ∧
      (∀ p ∈ placeholders headingTemplate, p.Agree c d) ∧
      resolve headingTemplate c = resolve headingTemplate d := by
  intro c d
  have listed : placeholders headingTemplate = [.sectionHeading, .paragraph] := by decide +kernel
  have agree : ∀ p ∈ placeholders headingTemplate, p.Agree c d := by
    rw [listed]
    simp [Agree, c, d]
  exact ⟨listed, agree, (resolve_depends_on_placeholders headingTemplate).2.2.2 c d agree⟩

end Template

end ActionEngine
