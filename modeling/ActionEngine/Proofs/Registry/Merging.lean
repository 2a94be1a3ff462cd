import ActionEngine.Proofs.Registry.History
import Mathlib.Data.Finset.Card

/-!
# What a snapshot is made of

Merging goes through the definitions in order, each under its proper category. The first
definition of an id gives it its place, and the last one is the entry that stands there.
So an entry is custom exactly if a custom definition has its id, and the other entries are
the ids of the baseline that no custom definition takes over.
-/

namespace ActionEngine

theorem Action.normalised?_eq_some_iff {a b : Action} :
    a.normalised? = some b ↔ ∃ c, a.category.category? = some c ∧ a.under c = b :=
  Option.map_eq_some_iff

/-- The action is among the actions, and none behind it has its id. -/
def Action.IsLastIn (a : Action) (actions : List Action) : Prop :=
  ∃ before after, actions = before ++ a :: after ∧ ∀ b ∈ after, b.id ≠ a.id

theorem Action.IsLastIn.mem {a : Action} {actions : List Action} (h : a.IsLastIn actions) :
    a ∈ actions := by
  obtain ⟨before, after, rfl, -⟩ := h
  exact List.mem_append_right _ List.mem_cons_self

theorem Action.isLastIn_concat {a b : Action} {actions : List Action} :
    a.IsLastIn (actions ++ [b]) ↔ a = b ∨ a.id ≠ b.id ∧ a.IsLastIn actions := by
  constructor
  · rintro ⟨before, after, split, last⟩
    rcases after.eq_nil_or_concat with rfl | ⟨after, c, rfl⟩
    · obtain ⟨-, same⟩ := List.append_inj' split rfl
      exact .inl (List.singleton_inj.1 same).symm
    · rw [List.concat_eq_append, ← List.cons_append, ← List.append_assoc] at split
      obtain ⟨front, same⟩ := List.append_inj' split rfl
      cases same
      refine .inr ⟨(last b (by simp)).symm, before, after, front, fun d hd => last d ?_⟩
      simp [hd]
  · rintro (rfl | ⟨other, before, after, rfl, last⟩)
    · exact ⟨actions, [], rfl, fun b hb => by cases hb⟩
    · refine ⟨before, after ++ [b], by simp, fun d hd => ?_⟩
      rcases List.mem_append.1 hd with hd | hd
      · exact last d hd
      · rw [List.mem_singleton.1 hd]
        exact other.symm

namespace Registry

/-! ### Proper categories -/

namespace Entries

/-- Putting an action in gives its id the action, and leaves every other id alone. -/
theorem mem_put {entries : Entries} (nodup : (entries.map (·.1)).Nodup) (a : Action)
    {entry : String × Action} :
    entry ∈ entries.put a ↔ entry = (a.id, a) ∨ entry.1 ≠ a.id ∧ entry ∈ entries := by
  induction entries with
  | nil => simp [put]
  | cons first rest ih =>
      obtain ⟨id, b⟩ := first
      obtain ⟨fresh, nodup⟩ := List.nodup_cons.1 nodup
      rw [put]
      by_cases same : id = a.id
      · subst same
        have others (h : entry ∈ rest) : entry.1 ≠ a.id := fun there =>
          fresh (List.mem_map.2 ⟨entry, h, there⟩)
        rw [if_pos (beq_self_eq_true _), List.mem_cons, List.mem_cons]
        constructor
        · rintro (rfl | h)
          · exact .inl rfl
          · exact .inr ⟨others h, .inr h⟩
        · rintro (rfl | ⟨other, rfl | h⟩)
          · exact .inl rfl
          · exact absurd rfl other
          · exact .inr h
      · rw [if_neg (by simpa using same), List.mem_cons, List.mem_cons, ih nodup]
        constructor
        · rintro (rfl | rfl | ⟨other, h⟩)
          · exact .inr ⟨same, .inl rfl⟩
          · exact .inl rfl
          · exact .inr ⟨other, .inr h⟩
        · rintro (rfl | ⟨other, rfl | h⟩)
          · exact .inr (.inl rfl)
          · exact .inl rfl
          · exact .inr (.inr ⟨other, h⟩)

/-- Of all actions with an id, the last one is the entry. -/
theorem mem_foldl_put (actions : List Action) {id : String} {a : Action} :
    (id, a) ∈ actions.foldl put [] ↔ a.id = id ∧ a.IsLastIn actions := by
  induction actions using List.reverseRecOn with
  | nil => simp [Action.IsLastIn]
  | append_singleton actions b ih =>
      have nodup : ((actions.foldl put []).map (·.1)).Nodup := by
        rw [ids_foldl_put]
        exact Config.nodup_eraseDups _
      rw [List.foldl_append, List.foldl_cons, List.foldl_nil, mem_put nodup, ih,
        Action.isLastIn_concat, Prod.mk.injEq]
      constructor
      · rintro (⟨rfl, rfl⟩ | ⟨other, rfl, last⟩)
        · exact ⟨rfl, .inl rfl⟩
        · exact ⟨rfl, .inr ⟨other, last⟩⟩
      · rintro ⟨rfl, rfl | ⟨other, last⟩⟩
        · exact .inl ⟨rfl, rfl⟩
        · exact .inr ⟨other, rfl, last⟩

end Entries

/-! ### Snapshots -/

namespace Snapshot

theorem nodup_ids_build (baseline custom : List Action) :
    (build baseline custom).ids.Nodup := by
  rw [ids_build]
  exact Config.nodup_eraseDups _

end Snapshot

end Registry

end ActionEngine
