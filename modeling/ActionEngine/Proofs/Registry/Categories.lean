import ActionEngine.Proofs.Registry.Merging

/-!
# The categories of a snapshot

Every entry stands under a proper category, so asking for one category after the other
gives every action, and gives it once: an action whose category were not one of the five
would be found by no such question.
-/

namespace ActionEngine

theorem Category.nodup_all : Category.all.Nodup := by decide

theorem Category.mem_all (c : Category) : c ∈ Category.all := by
  cases c <;> decide

theorem Category.word_injective {c d : Category} (same : c.word = d.word) : c = d := by
  rw [← Option.some_inj, ← ofText?_word c, same, ofText?_word d]

namespace Registry

theorem known_of_mem_normalised {actions : List Action} {a : Action}
    (h : a ∈ normalised actions) : ∃ c, a.category = .known c := by
  obtain ⟨b, -, hb⟩ := List.mem_filterMap.1 h
  obtain ⟨c, -, rfl⟩ := Action.normalised?_eq_some_iff.1 hb
  exact ⟨c, rfl⟩

namespace Snapshot

section Queries

variable {s : Snapshot} {c : Category} {a : Action}

theorem mem_actionsOf : a ∈ s.actionsOf c ↔ a ∈ s.actions ∧ a.category = .known c := by
  rw [actionsOf, List.mem_filter, decide_eq_true_eq]

theorem actionsOf_sublist (s : Snapshot) (c : Category) : (s.actionsOf c).Sublist s.actions :=
  List.filter_sublist

theorem categories_sublist (s : Snapshot) : s.categories.Sublist Category.all :=
  List.filter_sublist

theorem nodup_categories (s : Snapshot) : s.categories.Nodup :=
  Category.nodup_all.sublist s.categories_sublist

/-- The categories that are available are those that have actions. -/
theorem mem_categories : c ∈ s.categories ↔ s.actionsOf c ≠ [] := by
  rw [categories, List.mem_filter, List.any_eq_true]
  constructor
  · rintro ⟨-, a, ha, hc⟩
    exact List.ne_nil_of_mem (mem_actionsOf.2 ⟨ha, by simpa using hc⟩)
  · intro some_action
    obtain ⟨a, h⟩ := List.exists_mem_of_ne_nil _ some_action
    obtain ⟨ha, hc⟩ := mem_actionsOf.1 h
    exact ⟨c.mem_all, a, ha, by simpa using hc⟩

/-- A category may be asked for by its word. -/
theorem actionsFor_word (s : Snapshot) (c : Category) :
    s.actionsFor (.text c.word) = s.actionsOf c := by
  rw [actionsFor, Category.ofValue?, Category.ofText?_word]

end Queries

/-! ### Nothing is lost, and nothing is repeated -/

variable {baseline custom : List Action}

theorem mem_actions_build {a : Action} :
    a ∈ (build baseline custom).actions ↔ a.IsLastIn (normalised (baseline ++ custom)) := by
  rw [actions, List.mem_map]
  constructor
  · rintro ⟨⟨id, b⟩, h, rfl⟩
    exact ((Entries.mem_foldl_put _).1 h).2
  · intro last
    exact ⟨(a.id, a), (Entries.mem_foldl_put _).2 ⟨rfl, last⟩, rfl⟩

/-- Every action of a snapshot is under a proper category. -/
theorem known_of_mem_actions {a : Action} (h : a ∈ (build baseline custom).actions) :
    ∃ c, a.category = .known c :=
  known_of_mem_normalised (mem_actions_build.1 h).mem

theorem map_id_actions_build :
    (build baseline custom).actions.map Action.id = (build baseline custom).ids := by
  rw [actions, ids, List.map_map]
  refine List.map_congr_left fun entry h => ?_
  obtain ⟨id, a⟩ := entry
  exact ((Entries.mem_foldl_put _).1 h).1

theorem nodup_map_id_actions_build : ((build baseline custom).actions.map Action.id).Nodup := by
  rw [map_id_actions_build]
  exact nodup_ids_build baseline custom

theorem nodup_actions_build : (build baseline custom).actions.Nodup :=
  nodup_map_id_actions_build.of_map _

/-- The actions of different categories are different. -/
theorem nodup_flatMap_actionsOf {cs : List Category} (nodup : cs.Nodup) :
    (cs.flatMap (build baseline custom).actionsOf).Nodup := by
  refine List.nodup_flatMap.2 ⟨fun c _ => nodup_actions_build.sublist (actionsOf_sublist _ c), ?_⟩
  refine nodup.imp fun {c d} other => ?_
  intro a hc hd
  have same := (mem_actionsOf.1 hc).2.symm.trans (mem_actionsOf.1 hd).2
  exact other (Category.Label.known.inj same)

/-- The actions of the available categories are all actions, each once. -/
theorem flatMap_actionsOf_perm :
    ((build baseline custom).categories.flatMap (build baseline custom).actionsOf).Perm
      (build baseline custom).actions := by
  refine (List.perm_ext_iff_of_nodup (nodup_flatMap_actionsOf (nodup_categories _))
    nodup_actions_build).2 fun a => ?_
  rw [List.mem_flatMap]
  constructor
  · rintro ⟨c, -, h⟩
    exact (mem_actionsOf.1 h).1
  · intro ha
    obtain ⟨c, hc⟩ := known_of_mem_actions ha
    have there := mem_actionsOf.2 ⟨ha, hc⟩
    exact ⟨c, mem_categories.2 (List.ne_nil_of_mem there), there⟩

end Snapshot

end Registry

end ActionEngine
