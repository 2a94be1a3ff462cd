import ActionEngine.Config.Printer
import Mathlib.Data.List.Induction
import Mathlib.Data.List.Nodup

/-!
# Groups

Actions are written group by group: the categories in the order in which they first
appear, and the actions of a category in the order in which they were given.
-/

namespace ActionEngine

/-- A category is found again by its word. -/
theorem Category.ofText?_word (c : Category) : Category.ofText? c.word = some c := by
  cases c <;> decide

def Action.under (c : Category) (a : Action) : Action :=
  { a with category := .known c }

namespace Config

def firstAppearances (actions : List Action) : List Category :=
  (actions.filterMap fun a => a.category.category?).eraseDups

def ofCategory (actions : List Action) (c : Category) : List Action :=
  actions.filter fun a => a.category.category? == some c

/-- The actions that are under some category, by category in order of first appearance. -/
def regrouped (actions : List Action) : List Action :=
  (firstAppearances actions).flatMap fun c => (ofCategory actions c).map (Action.under c)

theorem eraseDups_concat {α : Type} [BEq α] [LawfulBEq α] (cs : List α) (c : α) :
    (cs ++ [c]).eraseDups = if c ∈ cs then cs.eraseDups else cs.eraseDups ++ [c] := by
  rw [List.eraseDups_append]
  split
  · have : [c].removeAll cs = [] := by simpa [List.removeAll] using ‹c ∈ cs›
    rw [this, List.eraseDups_nil, List.append_nil]
  · have : [c].removeAll cs = [c] := by simpa [List.removeAll] using ‹c ∉ cs›
    rw [this]
    rfl

theorem nodup_eraseDups {α : Type} [BEq α] [LawfulBEq α] (cs : List α) : cs.eraseDups.Nodup := by
  induction cs using List.reverseRecOn with
  | nil => exact List.nodup_nil
  | append_singleton cs c ih =>
      rw [eraseDups_concat]
      split
      · exact ih
      · refine List.nodup_append.2 ⟨ih, List.nodup_singleton c, ?_⟩
        intro k hk d hd
        rw [List.mem_singleton.1 hd]
        rintro rfl
        exact ‹k ∉ cs› (List.mem_eraseDups.1 hk)

/-- Going through a list and keeping what was not seen before leaves what first appears. -/
theorem foldl_unseen_eq_eraseDups {α β : Type} [BEq β] [LawfulBEq β] (f : α → β) (xs : List α) :
    xs.foldl (fun seen x => if seen.contains (f x) then seen else seen ++ [f x]) [] =
      (xs.map f).eraseDups := by
  induction xs using List.reverseRecOn with
  | nil => rfl
  | append_singleton xs x ih =>
      rw [List.map_append, List.map_singleton, eraseDups_concat, List.foldl_append, ih]
      simp only [List.foldl_cons, List.foldl_nil, List.contains_iff_mem, List.mem_eraseDups]

theorem addToGroup_of_not_mem {c : Category} {cs : List Category} (h : c ∉ cs)
    (groups : Category → List Action) (a : Action) :
    addToGroup c a (cs.map fun k => (k, groups k)) =
      (cs.map fun k => (k, groups k)) ++ [(c, [a])] := by
  induction cs with
  | nil => rfl
  | cons k cs ih =>
      have hk : k ≠ c := fun hk => h (by simp [hk])
      have hcs : c ∉ cs := fun hc => h (List.mem_cons_of_mem _ hc)
      rw [List.map_cons, addToGroup, if_neg hk, ih hcs, List.cons_append]

theorem addToGroup_of_mem {c : Category} {cs : List Category} (h : c ∈ cs) (nodup : cs.Nodup)
    (groups : Category → List Action) (a : Action) :
    addToGroup c a (cs.map fun k => (k, groups k)) =
      cs.map fun k => (k, if k = c then groups k ++ [a] else groups k) := by
  induction cs with
  | nil => cases h
  | cons k cs ih =>
      obtain ⟨hk, nodup⟩ := List.nodup_cons.1 nodup
      rw [List.map_cons, addToGroup]
      by_cases same : k = c
      · subst same
        have others : ∀ j ∈ cs,
            (j, groups j) = (j, if j = k then groups j ++ [a] else groups j) := by
          intro j hj
          have hne : j ≠ k := by
            rintro rfl
            exact hk hj
          rw [if_neg hne]
        rw [if_pos rfl, List.map_cons, if_pos rfl, List.map_congr_left others]
      · have hcs : c ∈ cs := (List.mem_cons.1 h).resolve_left (Ne.symm same)
        rw [if_neg same, List.map_cons, if_neg same, ih hcs nodup]

theorem ofCategory_concat (actions : List Action) (a : Action) (c : Category) :
    ofCategory (actions ++ [a]) c =
      if a.category.category? = some c then ofCategory actions c ++ [a]
      else ofCategory actions c := by
  unfold ofCategory
  rw [List.filter_append]
  split
  · simp [*]
  · simp [*]

theorem firstAppearances_concat (actions : List Action) (a : Action) :
    firstAppearances (actions ++ [a]) =
      match a.category.category? with
      | none => firstAppearances actions
      | some c =>
        if c ∈ firstAppearances actions then firstAppearances actions
        else firstAppearances actions ++ [c] := by
  unfold firstAppearances
  rw [List.filterMap_append]
  cases h : a.category.category? with
  | none => simp [h]
  | some c =>
      simp only [List.filterMap_cons, List.filterMap_nil, h, eraseDups_concat,
        List.mem_eraseDups]

theorem mem_firstAppearances {actions : List Action} {c : Category} :
    c ∈ firstAppearances actions ↔ ∃ a ∈ actions, a.category.category? = some c := by
  unfold firstAppearances
  rw [List.mem_eraseDups, List.mem_filterMap]

theorem ofCategory_eq_nil {actions : List Action} {c : Category}
    (h : c ∉ firstAppearances actions) : ofCategory actions c = [] := by
  refine List.filter_eq_nil_iff.2 ?_
  intro a ha hc
  exact h (mem_firstAppearances.2 ⟨a, ha, by simpa using hc⟩)

/-- What the printer groups is the actions of each category, the categories by their
    first appearance. -/
theorem grouped_concat_of_none {a : Action} (h : a.category.category? = none)
    {actions : List Action} : grouped (actions ++ [a]) = grouped actions := by
  simp only [grouped, List.foldl_append, List.foldl_cons, List.foldl_nil, h]

theorem grouped_concat_of_some {a : Action} {c : Category} (h : a.category.category? = some c)
    {actions : List Action} : grouped (actions ++ [a]) = addToGroup c a (grouped actions) := by
  simp only [grouped, List.foldl_append, List.foldl_cons, List.foldl_nil, h]

theorem grouped_eq (actions : List Action) :
    grouped actions = (firstAppearances actions).map fun c => (c, ofCategory actions c) := by
  induction actions using List.reverseRecOn with
  | nil => rfl
  | append_singleton actions a ih =>
      rw [firstAppearances_concat]
      cases h : a.category.category? with
      | none =>
          rw [grouped_concat_of_none h, ih]
          simp only [ofCategory_concat, h, reduceCtorEq, if_false]
      | some c =>
          rw [grouped_concat_of_some h, ih]
          dsimp only
          by_cases old : c ∈ firstAppearances actions
          · rw [if_pos old, addToGroup_of_mem old (nodup_eraseDups _)]
            refine List.map_congr_left ?_
            intro k _
            rw [ofCategory_concat, h]
            simp only [Option.some.injEq, eq_comm]
          · rw [if_neg old, addToGroup_of_not_mem old, List.map_append]
            congr 1
            · refine List.map_congr_left ?_
              intro k hk
              have hne : ¬a.category.category? = some k := by
                rw [h, Option.some.injEq]
                rintro rfl
                exact old hk
              rw [ofCategory_concat, if_neg hne]
            · rw [List.map_singleton, ofCategory_concat, if_pos h, ofCategory_eq_nil old,
                List.nil_append]

/-- Regrouping neither adds nor loses an action that is under some category. -/
theorem mem_regrouped {actions : List Action} {a : Action} :
    a ∈ regrouped actions ↔ ∃ b ∈ actions, ∃ c, b.category.category? = some c ∧
      a = b.under c := by
  unfold regrouped
  simp only [List.mem_flatMap, List.mem_map, ofCategory, List.mem_filter, beq_iff_eq]
  constructor
  · rintro ⟨c, -, b, ⟨hb, hc⟩, rfl⟩
    exact ⟨b, hb, c, hc, rfl⟩
  · rintro ⟨b, hb, c, hc, rfl⟩
    exact ⟨c, mem_firstAppearances.2 ⟨b, hb, hc⟩, b, ⟨hb, hc⟩, rfl⟩

theorem mem_of_mem_grouped {actions : List Action} {group : Category × List Action}
    (hgroup : group ∈ grouped actions) {a : Action} (ha : a ∈ group.2) : a ∈ actions := by
  rw [grouped_eq] at hgroup
  obtain ⟨c, -, rfl⟩ := List.mem_map.1 hgroup
  exact (List.mem_filter.1 ha).1

theorem flatMap_grouped (actions : List Action) (f : Action → Action) :
    ((grouped actions).flatMap fun group => group.2.map fun a => f (a.under group.1)) =
      (regrouped actions).map f := by
  unfold regrouped
  rw [grouped_eq, List.flatMap_map, List.map_flatMap]
  simp only [List.map_map, Function.comp_def]

end Config

end ActionEngine
