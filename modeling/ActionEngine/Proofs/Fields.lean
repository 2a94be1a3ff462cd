import ActionEngine.Value
import Mathlib.Data.List.Nodup

/-!
# Fields

Fields are looked up by their keys, and the first field of a key counts. Setting fields
one after the other never gives a key twice; then every field counts, and what is taken
out of a row of fields is taken out of what is found in it.
-/

namespace ActionEngine.Fields

variable {fields more : Fields} {key : LooseText} {v : Value}

def keys (fields : Fields) : List LooseText :=
  fields.map (·.1)

@[simp] theorem nodup_keys_nil : (keys []).Nodup := List.nodup_nil

@[simp] theorem keys_cons (f : LooseText × Value) (fields : Fields) :
    keys (f :: fields) = f.1 :: keys fields := rfl

@[simp] theorem get?_nil (key : LooseText) : get? [] key = none := rfl

theorem get?_cons (f : LooseText × Value) (fields : Fields) (key : LooseText) :
    get? (f :: fields) key = if key = f.1 then some f.2 else get? fields key := by
  unfold get?
  rw [List.lookup_cons]
  by_cases same : key = f.1
  · rw [if_pos same, same, beq_self_eq_true]
  · rw [if_neg same, beq_eq_false_iff_ne.2 same]

theorem get?_eq_none_iff : fields.get? key = none ↔ key ∉ fields.keys := by
  induction fields with
  | nil => simp [keys]
  | cons f fields ih =>
      rw [get?_cons, keys_cons, List.mem_cons, not_or, ← ih]
      split <;> simp [*]

theorem get?_eq_some_iff (nodup : fields.keys.Nodup) :
    fields.get? key = some v ↔ (key, v) ∈ fields := by
  induction fields with
  | nil => simp
  | cons f fields ih =>
      rw [keys_cons] at nodup
      obtain ⟨fresh, nodup⟩ := List.nodup_cons.1 nodup
      rw [get?_cons, List.mem_cons]
      split
      · next same =>
        subst same
        have absent : (f.1, v) ∉ fields := fun h => fresh (List.mem_map.2 ⟨_, h, rfl⟩)
        simp [absent, Prod.ext_iff, eq_comm]
      · next other => simp [other, ih nodup, Prod.ext_iff]

theorem mem_of_get? (h : fields.get? key = some v) : (key, v) ∈ fields := by
  induction fields with
  | nil => cases h
  | cons f fields ih =>
      rw [get?_cons] at h
      split at h
      · next same => exact Option.some.inj h ▸ same ▸ List.mem_cons_self
      · exact List.mem_cons_of_mem _ (ih h)

/-! ### Taking fields out -/

theorem keys_filter_sublist (p : LooseText × Value → Bool) (fields : Fields) :
    (keys (fields.filter p)).Sublist fields.keys :=
  List.filter_sublist.map _

theorem get?_filter (nodup : fields.keys.Nodup) (p : LooseText × Value → Bool) (key : LooseText) :
    get? (fields.filter p) key = (fields.get? key).filter fun v => p (key, v) := by
  have kept : (keys (fields.filter p)).Nodup := nodup.sublist (keys_filter_sublist p fields)
  ext v
  rw [get?_eq_some_iff kept, List.mem_filter, ← get?_eq_some_iff nodup, Option.filter_eq_some_iff]

theorem keys_drop (fields : Fields) (dropped : LooseText) :
    (fields.drop dropped).keys = fields.keys.filter (· != dropped) := by
  unfold keys drop
  rw [List.filter_map]
  rfl

theorem get?_drop (nodup : fields.keys.Nodup) (dropped key : LooseText) :
    (fields.drop dropped).get? key = if key = dropped then none else fields.get? key := by
  rw [drop, get?_filter nodup]
  split
  · next same => simp [same]
  · next other =>
    have kept : (key != dropped) = true := by simpa using other
    cases fields.get? key <;> simp [kept, Option.filter]

/-! ### Setting fields -/

theorem get?_put (fields : Fields) (k : LooseText) (v : Value) (key : LooseText) :
    (fields.put k v).get? key = if key = k then some v else fields.get? key := by
  induction fields with
  | nil => rw [put, get?_cons]
  | cons f fields ih =>
      obtain ⟨k', v'⟩ := f
      rw [put]
      split
      · next same =>
        rw [get?_cons, get?_cons, eq_of_beq same]
        split <;> rfl
      · next other =>
        have other : k' ≠ k := by simpa using other
        rw [get?_cons, get?_cons, ih]
        by_cases h : key = k'
        · rw [if_pos h, if_neg (h ▸ other), if_pos h]
        · rw [if_neg h, if_neg h]

theorem keys_put (fields : Fields) (key : LooseText) (v : Value) :
    (fields.put key v).keys = if key ∈ fields.keys then fields.keys else fields.keys ++ [key] := by
  induction fields with
  | nil => simp [put, keys]
  | cons f fields ih =>
      obtain ⟨k, w⟩ := f
      rw [put]
      split
      · next same => simp [eq_of_beq same]
      · next other =>
        have other : key ≠ k := Ne.symm (by simpa using other)
        simp only [keys_cons, ih, List.mem_cons, other, false_or]
        split <;> rfl

theorem nodup_keys_put (nodup : fields.keys.Nodup) (key : LooseText) (v : Value) :
    (fields.put key v).keys.Nodup := by
  rw [keys_put]
  split
  · exact nodup
  · next fresh => exact List.nodup_append.2 ⟨nodup, List.nodup_singleton key,
      fun k hk l hl same => fresh (List.mem_singleton.1 hl ▸ same ▸ hk)⟩

theorem nodup_keys_putAll (nodup : fields.keys.Nodup) (more : Fields) :
    (fields.putAll more).keys.Nodup := by
  induction more generalizing fields with
  | nil => exact nodup
  | cons f more ih => exact ih (nodup_keys_put nodup f.1 f.2)

theorem put_of_not_mem (fresh : key ∉ fields.keys) (v : Value) :
    fields.put key v = fields ++ [(key, v)] := by
  induction fields with
  | nil => rfl
  | cons f fields ih =>
      rw [keys_cons, List.mem_cons, not_or] at fresh
      rw [put, if_neg (by simpa using Ne.symm fresh.1), ih fresh.2, List.cons_append]

/-- Setting fields that give no key twice adds them as they are. -/
theorem putAll_of_nodup (nodup : (keys (fields ++ more)).Nodup) :
    fields.putAll more = fields ++ more := by
  induction more generalizing fields with
  | nil => exact (List.append_nil fields).symm
  | cons f more ih =>
      have fresh : f.1 ∉ fields.keys := by
        rw [keys, List.map_append, List.map_cons, List.nodup_append] at nodup
        exact fun h => nodup.2.2 _ h _ List.mem_cons_self rfl
      rw [List.append_cons] at nodup ⊢
      rw [← ih nodup, ← put_of_not_mem fresh]
      rfl

theorem mem_put {f : LooseText × Value} (h : f ∈ fields.put key v) :
    f ∈ fields ∨ f = (key, v) := by
  induction fields with
  | nil => exact .inr (List.mem_singleton.1 h)
  | cons g fields ih =>
      rw [put] at h
      split at h
      · next same =>
        rcases List.mem_cons.1 h with rfl | h
        · exact .inr (congrArg (·, v) (eq_of_beq same))
        · exact .inl (List.mem_cons_of_mem _ h)
      · rcases List.mem_cons.1 h with rfl | h
        · exact .inl List.mem_cons_self
        · exact (ih h).imp_left (List.mem_cons_of_mem _)

/-- What holds of fields and of those that are set holds of them afterwards. -/
theorem forall_mem_putAll {P : LooseText × Value → Prop} (old : ∀ f ∈ fields, P f)
    (set : ∀ f ∈ more, P f) : ∀ f ∈ fields.putAll more, P f := by
  induction more generalizing fields with
  | nil => exact old
  | cons g more ih =>
      refine ih (fun f hf => ?_) fun f hf => set f (List.mem_cons_of_mem _ hf)
      rcases mem_put hf with hf | rfl
      · exact old f hf
      · exact set g List.mem_cons_self

end ActionEngine.Fields
