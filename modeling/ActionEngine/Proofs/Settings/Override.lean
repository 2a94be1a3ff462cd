import ActionEngine.Proofs.Fields
import ActionEngine.Settings.Store
import Mathlib.Data.List.Induction

/-!
# What overrides give

A field gets its value from the last entry of the command line that names it, and from
its variable of the environment if that is set to something that can be read. What is
given for one field leaves every other field alone.
-/

namespace ActionEngine.Settings

/-! ### Names of fields -/

namespace Field

theorem mem_all (field : Field) : field ∈ all := by
  cases field <;> simp [all]

theorem nodup_names : (all.map name).Nodup := by
  decide

theorem name_injective {field other : Field} (h : field.name = other.name) : field = other :=
  List.inj_on_of_nodup_map nodup_names (mem_all field) (mem_all other) h

theorem key_injective {field other : Field} (h : LooseText.whole field.name = other.name) :
    field = other :=
  name_injective (LooseText.whole.inj h)

theorem ofName?_eq_some_iff {s : LooseText} {field : Field} :
    ofName? s = some field ↔ .whole field.name = s := by
  constructor
  · intro h
    simpa using List.find?_some h
  · intro h
    have found : (ofName? s).isSome := by
      rw [ofName?, List.find?_isSome]
      exact ⟨field, mem_all field, by simpa using h⟩
    obtain ⟨other, same⟩ := Option.isSome_iff_exists.1 found
    have named : .whole other.name = s := by simpa using List.find?_some same
    rw [same, key_injective (named.trans h.symm)]

end Field

/-! ### Setting fields by their names -/

theorem get_set (s : Settings) (field other : Field) (v : Value) :
    (s.set field v).get other = if other = field then v else s.get other := rfl

/-- Of fields with distinct names each sets its own field and no other one. -/
theorem get_setNamed {named : Fields} (nodup : named.keys.Nodup) (s : Settings) (field : Field) :
    (s.setNamed named).get field = (named.get? field.name).getD (s.get field) := by
  induction named generalizing s with
  | nil => rfl
  | cons f named ih =>
      rw [Fields.keys_cons] at nodup
      obtain ⟨fresh, nodup⟩ := List.nodup_cons.1 nodup
      rw [setNamed, List.foldl_cons, ← setNamed, ih nodup, Fields.get?_cons]
      by_cases same : .whole field.name = f.1
      · have absent : Fields.get? named field.name = none :=
          Fields.get?_eq_none_iff.2 (same ▸ fresh)
        rw [if_pos same, absent, Field.ofName?_eq_some_iff.2 same]
        simp [get_set]
      · rw [if_neg same]
        congr 1
        split
        · next g found =>
          have apart : field ≠ g := by
            rintro rfl
            exact same (Field.ofName?_eq_some_iff.1 found)
          rw [get_set, if_neg apart]
        · rfl

/-- Null values override nothing. -/
theorem get_overridden {given : Fields} (nodup : given.keys.Nodup) (s : Settings)
    (field : Field) :
    (s.overridden given).1.get field =
      ((given.get? field.name).filter fun v => !v.isNull).getD (s.get field) := by
  have known : (Field.ofName? field.name).isSome := by
    rw [Field.ofName?_eq_some_iff.2 rfl]
    rfl
  rw [overridden, get_setNamed (nodup.sublist (Fields.keys_filter_sublist _ _)),
    Fields.get?_filter nodup]
  simp only [known, Bool.true_and]

/-! ### The command line -/

def entryValue? (field : Field) (entry : String) : Option Value :=
  match readEntry entry with
  | .ok (named, v) => if named = field then some v else none
  | .error _ => none

/-- The value that the last entry for a field gives to it. -/
def lastGiven? (entries : List String) (field : Field) : Option Value :=
  (entries.filterMap (entryValue? field)).getLast?

theorem lastGiven?_concat (entries : List String) (entry : String) (field : Field) :
    lastGiven? (entries ++ [entry]) field =
      (entryValue? field entry).or (lastGiven? entries field) := by
  rw [lastGiven?, List.filterMap_append, List.filterMap_cons, List.filterMap_nil]
  cases entryValue? field entry with
  | none => simp [lastGiven?]
  | some v => simp

theorem readEntries_concat {entries : List String} {entry : String} {given : Fields}
    (read : readEntries (entries ++ [entry]) = .ok given) :
    ∃ before field v, readEntries entries = .ok before ∧ readEntry entry = .ok (field, v) ∧
      given = before.put field.name v := by
  rw [readEntries, List.foldlM_append, ← readEntries] at read
  cases front : readEntries entries with
  | error fault =>
      rw [front] at read
      cases read
  | ok before =>
      cases last : readEntry entry with
      | error fault =>
          rw [front] at read
          simp [last, Bind.bind, Except.bind] at read
      | ok found =>
          obtain ⟨field, v⟩ := found
          refine ⟨before, field, v, rfl, rfl, ?_⟩
          rw [front] at read
          simpa [last, Bind.bind, Except.bind, eq_comm, Pure.pure, Except.pure] using read

/-- The entries of a command line give every field the value of the last entry for it. -/
theorem readEntries_gives {entries : List String} {given : Fields}
    (read : readEntries entries = .ok given) :
    given.keys.Nodup ∧ ∀ field : Field, given.get? field.name = lastGiven? entries field := by
  induction entries using List.reverseRecOn generalizing given with
  | nil =>
      cases read
      exact ⟨Fields.nodup_keys_nil, fun _ => rfl⟩
  | append_singleton entries entry ih =>
      obtain ⟨before, named, v, front, last, rfl⟩ := readEntries_concat read
      obtain ⟨nodup, gives⟩ := ih front
      refine ⟨Fields.nodup_keys_put nodup _ _, fun field => ?_⟩
      rw [Fields.get?_put, lastGiven?_concat, entryValue?, last, gives]
      by_cases same : named = field
      · simp [same]
      · have apart : field.name ≠ named.name := fun h => same (Field.name_injective h.symm)
        simp [same, apart]

/-! ### The environment -/

/-- The value that a variable gives to its field, if it is set to something that can be
    read. -/
def variableGives (e : Environment) (v : String × Field) : Option Value :=
  (e.get? v.1).bind (variableValue? v.2)

/-- The value that a field gets from its variable, if it has one. -/
def fromVariable? (e : Environment) (field : Field) : Option Value :=
  (fieldVariables.find? fun v => v.2 = field).bind (variableGives e)

/-- What some variables give: each field gets the value of its own variable. -/
theorem get?_filterMap {vs : List (String × Field)} (nodup : (vs.map (·.2)).Nodup)
    (give : String × Field → Option Value) (field : Field) :
    Fields.get? (vs.filterMap fun v => (give v).map fun value => (.whole v.2.name, value)) field.name =
      (vs.find? fun v => v.2 = field).bind give := by
  induction vs with
  | nil => rfl
  | cons v vs ih =>
      rw [List.map_cons] at nodup
      obtain ⟨fresh, nodup⟩ := List.nodup_cons.1 nodup
      rw [List.filterMap_cons, List.find?_cons]
      by_cases same : v.2 = field
      · have others : vs.find? (fun v => v.2 = field) = none := by
          rw [List.find?_eq_none]
          intro w hw
          simpa using fun h => fresh (List.mem_map.2 ⟨w, hw, h.trans same.symm⟩)
        rw [others] at ih
        cases given : give v with
        | none => simpa [same, given] using ih nodup
        | some value => simp [same, given, Fields.get?_cons]
      · have apart : field.name ≠ v.2.name := fun h => same (Field.name_injective h).symm
        cases give v with
        | none => simpa [same] using ih nodup
        | some value => simpa [same, apart, Fields.get?_cons] using ih nodup

theorem keys_filterMap_sublist (vs : List (String × Field))
    (give : String × Field → Option Value) :
    (Fields.keys (vs.filterMap fun v => (give v).map fun value => (.whole v.2.name, value))).Sublist
      (vs.map fun v => .whole v.2.name) := by
  induction vs with
  | nil => exact .slnil
  | cons v vs ih =>
      rw [List.filterMap_cons, List.map_cons]
      cases give v with
      | none => exact ih.cons _
      | some value => exact ih.cons_cons _

theorem environmentFields_eq (e : Environment) :
    environmentFields e = fieldVariables.filterMap fun v =>
      (variableGives e v).map fun value => (.whole v.2.name, value) := by
  unfold environmentFields variableGives
  congr
  funext v
  cases e.get? v.1 with
  | none => rfl
  | some s =>
      change (variableValue? v.2 s).bind _ = (variableValue? v.2 s).map _
      rw [Option.map_eq_bind]
      rfl

theorem environmentFields_give (e : Environment) :
    (environmentFields e).keys.Nodup ∧
      ∀ field : Field, (environmentFields e).get? field.name = fromVariable? e field := by
  rw [environmentFields_eq]
  constructor
  · refine List.Nodup.sublist (keys_filterMap_sublist _ _) ?_
    decide
  · intro field
    exact get?_filterMap (by decide) (variableGives e) field

/-- A variable gives no null value. -/
theorem fromVariable?_ne_null {e : Environment} {field : Field} {v : Value}
    (h : fromVariable? e field = some v) : v.isNull = false := by
  obtain ⟨named, -, given⟩ := Option.bind_eq_some_iff.1 h
  obtain ⟨s, -, read⟩ := Option.bind_eq_some_iff.1 given
  unfold variableValue? at read
  split at read
  · cases found : (Value.text s).toInt <;> rw [found] at read <;> cases read
    rfl
  · cases found : (Value.text s).toFloat <;> rw [found] at read <;> cases read
    rfl
  · cases read
    rfl
  · cases read
    rfl

theorem fromVariable?_filter (e : Environment) (field : Field) :
    (fromVariable? e field).filter (fun v => !v.isNull) = fromVariable? e field := by
  cases given : fromVariable? e field with
  | none => rfl
  | some v =>
      rw [Option.filter_some, fromVariable?_ne_null given]
      rfl

end ActionEngine.Settings
