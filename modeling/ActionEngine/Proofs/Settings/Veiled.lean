import ActionEngine.Proofs.Settings.Override
import ActionEngine.Proofs.Steps
import ActionEngine.Proofs.Text.Blank
import ActionEngine.Proofs.Text.Loose
import ActionEngine.Settings.Report
import Mathlib.Data.List.Forall2

/-!
# API keys that look the same

A masked key shows its length and, if it is long, its first two and its last two characters.
Keys that agree in these go the same way through the layers of the settings: an entry or a
variable that gives one of them is read, applied and reported just as one that gives the other.
-/

namespace ActionEngine.Settings

open Steps

/-! ### Masked keys -/

/-- The keys look the same when they are masked. -/
structure KeysAlike (key key' : String) : Prop where
  length : (Text.trim key'.toList).length = (Text.trim key.toList).length
  first : 4 < (Text.trim key.toList).length →
    (Text.trim key'.toList).take 2 = (Text.trim key.toList).take 2
  last : 4 < (Text.trim key.toList).length →
    (Text.trim key'.toList).drop ((Text.trim key.toList).length - 2) =
      (Text.trim key.toList).drop ((Text.trim key.toList).length - 2)

theorem KeysAlike.redacted {key key' : String} (alike : KeysAlike key key') :
    redacted key' = redacted key := by
  unfold Settings.redacted
  simp only [LooseText.codes_whole, LooseText.trimCodes_chars, List.length_map, ← List.map_take,
    ← List.map_drop]
  rw [alike.length]
  split
  · rfl
  · next long =>
    rw [alike.first (Nat.lt_of_not_le long), alike.last (Nat.lt_of_not_le long)]

theorem KeysAlike.trim {key key' : String} (alike : KeysAlike key key') :
    KeysAlike (String.ofList (Text.trim key.toList)) (String.ofList (Text.trim key'.toList)) := by
  have same (s : String) :
      Text.trim (String.ofList (Text.trim s.toList)).toList = Text.trim s.toList := by
    rw [String.toList_ofList, (Text.tight_trim _).trim_eq]
  constructor <;> rw [same, same]
  · exact alike.length
  · exact alike.first
  · exact alike.last

/-- Two fields of the same name with the same value, or with API keys that look the same. -/
inductive Veiled : LooseText × Value → LooseText × Value → Prop
  | same (f : LooseText × Value) : Veiled f f
  | key {key key' : String} (alike : KeysAlike key key') :
    Veiled (Field.apiKey.name, .text key) (Field.apiKey.name, .text key')

theorem Veiled.name {f g : LooseText × Value} (veiled : Veiled f g) : g.1 = f.1 := by
  cases veiled <;> rfl

theorem Veiled.isNull {f g : LooseText × Value} (veiled : Veiled f g) :
    g.2.isNull = f.2.isNull := by
  cases veiled <;> rfl

theorem map_name_of_veiled {given given' : Fields} (veiled : List.Forall₂ Veiled given given') :
    given'.map (·.1) = given.map (·.1) := by
  induction veiled with
  | nil => rfl
  | cons veiled _ ih => rw [List.map_cons, List.map_cons, veiled.name, ih]

/-- The settings are the same, but for API keys that look the same. -/
def AllVeiled (s s' : Settings) : Prop :=
  ∀ field : Field, Veiled (field.name, s.get field) (field.name, s'.get field)

namespace AllVeiled

variable {s s' : Settings}

theorem refl (s : Settings) : AllVeiled s s :=
  fun _ => .same _

theorem get (veiled : AllVeiled s s') {field : Field} (other : field ≠ .apiKey) :
    s'.get field = s.get field := by
  have here := veiled field
  generalize s.get field = v, s'.get field = w at here
  generalize named : LooseText.whole field.name = name at here
  cases here with
  | same => rfl
  | key => exact absurd (Field.key_injective named) other

theorem apiKey (veiled : AllVeiled s s') : s'.get .apiKey = s.get .apiKey ∨
    ∃ key key' : String, s.get .apiKey = .text key ∧ s'.get .apiKey = .text key' ∧
      KeysAlike key key' := by
  have here := veiled .apiKey
  generalize s.get .apiKey = v, s'.get .apiKey = w at here
  cases here with
  | same => exact .inl rfl
  | key alike => exact .inr ⟨_, _, rfl, rfl, alike⟩

theorem set (veiled : AllVeiled s s') {field : Field} {v w : Value}
    (given : Veiled (field.name, v) (field.name, w)) :
    AllVeiled (s.set field v) (s'.set field w) := by
  intro other
  rw [get_set, get_set]
  split
  · next same => exact same ▸ given
  · exact veiled other

theorem setNamed (veiled : AllVeiled s s') {given given' : Fields}
    (givens : List.Forall₂ Veiled given given') :
    AllVeiled (s.setNamed given) (s'.setNamed given') := by
  unfold Settings.setNamed
  induction givens generalizing s s' with
  | nil => exact veiled
  | @cons f g given given' first _ ih =>
      rw [List.foldl_cons, List.foldl_cons, first.name]
      apply ih
      cases named : Field.ofName? f.1 with
      | none => exact veiled
      | some field =>
          have name : .whole field.name = f.1 := Field.ofName?_eq_some_iff.1 named
          refine veiled.set ?_
          rw [name]
          nth_rewrite 2 [← first.name]
          exact first

theorem overridden (veiled : AllVeiled s s') {given given' : Fields}
    (givens : List.Forall₂ Veiled given given') :
    AllVeiled (s.overridden given).1 (s'.overridden given').1 ∧
      (s'.overridden given').2 = (s.overridden given).2 := by
  have counted := List.rel_filter
    (p := fun f => (Field.ofName? f.1).isSome && !f.2.isNull)
    (q := fun f => (Field.ofName? f.1).isSome && !f.2.isNull)
    (fun f g (h : Veiled f g) => by simp only [h.name, h.isNull]) givens
  exact ⟨veiled.setNamed counted, map_name_of_veiled counted⟩

end AllVeiled

/-! ### The report -/

theorem put_fields (s : Settings) (field : Field) (v : Value) :
    Fields.put s.fields field.name v =
      Field.all.map fun f => (.whole f.name, if f = field then v else plain (s.get f)) := by
  have rows (listed : List Field) (nodup : listed.Nodup) (mem : field ∈ listed) :
      Fields.put (listed.map fun f => (.whole f.name, plain (s.get f))) field.name v =
        listed.map fun f => (.whole f.name, if f = field then v else plain (s.get f)) := by
    induction listed with
    | nil => cases mem
    | cons f listed ih =>
        obtain ⟨fresh, nodup⟩ := List.nodup_cons.1 nodup
        rw [List.map_cons, List.map_cons, Fields.put]
        by_cases same : f = field
        · subst same
          rw [if_pos (by simp), if_pos rfl]
          congr 1
          refine List.map_congr_left fun g hg => ?_
          rw [if_neg (by rintro rfl; exact fresh hg)]
        · have apart : LooseText.whole f.name ≠ field.name := fun h => same (Field.key_injective h)
          rw [if_neg (by simpa using apart), if_neg same,
            ih nodup ((List.mem_cons.1 mem).resolve_left (Ne.symm same))]
  exact rows Field.all (by decide) field.mem_all

theorem AllVeiled.report {s s' : Settings} (veiled : AllVeiled s s') (masked : LooseText)
    (store : Store) {e e' : Environment} (names : variableNames e' = variableNames e)
    {given given' : Fields} (givens : List.Forall₂ Veiled given given') :
    s'.report masked store e' given' = s.report masked store e given := by
  have fields : Fields.put s'.fields Field.apiKey.name (.text masked) =
      Fields.put s.fields Field.apiKey.name (.text masked) := by
    rw [put_fields, put_fields]
    refine List.map_congr_left fun f _ => ?_
    split
    · rfl
    · next other => rw [veiled.get other]
  unfold Settings.report
  rw [fields, names, map_name_of_veiled givens]

/-! ### Variables -/

/-- Two variables with the same value, or with API keys that look the same. -/
inductive VariableAlike : String × String → String × String → Prop
  | same (v : String × String) : VariableAlike v v
  | key {key key' : String} (alike : KeysAlike key key') :
    VariableAlike ("INKWELL_API_KEY", key) ("INKWELL_API_KEY", key')

/-- The environments are the same, but for API keys that look the same. -/
structure EnvironmentAlike (e e' : Environment) : Prop where
  values : List.Forall₂ VariableAlike e.values e'.values
  home : e'.home = e.home

namespace EnvironmentAlike

variable {e e' : Environment}

theorem get? (alike : EnvironmentAlike e e') (name : String) : e'.get? name = e.get? name ∨
    name = "INKWELL_API_KEY" ∧
      ∃ key key', e.get? name = some key ∧ e'.get? name = some key' ∧ KeysAlike key key' := by
  have values := alike.values
  unfold Environment.get?
  generalize e.values = vs, e'.values = ws at values
  induction values with
  | nil => exact .inl rfl
  | @cons v w _ _ first _ ih =>
      rw [List.lookup_cons, List.lookup_cons]
      cases first with
      | same =>
          cases name == v.1
          · exact ih
          · exact .inl rfl
      | key alike =>
          dsimp only
          cases here : name == "INKWELL_API_KEY"
          · exact ih
          · exact .inr ⟨eq_of_beq here, _, _, rfl, rfl, alike⟩

theorem get?_of_ne (alike : EnvironmentAlike e e') {name : String}
    (other : name ≠ "INKWELL_API_KEY") : e'.get? name = e.get? name :=
  (alike.get? name).resolve_right fun key => other key.1

theorem nonempty? (alike : EnvironmentAlike e e') {name : String}
    (other : name ≠ "INKWELL_API_KEY") : e'.nonempty? name = e.nonempty? name := by
  unfold Environment.nonempty?
  rw [alike.get?_of_ne other]

theorem flag (alike : EnvironmentAlike e e') {name : String}
    (other : name ≠ "INKWELL_API_KEY") : e'.flag name = e.flag name := by
  unfold Environment.flag
  rw [alike.get?_of_ne other]

theorem userDirectory (alike : EnvironmentAlike e e') : e'.userDirectory = e.userDirectory := by
  unfold Environment.userDirectory
  rw [alike.home]

theorem variableNames (alike : EnvironmentAlike e e') : variableNames e' = variableNames e := by
  have names : e'.values.map (·.1) = e.values.map (·.1) := by
    have values := alike.values
    generalize e.values = vs, e'.values = ws at values
    induction values with
    | nil => rfl
    | cons first _ ih => cases first <;> rw [List.map_cons, List.map_cons, ih]
  unfold Settings.variableNames
  rw [names]

/-- The one variable that may differ is that of the API key. -/
theorem field_of_key : ∀ v ∈ fieldVariables, v.1 = "INKWELL_API_KEY" → v.2 = .apiKey := by
  decide

theorem environmentFields (alike : EnvironmentAlike e e') :
    List.Forall₂ Veiled (environmentFields e) (environmentFields e') := by
  have listed : List.Forall₂ (fun v w => w = v ∧ v ∈ fieldVariables) fieldVariables
      fieldVariables := List.forall₂_same.2 fun v hv => ⟨rfl, hv⟩
  rw [environmentFields_eq, environmentFields_eq]
  refine List.rel_filterMap ?_ listed
  rintro _ v ⟨rfl, mem⟩
  unfold variableGives
  dsimp only
  rcases alike.get? v.1 with same | ⟨named, key, key', given, given', alike⟩
  · rw [same]
    cases (e.get? v.1).bind (variableValue? v.2) with
    | none => exact .none
    | some value => exact .some (.same _)
  · rw [given, given', field_of_key v mem named]
    exact .some (.key alike)

theorem environmentRemarks (alike : EnvironmentAlike e e') :
    environmentRemarks e' = environmentRemarks e := by
  unfold Settings.environmentRemarks
  refine List.filterMap_congr fun v mem => ?_
  rcases alike.get? v.1 with same | ⟨named, key, key', given, given', -⟩
  · rw [same]
  · rw [given, given', field_of_key v mem named]
    rfl

end EnvironmentAlike

/-! ### Entries -/

/-- Two entries that are the same, or that give API keys that look the same. -/
inductive EntryAlike : String → String → Prop
  | same (entry : String) : EntryAlike entry entry
  | key {name key key' : String} (named : Text.trim name.toList = Field.apiKey.name.toList)
    (plain : '=' ∉ name.toList) (alike : KeysAlike key key') :
    EntryAlike (name ++ "=" ++ key) (name ++ "=" ++ key')

theorem readEntry_key {name : String} (named : Text.trim name.toList = Field.apiKey.name.toList)
    (plain : '=' ∉ name.toList) (key : String) : readEntry (name ++ "=" ++ key) =
      .ok (.apiKey, .text (String.ofList (Text.trim key.toList))) := by
  have chars : (name ++ "=" ++ key).toList = name.toList ++ '=' :: key.toList := by simp
  have inside : ∀ c ∈ name.toList, (c != '=') = true := by
    intro c hc
    simpa using ne_of_mem_of_not_mem hc plain
  have front : (name ++ "=" ++ key).toList.takeWhile (· != '=') = name.toList := by
    rw [chars, List.takeWhile_append_of_pos inside, List.takeWhile_cons_of_neg (by decide),
      List.append_nil]
  have back : (name ++ "=" ++ key).toList.dropWhile (· != '=') = '=' :: key.toList := by
    rw [chars, List.dropWhile_append_of_pos inside, List.dropWhile_cons_of_neg (by decide)]
  unfold readEntry
  dsimp only
  rw [front, back, named, String.ofList_toList]
  rfl

theorem EntryAlike.read {entry entry' : String} (alike : EntryAlike entry entry') :
    Matches (fun found found' : Field × Value => found'.1 = found.1 ∧
        Veiled (found.1.name, found.2) (found'.1.name, found'.2))
      (readEntry entry) (readEntry entry') := by
  cases alike with
  | same => exact .refl (fun _ => ⟨rfl, .same _⟩) _
  | key named plain alike =>
      rw [readEntry_key named plain, readEntry_key named plain]
      exact .ok ⟨rfl, .key alike.trim⟩

theorem put_veiled {given given' : Fields} (givens : List.Forall₂ Veiled given given')
    {name : LooseText} {v w : Value} (veiled : Veiled (name, v) (name, w)) :
    List.Forall₂ Veiled (given.put name v) (given'.put name w) := by
  induction givens with
  | nil => exact .cons veiled .nil
  | @cons f g _ _ first rest ih =>
      obtain ⟨k, v⟩ := f
      obtain ⟨l, w⟩ := g
      obtain rfl : l = k := first.name
      rw [Fields.put, Fields.put]
      split
      · next here =>
        obtain rfl := eq_of_beq here
        exact .cons veiled rest
      · exact .cons first ih

theorem readEntries_veiled {entries entries' : List String}
    (alike : List.Forall₂ EntryAlike entries entries') :
    Matches (List.Forall₂ Veiled) (readEntries entries) (readEntries entries') := by
  refine Matches.foldlM (fun given given' entry entry' givens first => ?_) alike .nil
  refine first.read.bind ?_
  rintro ⟨field, v⟩ ⟨_, w⟩ ⟨rfl, veiled⟩
  exact .ok (put_veiled givens veiled)

end ActionEngine.Settings
