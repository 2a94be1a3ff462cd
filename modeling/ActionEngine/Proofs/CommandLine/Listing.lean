import ActionEngine.Proofs.CommandLine.Printing
import ActionEngine.Proofs.Config.Reload
import ActionEngine.Proofs.Registry.Categories

/-!
# What a list command prints

Every action that can be registered from a file has a title on one line and an id without
blanks. So the printed text falls into the lines that were meant, one for each category and
one for each action, and an action is recognised by its line.
-/

namespace ActionEngine

open Text

theorem Category.title_injective {c d : Category} (same : c.title = d.title) : c = d := by
  have found (k : Category) : all.find? (fun l => l.title == k.title) = some k := by
    cases k <;> decide
  rw [← Option.some_inj, ← found c, same, found d]

/-- The action takes one line in a list, and its id is found again there. -/
structure Action.Listable (a : Action) : Prop where
  known : ∃ c, a.category = .known c
  name : ∀ ch ∈ a.name.toList, Config.isKeyChar ch = true
  title : IsLine a.title.toList

theorem Action.Listable.not_isBlank_id {a : Action} (h : a.Listable) :
    ∀ ch ∈ a.id.toList, isBlank ch = false := by
  obtain ⟨c, hc⟩ := h.known
  have word : c.word.toList.all (fun ch => !isBlank ch) = true := by
    cases c <;> rfl
  intro ch hch
  simp only [Action.id, hc, Category.Label.text, String.toList_append, List.mem_append] at hch
  rcases hch with (hch | hch) | hch
  · simpa using List.all_eq_true.1 word ch hch
  · rw [List.mem_singleton.1 hch]
    rfl
  · exact Config.isBlank_of_isKeyChar (h.name ch hch)

/-- Whatever text is read over the built-in actions, what is registered can be listed. -/
theorem Registry.Snapshot.listable_of_mem_actions {text : Option String} {a : Action}
    (h : a ∈ (build Builtin.actions (Config.parseActions text)).actions) : a.Listable := by
  have builtin : ∀ b ∈ Builtin.actions,
      b.name.toList.all Config.isKeyChar = true ∧ IsLine b.title.toList := by
    decide +kernel
  have given : ∀ b ∈ Builtin.actions ++ Config.parseActions text,
      (∀ ch ∈ b.name.toList, Config.isKeyChar ch = true) ∧ IsLine b.title.toList := by
    intro b hb
    rcases List.mem_append.1 hb with hb | hb
    · exact ⟨List.all_eq_true.1 (builtin b hb).1, (builtin b hb).2⟩
    · have written := (Config.parsed_of_mem_parseActions hb).writable
      exact ⟨written.name, written.title⟩
  -- It is a definition that was given, but for its category.
  obtain ⟨b, hb, known⟩ := List.mem_filterMap.1 (mem_actions_build.1 h).mem
  obtain ⟨c, -, rfl⟩ := Action.normalised?_eq_some_iff.1 known
  exact ⟨⟨c, rfl⟩, (given b hb).1, (given b hb).2⟩

namespace CommandLine

open Registry Steps

/-! ### Lines of a list -/

def actionRow (a : Action) : Line :=
  (actionLine a).toList.dropLast

/-- What stands behind the title says which flags are set. -/
theorem actionLine_eq (a : Action) : ∃ flags : String, IsLine flags.toList ∧
    actionLine a = "  " ++ Journal.padded 36 a.id ++ " " ++ a.title ++ flags ++ "\n" := by
  unfold actionLine
  refine ⟨_, ?_, rfl⟩
  cases a.needsSelection <;> cases a.external <;> decide

/-- The line of an action is indented, and a blank follows the id. -/
theorem toList_actionLine {a : Action} (h : a.Listable) : ∃ rest, IsLine rest ∧
    (actionLine a).toList = ' ' :: ' ' :: (a.id.toList ++ ' ' :: rest) ++ ['\n'] := by
  obtain ⟨flags, plain, line⟩ := actionLine_eq a
  refine ⟨List.replicate (36 - a.id.length) ' ' ++ (a.title.toList ++ flags.toList),
    (IsLine.replicate rfl _).append (h.title.append plain), ?_⟩
  -- The blanks that fill the id up may as well stand behind the one that follows them.
  have blanks (n : Nat) (s : Line) :
      List.replicate n ' ' ++ ' ' :: s = ' ' :: (List.replicate n ' ' ++ s) := by
    rw [← List.cons_append, ← List.replicate_succ, List.replicate_succ', List.append_assoc,
      List.singleton_append]
  rw [line, Journal.padded]
  simp [blanks]

theorem actionRow_eq {a : Action} (h : a.Listable) : ∃ rest, IsLine rest ∧
    actionRow a = ' ' :: ' ' :: (a.id.toList ++ ' ' :: rest) := by
  obtain ⟨rest, plain, line⟩ := toList_actionLine h
  exact ⟨rest, plain, by rw [actionRow, line, List.dropLast_concat]⟩

theorem isLine_actionRow {a : Action} (h : a.Listable) : IsLine (actionRow a) := by
  obtain ⟨rest, plain, row⟩ := actionRow_eq h
  rw [row]
  have id : IsLine a.id.toList := fun ch hch => isBoundary_of_not_isBlank (h.not_isBlank_id ch hch)
  exact .cons rfl (.cons rfl (id.append (.cons rfl plain)))

/-- Lines of actions are the same only for the same id. -/
theorem id_eq_of_actionRow_eq {a b : Action} (ha : a.Listable) (hb : b.Listable)
    (same : actionRow a = actionRow b) : a.id = b.id := by
  have found : ∀ {c : Action}, c.Listable →
      ((actionRow c).drop 2).takeWhile (fun ch => !isBlank ch) = c.id.toList := by
    intro c hc
    obtain ⟨rest, -, row⟩ := actionRow_eq hc
    have solid : ∀ ch ∈ c.id.toList, (!isBlank ch) = true := fun ch hch => by
      rw [hc.not_isBlank_id ch hch]
      rfl
    rw [row, List.drop_succ_cons, List.drop_succ_cons, List.drop_zero,
      List.takeWhile_append_of_pos solid, List.takeWhile_cons_of_neg (by decide), List.append_nil]
  rw [← String.toList_inj, ← found ha, same, found hb]

theorem title_ne_actionRow (c : Category) {a : Action} (h : a.Listable) :
    c.title.toList ≠ actionRow a := by
  obtain ⟨rest, -, row⟩ := actionRow_eq h
  rw [row]
  intro same
  have first := congrArg List.head? same
  cases c <;> simp [Category.title] at first

/-! ### Sections -/

def sectionRows (s : Snapshot) (c : Category) : List Line :=
  c.title.toList :: (s.actionsOf c).map actionRow

/-- The lines of a list: a section for every category that is available, or the section of
    the chosen one if it is. -/
def listedRows (s : Snapshot) : Option Category → List Line
  | none => s.categories.flatMap (sectionRows s)
  | some c => if s.actionsOf c = [] then [] else sectionRows s c

def listed (s : Snapshot) (choice : Option Category) : List Category :=
  s.categories.filter fun c => choice.all (c = ·)

theorem listedRows_eq (s : Snapshot) (choice : Option Category) :
    listedRows s choice = (listed s choice).flatMap (sectionRows s) := by
  cases choice with
  | none => simp [listedRows, listed]
  | some c =>
      have only : listed s (some c) = List.replicate (s.categories.count c) c :=
        s.categories.filter_eq c
      rw [only, s.nodup_categories.count, listedRows]
      by_cases none_there : s.actionsOf c = []
      · rw [if_pos none_there, if_neg fun there => Snapshot.mem_categories.1 there none_there]
        rfl
      · rw [if_neg none_there, if_pos (Snapshot.mem_categories.2 none_there)]
        simp

theorem actionList_eq (s : Snapshot) (choice : Option Category) :
    actionList s (choice.map Category.word) = String.join ((listed s choice).map fun c =>
      c.title ++ "\n" ++ String.join ((s.actionsOf c).map actionLine)) := by
  unfold actionList listed
  cases choice with
  | none => simp
  | some c =>
      have given : (some c.word).filter (· != "") = some c.word := by
        cases c <;> decide
      have same (d : Category) : (d.word == c.word) = decide (d = c) := by
        rw [Bool.eq_iff_iff, beq_iff_eq, decide_eq_true_eq]
        exact ⟨Category.word_injective, congrArg Category.word⟩
      rw [Option.map_some, given]
      simp only [same, Option.all_some]

theorem toList_actionList (s : Snapshot) (choice : Option Category) :
    (actionList s (choice.map Category.word)).toList =
      (listedRows s choice).flatMap (· ++ ['\n']) := by
  have line (a : Action) : (actionLine a).toList = actionRow a ++ ['\n'] := by
    obtain ⟨flags, -, line⟩ := actionLine_eq a
    rw [actionRow, line, String.toList_append]
    exact (congrArg (· ++ ['\n']) List.dropLast_concat).symm
  rw [actionList_eq, listedRows_eq, String.toList_join, List.flatMap_assoc, List.flatMap_map]
  refine List.flatMap_congr fun c _ => ?_
  simp [sectionRows, List.flatMap_map, line]

section Listed

variable {s : Snapshot} (listable : ∀ a ∈ s.actions, a.Listable)
include listable

theorem isLine_of_mem_listedRows {choice : Option Category} {row : Line}
    (h : row ∈ listedRows s choice) : IsLine row := by
  rw [listedRows_eq] at h
  obtain ⟨c, -, h⟩ := List.mem_flatMap.1 h
  rcases List.mem_cons.1 h with rfl | h
  · cases c <;> decide
  · obtain ⟨a, ha, rfl⟩ := List.mem_map.1 h
    exact isLine_actionRow (listable a (Snapshot.mem_actionsOf.1 ha).1)

/-- The text of a list consists of its lines. -/
theorem lines_actionList (choice : Option Category) :
    lines (actionList s (choice.map Category.word)).toList = listedRows s choice := by
  rw [toList_actionList]
  exact lines_flatMap_line_feed fun row => isLine_of_mem_listedRows listable

variable (distinct : (s.actions.map Action.id).Nodup)
include distinct

theorem eq_of_actionRow_eq {a b : Action} (ha : a ∈ s.actions) (hb : b ∈ s.actions)
    (same : actionRow a = actionRow b) : a = b :=
  List.inj_on_of_nodup_map distinct ha hb
    (id_eq_of_actionRow_eq (listable a ha) (listable b hb) same)

/-- The line of a registered action stands in the section of its category, and nowhere else. -/
theorem mem_listedRows_iff {choice : Option Category} {a : Action} (ha : a ∈ s.actions) :
    actionRow a ∈ listedRows s choice ↔ ∀ c ∈ choice, a.category = .known c := by
  rw [listedRows_eq, List.mem_flatMap]
  constructor
  · rintro ⟨c, hc, h⟩ d hd
    rcases List.mem_cons.1 h with h | h
    · exact absurd h.symm (title_ne_actionRow c (listable a ha))
    · obtain ⟨b, hb, same⟩ := List.mem_map.1 h
      obtain ⟨hb, hcategory⟩ := Snapshot.mem_actionsOf.1 hb
      rw [← eq_of_actionRow_eq listable distinct hb ha same, hcategory]
      cases hd
      simpa [listed] using (List.mem_filter.1 hc).2
  · intro chosen
    obtain ⟨c, hc⟩ := (listable a ha).known
    have there := Snapshot.mem_actionsOf.2 ⟨ha, hc⟩
    refine ⟨c, List.mem_filter.2 ⟨Snapshot.mem_categories.2 (List.ne_nil_of_mem there), ?_⟩,
      List.mem_cons_of_mem _ (List.mem_map_of_mem there)⟩
    rw [Option.all_eq_true]
    intro d hd
    rw [decide_eq_true_eq]
    exact Category.Label.known.inj (hc.symm.trans (chosen d hd))

/-- No line of a list stands there twice. -/
theorem nodup_listedRows (choice : Option Category) : (listedRows s choice).Nodup := by
  have action {c : Category} {a : Action} (ha : a ∈ s.actionsOf c) : a ∈ s.actions :=
    (Snapshot.mem_actionsOf.1 ha).1
  have apart (c d : Category) (h : c.title.toList ∈ (s.actionsOf d).map actionRow) : False := by
    obtain ⟨a, ha, same⟩ := List.mem_map.1 h
    exact title_ne_actionRow c (listable a (action ha)) same.symm
  rw [listedRows_eq]
  refine List.nodup_flatMap.2 ⟨fun c _ => ?_, ?_⟩
  · have actions : (s.actionsOf c).Nodup := (distinct.of_map _).sublist (s.actionsOf_sublist c)
    exact List.nodup_cons.2 ⟨apart c c, actions.map_on fun a ha b hb same =>
      eq_of_actionRow_eq listable distinct (action ha) (action hb) same⟩
  · refine (s.nodup_categories.filter _).imp fun {c d} other row hc hd => other ?_
    rcases List.mem_cons.1 hc with rfl | hc
    · rcases List.mem_cons.1 hd with same | hd
      · exact Category.title_injective (String.toList_inj.1 same)
      · exact (apart c d hd).elim
    · rcases List.mem_cons.1 hd with rfl | hd
      · exact (apart d c hc).elim
      · obtain ⟨a, ha, rfl⟩ := List.mem_map.1 hc
        obtain ⟨b, hb, same⟩ := List.mem_map.1 hd
        rw [eq_of_actionRow_eq listable distinct (action hb) (action ha) same] at hb
        exact Category.Label.known.inj
          ((Snapshot.mem_actionsOf.1 ha).2.symm.trans (Snapshot.mem_actionsOf.1 hb).2)

end Listed

/-! ### List commands -/

theorem carryOut_list {host : Host} {a : Arguments} {settings : Settings} {t t₁ : Terminal}
    {engine : Engine} (built : (buildEngine host settings a.actionsPath).run t = (.ok engine, t₁))
    (store : Settings.Store) (overrides : Fields) (word : Option String) :
    (carryOut host { a with command := .list word } store overrides settings).run t =
      (.ok 0, { t₁ with output := t₁.output ++ actionList engine.registry.snapshot word }) :=
  run_bind_of_ok built

/-- The available categories are those that have actions, and asking for the actions of each
    gives every action once, in the order of the snapshot. A list has a section for each
    available category, or the section of the one that was chosen. In the lines that a list
    command prints, every registered action has one line, unless another category was chosen. -/
theorem actions_listed_once_by_category :
    (∀ baseline custom : List Action,
      let s := Snapshot.build baseline custom
      s.categories.Sublist Category.all ∧ s.categories.Nodup ∧
        (∀ c, c ∈ s.categories ↔ s.actionsOf c ≠ []) ∧
        (∀ c, s.actionsFor (.text c.word) = s.actionsOf c) ∧
        (∀ c, (s.actionsOf c).Sublist s.actions) ∧
        (s.categories.flatMap s.actionsOf).Perm s.actions ∧ (s.actions.map Action.id).Nodup ∧
        ∀ choice : Option Category, (actionList s (choice.map Category.word)).toList =
          (listedRows s choice).flatMap (· ++ ['\n'])) ∧
    ∀ (host : Host) (a : Arguments) (store : Settings.Store) (overrides : Fields)
      (settings : Settings) (t t₁ : Terminal) (engine : Engine),
      (buildEngine host settings a.actionsPath).run t = (.ok engine, t₁) →
      let s := engine.registry.snapshot
      (∃ text, s = Snapshot.build Builtin.actions (Config.parseActions text)) ∧
        ∀ choice : Option Category, ∃ listing : String,
          (carryOut host { a with command := .list (choice.map Category.word) } store overrides
            settings).run t = (.ok 0, { t₁ with output := t.output ++ listing }) ∧
          lines listing.toList = listedRows s choice ∧
          ∀ b ∈ s.actions, (lines listing.toList).count (actionRow b) =
            if ∀ c ∈ choice, b.category = .known c then 1 else 0 := by
  constructor
  · intro baseline custom s
    exact ⟨s.categories_sublist, s.nodup_categories, fun c => Snapshot.mem_categories,
      s.actionsFor_word, s.actionsOf_sublist, Snapshot.flatMap_actionsOf_perm,
      Snapshot.nodup_map_id_actions_build, toList_actionList s⟩
  · intro host a store overrides settings t t₁ engine built s
    obtain ⟨kept, gives⟩ :=
      buildEngine_silent_of (chooseService_prints_nothing host settings) a.actionsPath t
    rw [built] at kept gives
    obtain ⟨-, -, text, source⟩ := gives engine rfl
    change s = _ at source
    have listable : ∀ b ∈ s.actions, b.Listable := by
      rw [source]
      exact fun b => Snapshot.listable_of_mem_actions
    have distinct : (s.actions.map Action.id).Nodup := by
      rw [source]
      exact Snapshot.nodup_map_id_actions_build
    refine ⟨⟨text, source⟩, fun choice => ⟨actionList s (choice.map Category.word), ?_,
      lines_actionList listable choice, fun b hb => ?_⟩⟩
    · rw [carryOut_list built, kept]
    · rw [lines_actionList listable, (nodup_listedRows listable distinct choice).count]
      simp only [mem_listedRows_iff listable distinct hb]

/-- A disk with a file that takes over a built-in action. -/
def customDisk : Disk where
  nodes := [(["a.yaml"], .file (utf8Encode
    "Citations:\n  format:\n    title: Cite\n    prompt: p\n".toList))]

/-- The citations, with the action of the file in the place of the built-in one. -/
def citationRows : List Line :=
  ["Citations", "  citations.find_supporting            Find supporting citation  [external]",
    "  citations.check_needed               Check citation needed",
    "  citations.format                     Cite"].map String.toList

theorem overridden_citation_listed :
    let settingsFile : Settings.Store := ⟨.ofText "settings.json", .ofText "settings.key"⟩
    ∃ engine t₁ listing,
      (buildEngine {} Settings.initial (some "a.yaml")).run { disk := customDisk } =
        (.ok engine, t₁) ∧
      (carryOut {} { actionsPath := some "a.yaml", command := .list (some "citations") }
        settingsFile [] Settings.initial).run { disk := customDisk } =
          (.ok 0, { t₁ with output := listing }) ∧
      lines listing.toList = citationRows := by
  intro settingsFile
  have shown : (match ((buildEngine {} Settings.initial (some "a.yaml")).run
      { disk := customDisk }).1 with
    | .ok engine => listedRows engine.registry.snapshot (some .citations)
    | .error _ => []) = citationRows := by decide +kernel
  rcases built : (buildEngine {} Settings.initial (some "a.yaml")).run { disk := customDisk } with
    ⟨fault | engine, t₁⟩
  · rw [built] at shown
    exact absurd shown.symm (List.cons_ne_nil _ _)
  · rw [built] at shown
    obtain ⟨listing, ran, rows, -⟩ := (actions_listed_once_by_category.2 {}
      { actionsPath := some "a.yaml" } settingsFile [] Settings.initial { disk := customDisk } t₁
      engine built).2 (some .citations)
    refine ⟨engine, t₁, listing, rfl, ?_, rows.trans shown⟩
    rw [← String.empty_append (s := listing)]
    exact ran

end CommandLine

end ActionEngine
