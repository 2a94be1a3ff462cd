import ActionEngine.Proofs.Config.Grouping
import ActionEngine.Proofs.Config.Reading

/-!
# Writing and reading again

The rows of a printed file are found again as its lines, so reading it gives the actions
that were printed, group by group, with their prompts in normal form.
-/

namespace ActionEngine.Config

open ActionEngine.Text

/-! ### Printed rows -/

/-- A row without a boundary that does not start like a byte order mark. -/
structure IsPrinted (row : Line) : Prop where
  isLine : IsLine row
  unmarked : row.head? ≠ some '\ufeff'

theorem isBoundary_of_isKeyChar {c : Char} (h : isKeyChar c = true) : isBoundary c = false :=
  isBoundary_of_not_isBlank (isBlank_of_isKeyChar h)

theorem IsPrinted.atColumn {column : Nat} {line : Line} (h : IsLine line) (hpos : 0 < column) :
    IsPrinted (atColumn column line) := by
  cases column with
  | zero => cases hpos
  | succ column => exact ⟨(IsLine.replicate rfl _).append h, by simp [Config.atColumn,
      List.replicate_succ]⟩

theorem IsPrinted.property {key : String} {value : Line} (hkey : IsLine key.toList)
    (hvalue : IsLine value) : IsPrinted (propertyRow key value) :=
  .atColumn (hkey.append (.cons rfl (.cons rfl hvalue))) (by decide)

theorem isLine_inQuotes {value : String} (h : IsLine value.toList) : IsLine (inQuotes value) :=
  .cons rfl (h.append (.cons rfl .nil))

theorem isLine_flagWord (b : Bool) : IsLine (flagWord b) := by
  cases b <;> decide

theorem isPrinted_promptRow {row : Line} (h : IsLine row) : IsPrinted (promptRow row) := by
  unfold promptRow
  split
  · exact ⟨.nil, by simp⟩
  · rename_i content
    rw [Bool.not_eq_true] at content
    have printed : IsPrinted (trimRight (atColumn (propertyColumn + 2) row)) := by
      refine ⟨((IsLine.replicate rfl _).append h).trimRight, ?_⟩
      unfold atColumn
      rw [trimRight_append content]
      exact (IsPrinted.atColumn h.trimRight (by decide)).unmarked
    exact printed

theorem isPrinted_promptRows (prompt : String) : ∀ row ∈ promptRows prompt, IsPrinted row := by
  unfold promptRows
  split
  · intro row hrow
    rw [List.mem_singleton.1 hrow]
    exact .property (by decide) (by decide)
  · dsimp only
    intro row hrow
    rcases List.mem_cons.1 hrow with rfl | hrow
    · refine .property (by decide) ?_
      split <;> decide
    · obtain ⟨line, hline, rfl⟩ := List.mem_map.1 hrow
      exact isPrinted_promptRow (isLine_of_mem_lines _ line hline)

theorem isPrinted_iconRows {icon : Option String}
    (h : ∀ i, icon = some i → IsLine i.toList) : ∀ row ∈ iconRows icon, IsPrinted row := by
  unfold iconRows
  cases icon with
  | none => simp
  | some i =>
      dsimp only
      split
      · simp
      · intro row hrow
        rw [List.mem_singleton.1 hrow]
        exact .property (by decide) (isLine_inQuotes (h i rfl))

theorem isPrinted_actionRows {a : Action} (writable : a.Writable) :
    ∀ row ∈ actionRows a, IsPrinted row := by
  have name : IsLine (a.name.toList ++ [':']) :=
    IsLine.append (fun c hc => isBoundary_of_isKeyChar (writable.name c hc)) (.cons rfl .nil)
  unfold actionRows
  intro row hrow
  simp only [List.cons_append, List.mem_cons, List.mem_append] at hrow
  rcases hrow with rfl | rfl | hrow | rfl | rfl | hrow
  · exact .atColumn name (by decide)
  · exact .property (by decide) (isLine_inQuotes writable.title)
  · exact isPrinted_iconRows writable.icon row hrow
  · exact .property (by decide) (isLine_flagWord _)
  · exact .property (by decide) (isLine_flagWord _)
  · exact isPrinted_promptRows a.prompt row hrow

theorem isPrinted_groupRows {group : Category × List Action}
    (writable : ∀ a ∈ group.2, a.Writable) : ∀ row ∈ groupRows group, IsPrinted row := by
  have word : IsPrinted (group.1.word.toList ++ [':']) := by
    cases group.1 <;> exact ⟨by decide, by decide⟩
  unfold groupRows
  intro row hrow
  simp only [List.cons_append, List.mem_cons, List.mem_append, List.mem_flatMap] at hrow
  rcases hrow with rfl | ⟨a, ha, hrow⟩ | hrow
  · exact word
  · exact isPrinted_actionRows (writable a ha) row hrow
  · rcases hrow with rfl | hrow
    · exact ⟨.nil, by simp⟩
    · cases hrow

theorem isPrinted_headerRows (header : Option String) :
    ∀ row ∈ headerRows header, IsPrinted row := by
  unfold headerRows
  cases header with
  | none => simp
  | some text =>
      dsimp only
      split
      · simp
      · intro row hrow
        rcases List.mem_append.1 hrow with hrow | hrow
        · obtain ⟨line, hline, rfl⟩ := List.mem_map.1 hrow
          refine ⟨?_, by rw [trimRight_cons rfl]; simp⟩
          exact (IsLine.cons rfl (.cons rfl (isLine_of_mem_lines _ line hline))).trimRight
        · rw [List.mem_singleton.1 hrow]
          exact ⟨.nil, by simp⟩

/-! ### The printed text -/

theorem unlines_concat_append (rows : List Line) (row : Line) :
    ∃ front, unlines (rows ++ [row]) = front ++ row := by
  cases rows with
  | nil => exact ⟨[], rfl⟩
  | cons first rows =>
      refine ⟨unlines (first :: rows) ++ ['\n'], ?_⟩
      rw [unlines_concat (by simp), List.append_assoc]
      rfl

/-- Line feeds at the end of a text are empty rows at its end. -/
theorem dropNewlines_unlines {rows : List Line} (h : ∀ row ∈ rows, IsLine row) :
    dropNewlines (unlines rows) = unlines (rows.rdropWhile List.isEmpty) := by
  change (unlines rows).rdropWhile (· == '\n') = _
  induction rows using List.reverseRecOn with
  | nil => rfl
  | append_singleton rows row ih =>
      have ih := ih fun r hr => h r (List.mem_append_left _ hr)
      rcases List.eq_nil_or_concat row with rfl | ⟨init, c, rfl⟩
      · rw [List.rdropWhile_concat_pos _ _ _ rfl]
        cases rows with
        | nil => rfl
        | cons first rows =>
            rw [unlines_concat (by simp), List.rdropWhile_concat_pos _ _ _ rfl, ih]
      · rw [List.concat_eq_append] at h ⊢
        obtain ⟨front, hfront⟩ := unlines_concat_append rows (init ++ [c])
        have hc : ¬(c == '\n') = true := by
          have boundary := h (init ++ [c]) (by simp) c (by simp)
          intro feed
          rw [beq_iff_eq.1 feed] at boundary
          cases boundary
        have content : ¬(init ++ [c]).isEmpty = true := by simp
        rw [List.rdropWhile_concat_neg _ _ _ content, hfront, ← List.append_assoc]
        exact List.rdropWhile_concat_neg _ _ _ hc

theorem head?_unlines_line_feed {rows : List Line} (h : ∀ row ∈ rows, IsPrinted row) :
    (unlines rows ++ ['\n']).head? ≠ some '\ufeff' := by
  cases rows with
  | nil => decide
  | cons row rows =>
      have front : ∃ rest, unlines (row :: rows) ++ ['\n'] = row ++ '\n' :: rest := by
        cases rows with
        | nil => exact ⟨[], rfl⟩
        | cons next rows => exact ⟨unlines (next :: rows) ++ ['\n'], by simp [unlines]⟩
      obtain ⟨rest, hrest⟩ := front
      rw [hrest]
      cases row with
      | nil => simp
      | cons c row => exact (h (c :: row) (by simp)).unmarked

/-- What the parser holds behind the rows, it holds behind the text that they make. -/
theorem holds_text {rows : List Line} (h : ∀ row ∈ rows, IsPrinted row)
    {category : Option Line} {actions : List Action}
    (holds : (Parser.initial.read 1 rows).Holds category actions) :
    (Parser.initial.feedAll (tokens (dropNewlines (unlines rows) ++ ['\n']))).Holds category
      actions := by
  have isLine : ∀ row ∈ rows, IsLine row := fun row hrow => (h row hrow).isLine
  have kept : (Parser.initial.read 1 (rows.rdropWhile List.isEmpty)).Holds category actions := by
    have blanks : rows.rtakeWhile List.isEmpty =
        List.replicate (rows.rtakeWhile List.isEmpty).length [] := by
      refine List.eq_replicate_iff.2 ⟨rfl, ?_⟩
      intro row hrow
      exact List.isEmpty_iff.1 (List.mem_rtakeWhile_imp hrow)
    rw [← List.rdropWhile_append_rtakeWhile (p := List.isEmpty) (l := rows),
      Parser.read_append, blanks] at holds
    exact (Parser.Holds.read_blanks_iff _ _).1 holds
  have front : ∀ row ∈ rows.rdropWhile List.isEmpty, IsPrinted row :=
    fun row hrow => h row ((List.rdropWhile_prefix _ _).subset hrow)
  rw [dropNewlines_unlines isLine]
  generalize rows.rdropWhile List.isEmpty = text at kept front
  unfold tokens
  rw [dropMark_eq (head?_unlines_line_feed front)]
  cases text with
  | nil => exact (Parser.Holds.feed_blank_iff 1).2 kept
  | cons row text =>
      rw [lines_unlines_line_feed (fun row hrow => (front row hrow).isLine) (by simp)]
      exact kept

def fileRows (actions : List Action) (header : Option String) : List Line :=
  headerRows header ++ (grouped actions).flatMap groupRows

theorem isPrinted_fileRows {actions : List Action} (writable : ∀ a ∈ actions, a.Writable)
    (header : Option String) : ∀ row ∈ fileRows actions header, IsPrinted row := by
  unfold fileRows
  intro row hrow
  rcases List.mem_append.1 hrow with hrow | hrow
  · exact isPrinted_headerRows header row hrow
  · obtain ⟨group, hgroup, hrow⟩ := List.mem_flatMap.1 hrow
    exact isPrinted_groupRows (fun a ha => writable a (mem_of_mem_grouped hgroup ha)) row hrow

theorem holds_fileRows {actions : List Action} (writable : ∀ a ∈ actions, a.Writable)
    (header : Option String) :
    ∃ category, (Parser.initial.read 1 (fileRows actions header)).Holds category
      ((regrouped actions).map Action.reread) := by
  have start : Parser.initial.Holds none [] := .of_idle Phase.noConfusion
  obtain ⟨category, holds⟩ := start.read_groups (grouped actions)
    (fun group hgroup a ha => writable a (mem_of_mem_grouped hgroup ha))
    (1 + (headerRows header).length)
  refine ⟨category, ?_⟩
  unfold fileRows
  rw [Parser.read_append, Parser.Holds.read_headerRows]
  rwa [List.nil_append, flatMap_grouped] at holds

theorem holds_render {actions : List Action} (writable : ∀ a ∈ actions, a.Writable)
    (header : Option String) :
    ∃ category, (Parser.initial.feedAll (tokens (render actions header).toList)).Holds category
      ((regrouped actions).map Action.reread) := by
  obtain ⟨category, holds⟩ := holds_fileRows writable header
  have printed := isPrinted_fileRows writable header
  refine ⟨category, ?_⟩
  cases hrows : fileRows actions header with
  | nil =>
      have text : render actions header = "" := by
        rw [render, ← fileRows, hrows]
      rw [hrows] at holds
      rw [text]
      exact holds
  | cons row rows =>
      have text : render actions header =
          String.ofList (dropNewlines (unlines (row :: rows)) ++ ['\n']) := by
        rw [render, ← fileRows, hrows]
      rw [hrows] at holds printed
      rw [text, String.toList_ofList]
      exact holds_text printed holds

theorem filter_icon {icon : Option String} (h : icon ≠ some "") :
    icon.filter (· != "") = icon := by
  cases icon with
  | none => rfl
  | some i =>
      have hne : i ≠ "" := by
        rintro rfl
        exact h rfl
      exact Option.filter_some_pos (by simpa using hne)

/-- What comes back unchanged is a prompt in normal form, with an icon that is not empty. -/
theorem reread_eq_self_iff {a : Action} :
    a.reread = a ↔ IsNormalPrompt a.prompt.toList ∧ a.icon ≠ some "" := by
  rw [← normalPrompt_eq_self_iff]
  constructor
  · intro h
    refine ⟨?_, ?_⟩
    · have prompt := congrArg (fun b => b.prompt.toList) h
      simpa [Action.reread] using prompt
    · intro empty
      have icon := congrArg Action.icon h
      rw [empty] at icon
      cases icon.symm.trans (congrArg (fun i => Option.filter (· != "") i) empty)
  · rintro ⟨prompt, icon⟩
    unfold Action.reread
    rw [prompt, filter_icon icon, String.ofList_toList]

/-- Reading what was written skips nothing and gives the actions that are under some
    category, by category in order of first appearance; only their prompts are brought
    into normal form, and an empty icon is none. In particular no row of a prompt is taken
    for anything else, and actions whose prompts are in normal form come back unchanged. -/
theorem parse_render (actions : List Action) (header : Option String)
    (writable : ∀ a ∈ actions, a.Writable) :
    ((Parser.parse (some (render actions header))).skipped = 0 ∧
        (Parser.parse (some (render actions header))).sound = true) ∧
      (Parser.parse (some (render actions header))).actions =
        (regrouped actions).map Action.reread ∧
      ((∀ a ∈ actions, IsNormalPrompt a.prompt.toList ∧ a.icon ≠ some "") →
        (Parser.parse (some (render actions header))).actions = regrouped actions) := by
  obtain ⟨category, holds⟩ := holds_render writable header
  have back : (Parser.parse (some (render actions header))).actions =
      (regrouped actions).map Action.reread := holds.actions
  refine ⟨⟨holds.skipped, ?_⟩, back, ?_⟩
  · exact (Parser.flush_frame _).2.2.2.trans holds.sound
  · intro normal
    have same : ∀ a ∈ regrouped actions, a.reread = a := by
      intro a ha
      obtain ⟨b, hb, c, -, rfl⟩ := mem_regrouped.1 ha
      exact reread_eq_self_iff.2 (normal b hb)
    rw [back, List.map_congr_left same, List.map_id']

/-- An action whose prompt looks like other parts of a file. -/
def lookalike : Action :=
  { category := .named " Rewrite", name := "a-1", title := "Say \"A\""
    prompt := "\n\ttitle: x\n  # y \n" }

theorem parse_render_lookalike :
    (Parser.parse (some (render [lookalike] none))).actions =
      [{ category := .known .rewriting, name := "a-1", title := "Say \"A\""
         prompt := "  title: x\n  # y" }] := by
  have writable : ∀ a ∈ [lookalike], a.Writable := by
    intro a ha
    rw [List.mem_singleton.1 ha]
    exact ⟨List.all_eq_true.1 (by decide), by decide, by decide, by decide, by rintro i ⟨⟩⟩
  exact (parse_render [lookalike] none writable).2.1.trans (by decide +kernel)

end ActionEngine.Config
