import ActionEngine.Config.Parser
import ActionEngine.Proofs.Text.Lines

/-!
# Prompts in normal form

A prompt is read back in normal form: every row has its indentation in spaces and
nothing blank at its end, and no row at either end is blank. The normal form changes
nothing in a prompt that has it.
-/

namespace ActionEngine.Config

open ActionEngine.Text

/-- A row with its indentation in spaces and nothing blank at its end. -/
def normalRow (row : Line) : Line :=
  trimRight (List.replicate (columnOf (row.takeWhile isIndentation)) ' ' ++
    row.dropWhile isIndentation)

/-- The rows of a prompt, each in normal form, without the blank ones at both ends. -/
def normalPrompt (prompt : List Char) : List Char :=
  unlines (trimRows ((lines prompt).map normalRow))

/-- There is no boundary in the row, nothing blank at its end and no tab in front. -/
structure IsNormalRow (row : Line) : Prop where
  isLine : IsLine row
  trimmed : trimRight row = row
  spaced : ∀ c ∈ row.takeWhile isIndentation, c = ' '

/-- A prompt of such rows; neither the first nor the last is empty. -/
def IsNormalPrompt (prompt : List Char) : Prop :=
  ∃ rows, prompt = unlines rows ∧ (∀ row ∈ rows, IsNormalRow row) ∧
    rows.head? ≠ some [] ∧ rows.getLast? ≠ some []

/-! ### Indentation -/

/-- Tab stops stay where they are behind a whole number of them. -/
theorem foldl_advance {shift : Nat} (whole : tabStop ∣ shift) (indentation : Line)
    (column : Nat) :
    indentation.foldl advance (shift + column) = shift + indentation.foldl advance column := by
  induction indentation generalizing column with
  | nil => rfl
  | cons c indentation ih =>
      have step : advance (shift + column) c = shift + advance column c := by
        unfold advance tabStop at *
        split <;> omega
      rw [List.foldl_cons, step, ih, List.foldl_cons]

theorem foldl_advance_spaces (n column : Nat) :
    (List.replicate n ' ').foldl advance column = column + n := by
  induction n generalizing column with
  | zero => rfl
  | succ n ih =>
      have step : advance column ' ' = column + 1 := rfl
      rw [List.replicate_succ, List.foldl_cons, step, ih]
      omega

theorem columnOf_spaces (n : Nat) : columnOf (List.replicate n ' ') = n := by
  unfold columnOf
  rw [foldl_advance_spaces, Nat.zero_add]

theorem columnOf_spaces_append {n : Nat} (whole : tabStop ∣ n) (indentation : Line) :
    columnOf (List.replicate n ' ' ++ indentation) = n + columnOf indentation := by
  unfold columnOf
  rw [List.foldl_append, foldl_advance_spaces, Nat.zero_add]
  exact foldl_advance whole indentation 0

theorem isIndentation_of_mem_spaces {n : Nat} {c : Char} (h : c ∈ List.replicate n ' ') :
    isIndentation c = true := by
  rw [(List.mem_replicate.1 h).2]
  rfl

/-- Nothing of the indentation is left behind it, whatever is trimmed at the end. -/
theorem takeWhile_body (row : Line) :
    (trimRight (row.dropWhile isIndentation)).takeWhile isIndentation = [] := by
  cases h : trimRight (row.dropWhile isIndentation) with
  | nil => rfl
  | cons c rest =>
      obtain ⟨tail, htail⟩ := List.rdropWhile_prefix isBlank (row.dropWhile isIndentation)
      rw [← trimRight_eq_rdropWhile, h] at htail
      have hne : row.dropWhile isIndentation ≠ [] := by
        rw [← htail]
        simp
      have hc := List.head_dropWhile_not isIndentation hne
      simp only [← htail, List.cons_append, List.head_cons] at hc
      exact List.takeWhile_cons_of_neg (by simp [hc])

theorem dropWhile_body (row : Line) :
    (trimRight (row.dropWhile isIndentation)).dropWhile isIndentation =
      trimRight (row.dropWhile isIndentation) := by
  have h := List.takeWhile_append_dropWhile (p := isIndentation)
    (l := trimRight (row.dropWhile isIndentation))
  rwa [takeWhile_body, List.nil_append] at h

/-! ### Rows -/

theorem isBlank_of_isIndentation {c : Char} (h : isIndentation c = true) : isBlank c = true := by
  simp only [isIndentation, Bool.or_eq_true, beq_iff_eq] at h
  rcases h with rfl | rfl <;> rfl

theorem allBlank_indentation (row : Line) : allBlank (row.takeWhile isIndentation) = true := by
  refine List.all_eq_true.2 ?_
  intro c hc
  exact isBlank_of_isIndentation (List.mem_takeWhile_imp hc)

theorem allBlank_spaces (n : Nat) : allBlank (List.replicate n ' ') = true := by
  refine List.all_eq_true.2 ?_
  intro c hc
  exact isBlank_of_isIndentation (isIndentation_of_mem_spaces hc)

/-- A row is blank if it is so behind its indentation. -/
theorem allBlank_body (row : Line) :
    allBlank (row.dropWhile isIndentation) = allBlank row := by
  conv_rhs => rw [← List.takeWhile_append_dropWhile (p := isIndentation) (l := row)]
  rw [allBlank_append, allBlank_indentation, Bool.true_and]

theorem normalRow_of_allBlank {row : Line} (h : allBlank row = true) : normalRow row = [] := by
  unfold normalRow
  rw [trimRight_eq_nil_iff, allBlank_append, allBlank_spaces, allBlank_body, h]
  rfl

theorem normalRow_of_not_allBlank {row : Line} (h : allBlank row = false) :
    normalRow row = List.replicate (columnOf (row.takeWhile isIndentation)) ' ' ++
      trimRight (row.dropWhile isIndentation) := by
  unfold normalRow
  rw [trimRight_append]
  rw [allBlank_body, h]

theorem allBlank_normalRow (row : Line) : allBlank (normalRow row) = allBlank row := by
  unfold normalRow
  rw [allBlank_trimRight, allBlank_append, allBlank_spaces, Bool.true_and, allBlank_body]

theorem normalRow_normal {row : Line} (h : IsLine row) : IsNormalRow (normalRow row) where
  isLine := (IsLine.replicate rfl _ |>.append (h.sublist (List.dropWhile_sublist _))).trimRight
  trimmed := trimRight_trimRight _
  spaced := by
    cases blank : allBlank row with
    | true =>
        rw [normalRow_of_allBlank blank]
        simp
    | false =>
        rw [normalRow_of_not_allBlank blank,
          List.takeWhile_append_of_pos fun c hc => isIndentation_of_mem_spaces hc,
          takeWhile_body, List.append_nil]
        intro c hc
        exact (List.mem_replicate.1 hc).2

theorem IsNormalRow.normalRow_eq {row : Line} (h : IsNormalRow row) : normalRow row = row := by
  have spaces : row.takeWhile isIndentation =
      List.replicate (row.takeWhile isIndentation).length ' ' :=
    List.eq_replicate_iff.2 ⟨rfl, h.spaced⟩
  unfold normalRow
  rw [spaces, columnOf_spaces, ← spaces, List.takeWhile_append_dropWhile]
  exact h.trimmed

theorem IsNormalRow.allBlank_eq_false {row : Line} (h : IsNormalRow row) (hne : row ≠ []) :
    allBlank row = false := by
  by_contra blank
  rw [Bool.not_eq_false, ← trimRight_eq_nil_iff, h.trimmed] at blank
  exact hne blank

/-! ### Prompts -/

theorem trimRows_sublist (rows : List Line) : (trimRows rows).Sublist rows :=
  ((List.rdropWhile_prefix allBlank _).sublist).trans (List.dropWhile_sublist allBlank)

theorem allBlank_head?_trimRows {rows : List Line} {row : Line}
    (h : (trimRows rows).head? = some row) : allBlank row = false := by
  obtain ⟨tail, htail⟩ := List.rdropWhile_prefix allBlank (rows.dropWhile allBlank)
  change trimRows rows ++ tail = _ at htail
  cases hrows : trimRows rows with
  | nil =>
      rw [hrows] at h
      cases h
  | cons first rest =>
      rw [hrows] at h htail
      cases h
      have hne : rows.dropWhile allBlank ≠ [] := by
        rw [← htail]
        simp
      have hrow := List.head_dropWhile_not allBlank hne
      simpa only [← htail, List.cons_append, List.head_cons] using hrow

theorem allBlank_getLast?_trimRows {rows : List Line} {row : Line}
    (h : (trimRows rows).getLast? = some row) : allBlank row = false := by
  have hne : (rows.dropWhile allBlank).rdropWhile allBlank ≠ [] := by
    intro hnil
    change ((rows.dropWhile allBlank).rdropWhile allBlank).getLast? = some row at h
    rw [hnil] at h
    cases h
  have hrow := List.rdropWhile_last_not _ _ hne
  change ((rows.dropWhile allBlank).rdropWhile allBlank).getLast? = some row at h
  rw [List.getLast?_eq_some_getLast hne] at h
  cases h
  simpa using hrow

theorem trimRows_eq_self {rows : List Line} (first : ∀ row, rows.head? = some row →
    allBlank row = false) (last : ∀ row, rows.getLast? = some row → allBlank row = false) :
    trimRows rows = rows := by
  have hfirst : rows.dropWhile allBlank = rows := by
    cases rows with
    | nil => rfl
    | cons row rows => exact List.dropWhile_cons_of_neg (by simp [first row rfl])
  change (rows.dropWhile allBlank).rdropWhile allBlank = rows
  rw [hfirst, List.rdropWhile_eq_self_iff]
  intro hne
  simpa using last _ (List.getLast?_eq_some_getLast hne)

theorem trimRows_concat {rows : List Line} {row : Line} (h : allBlank row = true) :
    trimRows (rows ++ [row]) = trimRows rows := by
  change ((rows ++ [row]).dropWhile allBlank).rdropWhile allBlank =
    (rows.dropWhile allBlank).rdropWhile allBlank
  rw [List.dropWhile_append]
  split
  · rename_i hempty
    rw [List.isEmpty_iff.1 hempty, List.dropWhile_cons_of_pos h, List.dropWhile_nil]
  · exact List.rdropWhile_concat_pos _ _ _ h

theorem trimRows_of_allBlank {rows : List Line} (h : ∀ row ∈ rows, allBlank row = true) :
    trimRows rows = [] := by
  change (rows.dropWhile allBlank).rdropWhile allBlank = []
  rw [List.dropWhile_eq_nil_iff.2 h, List.rdropWhile_nil]

theorem normalPrompt_of_allBlank {prompt : List Char} (h : allBlank prompt = true) :
    normalPrompt prompt = [] := by
  unfold normalPrompt
  rw [trimRows_of_allBlank]
  · rfl
  · intro row hrow
    obtain ⟨line, hline, rfl⟩ := List.mem_map.1 hrow
    rw [allBlank_normalRow]
    refine List.all_eq_true.2 ?_
    intro c hc
    exact List.all_eq_true.1 h c (mem_of_mem_lines prompt line hline c hc)

theorem isNormalPrompt_trimRows {rows : List Line} (h : ∀ row ∈ rows, IsNormalRow row) :
    IsNormalPrompt (unlines (trimRows rows)) := by
  refine ⟨_, rfl, ?_, ?_, ?_⟩
  · intro row hrow
    exact h row ((trimRows_sublist rows).subset hrow)
  · intro first
    cases allBlank_head?_trimRows first
  · intro last
    cases allBlank_getLast?_trimRows last

theorem normalPrompt_normal (prompt : List Char) : IsNormalPrompt (normalPrompt prompt) := by
  refine isNormalPrompt_trimRows ?_
  intro row hrow
  obtain ⟨line, hline, rfl⟩ := List.mem_map.1 hrow
  exact normalRow_normal (isLine_of_mem_lines prompt line hline)

theorem IsNormalPrompt.normalPrompt_eq {prompt : List Char} (h : IsNormalPrompt prompt) :
    normalPrompt prompt = prompt := by
  obtain ⟨rows, rfl, normal, first, last⟩ := h
  have same : rows.map normalRow = rows := by
    conv_rhs => rw [← List.map_id rows]
    exact List.map_congr_left fun row hrow => (normal row hrow).normalRow_eq
  unfold normalPrompt
  rw [lines_unlines (fun row hrow => (normal row hrow).isLine) last, same]
  congr 1
  refine trimRows_eq_self ?_ ?_
  · rintro row hrow
    refine (normal row (List.mem_of_head? hrow)).allBlank_eq_false ?_
    rintro rfl
    exact first hrow
  · rintro row hrow
    refine (normal row (List.mem_of_getLast? hrow)).allBlank_eq_false ?_
    rintro rfl
    exact last hrow

/-- The prompts that stay as they are are those in normal form. -/
theorem normalPrompt_eq_self_iff {prompt : List Char} :
    normalPrompt prompt = prompt ↔ IsNormalPrompt prompt := by
  refine ⟨?_, IsNormalPrompt.normalPrompt_eq⟩
  intro h
  rw [← h]
  exact normalPrompt_normal prompt

end ActionEngine.Config
