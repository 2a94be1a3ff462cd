import ActionEngine.Proofs.Text.Blank
import ActionEngine.Text.Lines

/-!
# Lines and line feeds

Cutting a text gives lines without a boundary, and lines that are set one under the
other are found again by cutting, apart from empty ones at the end.
-/

namespace ActionEngine.Text

def IsLine (line : Line) : Prop :=
  ∀ c ∈ line, isBoundary c = false

instance (line : Line) : Decidable (IsLine line) :=
  decidable_of_iff ((line.all fun c => !isBoundary c) = true) (by simp [IsLine])

theorem isBlank_of_isBoundary {c : Char} (h : isBoundary c = true) : isBlank c = true := by
  simp only [isBoundary, Bool.or_eq_true, beq_iff_eq] at h
  rcases h with ((((((((rfl | rfl) | rfl) | rfl) | rfl) | rfl) | rfl) | rfl) | rfl) | rfl <;> decide

theorem isBoundary_of_not_isBlank {c : Char} (h : isBlank c = false) : isBoundary c = false := by
  by_contra hc
  rw [isBlank_of_isBoundary (by simpa using hc)] at h
  cases h

namespace IsLine

theorem nil : IsLine [] := by
  intro c hc
  cases hc

theorem sublist {s t : Line} (h : IsLine t) (hs : s.Sublist t) : IsLine s :=
  fun c hc => h c (hs.subset hc)

theorem append {s t : Line} (hs : IsLine s) (ht : IsLine t) : IsLine (s ++ t) := by
  intro c hc
  exact (List.mem_append.1 hc).elim (hs c) (ht c)

theorem cons {c : Char} {s : Line} (hc : isBoundary c = false) (hs : IsLine s) :
    IsLine (c :: s) := by
  intro d hd
  rcases List.mem_cons.1 hd with rfl | hd
  · exact hc
  · exact hs d hd

theorem replicate {c : Char} (hc : isBoundary c = false) (n : Nat) :
    IsLine (List.replicate n c) := by
  intro d hd
  rw [(List.mem_replicate.1 hd).2]
  exact hc

theorem trimRight {s : Line} (h : IsLine s) : IsLine (trimRight s) :=
  h.sublist (trimRight_sublist s)

end IsLine

/-! ### Cutting -/

theorem lines_cons {c : Char} (hc : isBoundary c = false) (rest : List Char) :
    lines (c :: rest) = consFirst c (lines rest) := by
  conv_lhs => unfold lines
  split
  · rename_i h
    cases h
  · rename_i h
    cases h
    cases hc
  · rename_i h
    cases h
    exact if_neg (ne_true_of_eq_false hc)

theorem lines_line_feed (rest : List Char) : lines ('\n' :: rest) = [] :: lines rest := rfl

theorem mem_consFirst {c : Char} {ls : List Line} {line : Line} (h : line ∈ consFirst c ls) :
    line = [c] ∨ (∃ first ∈ ls, line = c :: first) ∨ line ∈ ls := by
  cases ls with
  | nil => exact .inl (List.mem_singleton.1 h)
  | cons first others =>
      rcases List.mem_cons.1 h with rfl | h
      · exact .inr (.inl ⟨first, by simp, rfl⟩)
      · exact .inr (.inr (List.mem_cons_of_mem _ h))

theorem isLine_of_mem_lines (s : List Char) : ∀ line ∈ lines s, IsLine line := by
  fun_induction lines s with
  | case1 => simp
  | case2 rest ih => simpa using ⟨IsLine.nil, ih⟩
  | case3 c rest overlap hc ih => simpa using ⟨IsLine.nil, ih⟩
  | case4 c rest overlap hc ih =>
      have hc : isBoundary c = false := by simpa using hc
      intro line h
      rcases mem_consFirst h with rfl | ⟨first, hfirst, rfl⟩ | h
      · exact .cons hc .nil
      · exact .cons hc (ih first hfirst)
      · exact ih line h

/-- No line has a character that the text has not. -/
theorem mem_of_mem_lines (s : List Char) : ∀ line ∈ lines s, ∀ c ∈ line, c ∈ s := by
  fun_induction lines s with
  | case1 => simp
  | case2 rest ih =>
      simp only [List.forall_mem_cons, List.not_mem_nil, false_implies, implies_true, true_and]
      intro line hline c hc
      simp [ih line hline c hc]
  | case3 d rest overlap hd ih =>
      simp only [List.forall_mem_cons, List.not_mem_nil, false_implies, implies_true, true_and]
      intro line hline c hc
      simp [ih line hline c hc]
  | case4 d rest overlap hd ih =>
      intro line h c hc
      rcases mem_consFirst h with rfl | ⟨first, hfirst, rfl⟩ | h
      · simp [List.mem_singleton.1 hc]
      · rcases List.mem_cons.1 hc with rfl | hc
        · simp
        · simp [ih first hfirst c hc]
      · simp [ih line h c hc]

theorem lines_line_append {line : Line} (h : IsLine line) (rest : List Char) :
    lines (line ++ '\n' :: rest) = line :: lines rest := by
  induction line with
  | nil => exact lines_line_feed rest
  | cons c line ih =>
      have tail : IsLine line := fun d hd => h d (List.mem_cons_of_mem _ hd)
      rw [List.cons_append, lines_cons (h c (by simp)), ih tail]
      rfl

theorem lines_line {line : Line} (h : IsLine line) (hne : line ≠ []) : lines line = [line] := by
  induction line with
  | nil => exact absurd rfl hne
  | cons c line ih =>
      have tail : IsLine line := fun d hd => h d (List.mem_cons_of_mem _ hd)
      rw [lines_cons (h c (by simp))]
      cases line with
      | nil => rfl
      | cons d line =>
          rw [ih tail (by simp)]
          rfl

theorem lines_boundary {c : Char} (hc : isBoundary c = true) {rest : List Char}
    (apart : ∀ rest', c = '\r' → rest = '\n' :: rest' → False) :
    lines (c :: rest) = [] :: lines rest := by
  conv_lhs => unfold lines
  split
  · rename_i h
    cases h
  · rename_i h
    cases h
    exact (apart _ rfl rfl).elim
  · rename_i h
    cases h
    exact if_pos hc

theorem lines_ne_nil {s : List Char} (hne : s ≠ []) : lines s ≠ [] := by
  unfold lines
  split
  · exact absurd rfl hne
  · simp
  · split
    · simp
    · rename_i c rest _ _
      cases lines rest <;> simp [consFirst]

/-- The character that a text starts with is the one that its first line starts with. -/
theorem head?_eq_some_iff_lines {s : List Char} {c : Char} (hc : isBoundary c = false) :
    s.head? = some c ↔ ∃ line others, lines s = (c :: line) :: others := by
  constructor
  · intro first
    obtain ⟨rest, rfl⟩ := List.head?_eq_some_iff.1 first
    rw [lines_cons hc]
    cases lines rest with
    | nil => exact ⟨[], [], rfl⟩
    | cons line others => exact ⟨line, others, rfl⟩
  · rintro ⟨line, others, cut⟩
    fun_cases lines s with
    | case1 => cases cut
    | case2 rest =>
        change [] :: lines rest = _ at cut
        cases cut
    | case3 d rest apart hd =>
        rw [lines_boundary hd apart] at cut
        cases cut
    | case4 d rest apart hd =>
        rw [lines_cons (by simpa using hd)] at cut
        cases rows : lines rest with
        | nil =>
            rw [rows] at cut
            cases cut
            rfl
        | cons line' others' =>
            rw [rows] at cut
            cases cut
            rfl

/-- A line feed between two texts ends the last line of the first one. If that line had its end
    already, an empty one comes in between. -/
theorem lines_append_line_feed (s t : List Char) :
    ∃ gap : List Line, (gap = [] ∨ gap = [[]]) ∧
      lines (s ++ '\n' :: t) = lines s ++ gap ++ lines t := by
  fun_induction lines s with
  | case1 => exact ⟨[[]], .inr rfl, rfl⟩
  | case2 rest ih =>
      obtain ⟨gap, hgap, cut⟩ := ih
      refine ⟨gap, hgap, ?_⟩
      exact congrArg ([] :: ·) cut
  | case3 c rest apart hc ih =>
      by_cases overlap : c = '\r' ∧ rest = []
      · obtain ⟨rfl, rfl⟩ := overlap
        exact ⟨[], .inl rfl, rfl⟩
      · obtain ⟨gap, hgap, cut⟩ := ih
        refine ⟨gap, hgap, ?_⟩
        have apart' : ∀ rest', c = '\r' → rest ++ '\n' :: t = '\n' :: rest' → False := by
          intro rest' hr h
          cases rest with
          | nil => exact overlap ⟨hr, rfl⟩
          | cons d rest =>
              obtain ⟨rfl, -⟩ := List.cons.inj h
              exact apart rest hr rfl
        rw [List.cons_append, lines_boundary hc apart', cut]
        rfl
  | case4 c rest apart hc ih =>
      have hc : isBoundary c = false := by simpa using hc
      rw [List.cons_append, lines_cons hc]
      cases rest with
      | nil => exact ⟨[], .inl rfl, rfl⟩
      | cons d rest =>
          obtain ⟨gap, hgap, cut⟩ := ih
          refine ⟨gap, hgap, ?_⟩
          rw [cut]
          cases h : lines (d :: rest) with
          | nil => exact absurd h (lines_ne_nil (by simp))
          | cons first others => rfl

/-- Behind a line boundary the cutting starts afresh. -/
theorem lines_append {front rest : List Char}
    (closed : front = [] ∨ ∃ c, front.getLast? = some c ∧ isBoundary c = true)
    (apart : rest.head? ≠ some '\n') : lines (front ++ rest) = lines front ++ lines rest := by
  fun_induction lines front with
  | case1 => rfl
  | case2 front ih =>
      have closed' : front = [] ∨ ∃ c, front.getLast? = some c ∧ isBoundary c = true := by
        cases front with
        | nil => exact .inl rfl
        | cons d front => simpa using closed
      exact congrArg ([] :: ·) (ih closed')
  | case3 c front overlap hc ih =>
      have closed' : front = [] ∨ ∃ c, front.getLast? = some c ∧ isBoundary c = true := by
        cases front with
        | nil => exact .inl rfl
        | cons d front => simpa using closed
      have apart' : ∀ rest', c = '\r' → front ++ rest = '\n' :: rest' → False := by
        intro rest' hr h
        cases front with
        | nil => exact apart (congrArg List.head? h)
        | cons d front =>
            obtain ⟨rfl, -⟩ := List.cons.inj h
            exact overlap front hr rfl
      rw [List.cons_append, lines_boundary hc apart', ih closed']
      rfl
  | case4 c front overlap hc ih =>
      have hc : isBoundary c = false := by simpa using hc
      cases front with
      | nil => simp [hc] at closed
      | cons d front =>
          rw [List.cons_append, lines_cons hc, ih (by simpa using closed)]
          cases h : lines (d :: front) with
          | nil => exact absurd h (lines_ne_nil (by simp))
          | cons first others => rfl

/-- What stands in front of a text without a boundary goes to its first line. -/
theorem lines_prefix (rest : List Char) : ∃ first others, ∀ front : Line, IsLine front →
    front ≠ [] → lines (front ++ rest) = (front ++ first) :: others := by
  obtain ⟨first, others, put⟩ : ∃ first others, ∀ c : Char,
      consFirst c (lines rest) = (c :: first) :: others := by
    cases lines rest with
    | nil => exact ⟨[], [], fun _ => rfl⟩
    | cons first others => exact ⟨first, others, fun _ => rfl⟩
  refine ⟨first, others, fun front line filled => ?_⟩
  induction front with
  | nil => exact absurd rfl filled
  | cons c front ih =>
      rw [List.cons_append, lines_cons (line c (by simp))]
      cases front with
      | nil => exact put c
      | cons d front =>
          rw [ih (fun e he => line e (List.mem_cons_of_mem _ he)) (by simp)]
          rfl

/-! ### Setting lines one under the other -/

theorem unlines_cons {row : Line} {rows : List Line} (hne : rows ≠ []) :
    unlines (row :: rows) = row ++ '\n' :: unlines rows := by
  cases rows with
  | nil => exact absurd rfl hne
  | cons next rows => rfl

theorem unlines_concat {rows : List Line} (hne : rows ≠ []) (row : Line) :
    unlines (rows ++ [row]) = unlines rows ++ '\n' :: row := by
  induction rows with
  | nil => exact absurd rfl hne
  | cons first rows ih =>
      cases rows with
      | nil => rfl
      | cons next rows =>
          have hrest := ih (by simp)
          have hfirst : unlines (first :: next :: rows) =
              first ++ '\n' :: unlines (next :: rows) := rfl
          have hne' : next :: rows ++ [row] ≠ [] := by simp
          rw [List.cons_append, unlines_cons hne', hrest, hfirst, List.append_assoc,
            List.cons_append]

theorem lines_unlines_line_feed {rows : List Line} (h : ∀ row ∈ rows, IsLine row)
    (hne : rows ≠ []) : lines (unlines rows ++ ['\n']) = rows := by
  induction rows with
  | nil => exact absurd rfl hne
  | cons row rows ih =>
      have hrow := h row (by simp)
      cases rows with
      | nil => exact lines_line_append hrow []
      | cons next rows =>
          have rest := ih (fun r hr => h r (List.mem_cons_of_mem _ hr)) (by simp)
          rw [unlines_cons (by simp), List.append_assoc, List.cons_append,
            lines_line_append hrow, rest]

/-- Rows that each end with a line feed are found again. -/
theorem lines_flatMap_line_feed {rows : List Line} (h : ∀ row ∈ rows, IsLine row) :
    lines (rows.flatMap (· ++ ['\n'])) = rows := by
  induction rows with
  | nil => rfl
  | cons row rows ih =>
      rw [List.flatMap_cons, List.append_assoc, List.singleton_append,
        lines_line_append (h row (by simp)), ih fun r hr => h r (List.mem_cons_of_mem _ hr)]

/-- Lines of which the last one is not empty are found again. -/
theorem lines_unlines {rows : List Line} (h : ∀ row ∈ rows, IsLine row)
    (last : rows.getLast? ≠ some []) : lines (unlines rows) = rows := by
  induction rows with
  | nil => rfl
  | cons row rows ih =>
      have hrow := h row (by simp)
      cases rows with
      | nil =>
          have hne : row ≠ [] := by simpa using last
          exact lines_line hrow hne
      | cons next rows =>
          have rest := ih (fun r hr => h r (List.mem_cons_of_mem _ hr))
            (by simpa using last)
          rw [unlines_cons (by simp), lines_line_append hrow, rest]

end ActionEngine.Text
