import ActionEngine.Proofs.Config.Token

/-!
# Prompts in their blocks

The rows of a prompt are collected in a block two columns behind its key. The block
takes those columns away again, whether their number was given or is found as the
common indentation, so that it holds the prompt in normal form.
-/

namespace ActionEngine.Config

open ActionEngine.Text

def contentColumn : Nat := propertyColumn + 2

/-- The line of a block that a row of a prompt becomes. -/
def contentRow (row : Line) : Line :=
  if allBlank row then [] else atColumn contentColumn (normalRow row)

theorem contentRow_of_allBlank {row : Line} (h : allBlank row = true) : contentRow row = [] :=
  if_pos h

theorem contentRow_of_not_allBlank {row : Line} (h : allBlank row = false) :
    contentRow row = atColumn contentColumn (normalRow row) :=
  if_neg (by simp [h])

theorem spaces_atColumn (column : Nat) (row : Line) :
    spaces (atColumn column row) = column + spaces row := by
  have inside : ∀ c ∈ List.replicate column ' ', (c == ' ') = true := by
    intro c hc
    rw [(List.mem_replicate.1 hc).2]
    rfl
  unfold spaces atColumn
  rw [List.takeWhile_append_of_pos inside, List.length_append, List.length_replicate]

theorem takeWhile_spaces_body (row : Line) :
    (trimRight (row.dropWhile isIndentation)).takeWhile (· == ' ') = [] := by
  have front := takeWhile_body row
  cases body : trimRight (row.dropWhile isIndentation) with
  | nil => rfl
  | cons c rest =>
      rw [body, List.takeWhile_cons] at front
      refine List.takeWhile_cons_of_neg fun space => ?_
      rw [beq_iff_eq.1 space] at front
      cases front

/-- A row in normal form has as many spaces as its indentation had columns. -/
theorem spaces_normalRow {row : Line} (content : allBlank row = false) :
    spaces (normalRow row) = columnOf (row.takeWhile isIndentation) := by
  have body : spaces (trimRight (row.dropWhile isIndentation)) = 0 :=
    congrArg List.length (takeWhile_spaces_body row)
  rw [normalRow_of_not_allBlank content]
  exact (spaces_atColumn _ _).trans (congrArg (_ + ·) body)

theorem takeWhile_of_head? {row : Line} (h : row.head?.any isBlank = false) :
    row.takeWhile isIndentation = [] := by
  cases row with
  | nil => rfl
  | cons c row =>
      refine List.takeWhile_cons_of_neg fun indentation => ?_
      have blank := isBlank_of_isIndentation indentation
      simp [blank] at h

theorem least_eq {ns : List Nat} {n : Nat} (mem : n ∈ ns) (lower : ∀ m ∈ ns, n ≤ m) :
    least ns = n := by
  have h : ns.min? = some n := List.min?_eq_some_iff.2 ⟨mem, lower⟩
  cases ns with
  | nil => cases mem
  | cons m ns => exact Option.some.inj ((List.min?_cons' ..).symm.trans h)

/-- The common indentation of a prompt is the column at which it is printed, unless every
    row of it starts with a blank. -/
theorem least_contentRows {rows : List Line} (h : needsWidth rows = false) :
    least (((rows.map contentRow).filter fun line => !line.isEmpty).map spaces) =
      contentColumn := by
  refine least_eq ?_ ?_
  · obtain ⟨row, hrow, hfirst⟩ : ∃ row ∈ rows.filter fun row => !allBlank row,
        row.head?.any isBlank = false := by
      simpa [needsWidth, and_assoc] using h
    obtain ⟨hrow, content⟩ := List.mem_filter.1 hrow
    have content : allBlank row = false := by simpa using content
    refine List.mem_map.2 ⟨contentRow row, ?_, ?_⟩
    · refine List.mem_filter.2 ⟨List.mem_map_of_mem hrow, ?_⟩
      rw [contentRow_of_not_allBlank content]
      rfl
    · rw [contentRow_of_not_allBlank content, spaces_atColumn, spaces_normalRow content,
        takeWhile_of_head? hfirst]
      rfl
  · intro m hm
    obtain ⟨line, hline, rfl⟩ := List.mem_map.1 hm
    obtain ⟨hline, hne⟩ := List.mem_filter.1 hline
    obtain ⟨row, -, rfl⟩ := List.mem_map.1 hline
    cases blank : allBlank row with
    | true =>
        rw [contentRow_of_allBlank blank] at hne
        cases hne
    | false =>
        rw [contentRow_of_not_allBlank blank, spaces_atColumn]
        exact Nat.le_add_right _ _

theorem drop_contentRow (row : Line) :
    (contentRow row).drop (min (spaces (contentRow row)) contentColumn) = normalRow row := by
  cases blank : allBlank row with
  | true => rw [contentRow_of_allBlank blank, normalRow_of_allBlank blank, List.drop_nil]
  | false =>
      rw [contentRow_of_not_allBlank blank, spaces_atColumn,
        Nat.min_eq_right (Nat.le_add_right _ _)]
      exact List.drop_left' List.length_replicate

/-- A block at the column at which prompts are printed holds their normal form. -/
theorem prompt_contentRows {rows : List Line} {column : Option Nat}
    (h : column = some contentColumn ∨ column = none ∧ needsWidth rows = false) :
    Block.prompt ⟨rows.map contentRow, column⟩ = unlines (trimRows (rows.map normalRow)) := by
  have margin : Block.margin ⟨rows.map contentRow, column⟩ = contentColumn := by
    rcases h with rfl | ⟨rfl, width⟩
    · rfl
    · exact least_contentRows width
  unfold Block.prompt
  rw [margin, List.map_map]
  congr 2
  exact List.map_congr_left fun row _ => drop_contentRow row

/-- A blank line at the end of a block is no part of its prompt. -/
theorem prompt_add_nil (b : Block) : (b.add []).prompt = b.prompt := by
  have margin : (b.add []).margin = b.margin := by
    unfold Block.margin Block.add
    simp
  unfold Block.prompt
  rw [margin]
  unfold Block.add
  rw [List.map_append, List.map_singleton, List.drop_nil, trimRows_concat rfl]

end ActionEngine.Config
