import ActionEngine.Proofs.Config.Reload
import ActionEngine.Proofs.Config.Boundary

/-!
# Only relative indentation matters in a block

A prompt block without a width gives up as many columns as the least indented of its rows has. So
a block that is moved to the right as a whole makes the same prompt, and two rows of the prompt
are as far apart as they were in the file.
-/

namespace ActionEngine.Config

open ActionEngine.Text ActionEngine.Config.Parser

/-! ### Rows of a block -/

def indentOf (row : Line) : Nat :=
  columnOf (row.takeWhile isIndentation)

def bodyOf (row : Line) : Line :=
  trimRight (row.dropWhile isIndentation)

def isContent (row : Line) : Bool :=
  !allBlank row && propertyColumn ≤ indentOf row

/-- The line that a row adds to an open block, if it adds one. -/
def blockLine? (row : Line) : Option Line :=
  if allBlank row then some []
  else if propertyColumn ≤ indentOf row then some (normalRow row) else none

theorem isContent_iff {row : Line} :
    isContent row = true ↔ allBlank row = false ∧ propertyColumn ≤ indentOf row := by
  simp [isContent]

theorem normalRow_eq_atColumn {row : Line} (filled : allBlank row = false) :
    normalRow row = atColumn (indentOf row) (bodyOf row) :=
  normalRow_of_not_allBlank filled

theorem normalRow_ne_nil {row : Line} (filled : allBlank row = false) : normalRow row ≠ [] := by
  intro empty
  have blank := allBlank_normalRow row
  rw [empty, filled] at blank
  cases blank

theorem allBlank_bodyOf (row : Line) : allBlank (bodyOf row) = allBlank row := by
  unfold bodyOf
  rw [allBlank_trimRight, allBlank_body]

theorem spaces_bodyOf (row : Line) : spaces (bodyOf row) = 0 :=
  congrArg List.length (takeWhile_spaces_body row)

theorem continuesBlock_of_isContent {row : Line} (content : isContent row = true) (n : Nat) :
    continuesBlock (Token.ofLine n row) = true := by
  obtain ⟨filled, placed⟩ := isContent_iff.1 content
  unfold indentOf at placed
  rw [ofLine_of_not_allBlank n filled]
  simp [continuesBlock, placed]

theorem drop_atColumn {k j : Nat} (row : Line) (le : k ≤ j) :
    (atColumn j row).drop k = atColumn (j - k) row := by
  unfold atColumn
  rw [List.drop_append_of_le_length (by simpa using le), List.drop_replicate]

/-! ### Moving a block to the right -/

def shiftRow (k : Nat) (row : Line) : Line :=
  if isContent row then atColumn k row else row

def IsSpaced (row : Line) : Prop :=
  ∀ c ∈ row.takeWhile isIndentation, c = ' '

def shiftLine (k : Nat) (line : Line) : Line :=
  if line.isEmpty then line else atColumn k line

theorem indentOf_atColumn {row : Line} (spaced : IsSpaced row) (k : Nat) :
    indentOf (atColumn k row) = k + indentOf row := by
  have front : row.takeWhile isIndentation =
      List.replicate (row.takeWhile isIndentation).length ' ' :=
    List.eq_replicate_iff.2 ⟨rfl, spaced⟩
  unfold indentOf atColumn
  rw [List.takeWhile_append_of_pos fun c hc => isIndentation_of_mem_spaces hc, front,
    List.replicate_append_replicate, columnOf_spaces, columnOf_spaces]

theorem bodyOf_atColumn (k : Nat) (row : Line) : bodyOf (atColumn k row) = bodyOf row := by
  unfold bodyOf atColumn
  rw [List.dropWhile_append_of_pos fun c hc => isIndentation_of_mem_spaces hc]

theorem atColumn_atColumn (k j : Nat) (row : Line) :
    atColumn k (atColumn j row) = atColumn (k + j) row := by
  unfold atColumn
  rw [← List.append_assoc, List.replicate_append_replicate]

theorem isContent_atColumn {row : Line} (content : isContent row = true) (spaced : IsSpaced row)
    (k : Nat) : isContent (atColumn k row) = true := by
  obtain ⟨filled, placed⟩ := isContent_iff.1 content
  rw [isContent_iff, allBlank_atColumn, indentOf_atColumn spaced]
  exact ⟨filled, Nat.le_add_left_of_le placed⟩

theorem blockLine?_of_isContent {row : Line} (content : isContent row = true) :
    blockLine? row = some (normalRow row) := by
  obtain ⟨filled, placed⟩ := isContent_iff.1 content
  unfold blockLine?
  rw [filled, if_neg Bool.false_ne_true, if_pos placed]

theorem blockLine?_of_not_isContent {row : Line} (other : ¬isContent row = true) :
    blockLine? row = if allBlank row then some [] else none := by
  unfold blockLine?
  cases filled : allBlank row with
  | true => rfl
  | false =>
      have before : ¬propertyColumn ≤ indentOf row := fun placed =>
        other (isContent_iff.2 ⟨filled, placed⟩)
      rw [if_neg Bool.false_ne_true, if_neg before]
      rfl

theorem blockLine?_shiftRow {row : Line} (spaced : isContent row = true → IsSpaced row) (k : Nat) :
    blockLine? (shiftRow k row) = (blockLine? row).map (shiftLine k) := by
  unfold shiftRow
  by_cases content : isContent row = true
  · obtain ⟨filled, -⟩ := isContent_iff.1 content
    have moved := isContent_atColumn content (spaced content) k
    have filled' := (isContent_iff.1 moved).1
    have nonempty : ¬(atColumn (indentOf row) (bodyOf row)).isEmpty = true := by
      rw [← normalRow_eq_atColumn filled]
      simpa using normalRow_ne_nil filled
    rw [if_pos content, blockLine?_of_isContent moved, blockLine?_of_isContent content,
      normalRow_eq_atColumn filled', normalRow_eq_atColumn filled, Option.map_some, shiftLine,
      if_neg nonempty, atColumn_atColumn, indentOf_atColumn (spaced content), bodyOf_atColumn]
  · rw [if_neg content, blockLine?_of_not_isContent content]
    split <;> rfl

theorem continuesBlock_shiftRow {row : Line} {n : Nat}
    (spaced : isContent row = true → IsSpaced row)
    (continues : continuesBlock (Token.ofLine n row) = true) (k : Nat) :
    continuesBlock (Token.ofLine n (shiftRow k row)) = true := by
  unfold shiftRow
  by_cases content : isContent row = true
  · rw [if_pos content]
    exact continuesBlock_of_isContent (isContent_atColumn content (spaced content) k) n
  · rw [if_neg content]
    exact continues

/-! ### The prompt of a block -/

theorem min?_eq_least {ns : List Nat} (hne : ns ≠ []) : ns.min? = some (least ns) := by
  cases ns with
  | nil => exact absurd rfl hne
  | cons n ns => exact List.min?_cons'

theorem least_mem {ns : List Nat} (hne : ns ≠ []) : least ns ∈ ns :=
  (List.min?_eq_some_iff.1 (min?_eq_least hne)).1

theorem least_le {ns : List Nat} {n : Nat} (mem : n ∈ ns) : least ns ≤ n :=
  (List.min?_eq_some_iff.1 (min?_eq_least (List.ne_nil_of_mem mem))).2 n mem

theorem least_map_add (k : Nat) {ns : List Nat} (hne : ns ≠ []) :
    least (ns.map (k + ·)) = k + least ns := by
  refine least_eq (List.mem_map_of_mem (least_mem hne)) ?_
  intro m hm
  obtain ⟨n, hn, rfl⟩ := List.mem_map.1 hm
  exact Nat.add_le_add_left (least_le hn) k

theorem filter_shiftLine (k : Nat) (ls : List Line) :
    (ls.map (shiftLine k)).filter (fun line => !line.isEmpty) =
      (ls.filter fun line => !line.isEmpty).map (atColumn k) := by
  induction ls with
  | nil => rfl
  | cons line ls ih =>
      cases line with
      | nil => exact ih
      | cons c rest =>
          have moved : (!(atColumn k (c :: rest)).isEmpty) = true := by simp [atColumn]
          rw [List.map_cons, List.filter_cons_of_pos (by exact moved), List.filter_cons_of_pos rfl,
            List.map_cons, ih]
          rfl

/-- A block that is moved to the right as a whole holds the same prompt. -/
theorem prompt_shiftLine (k : Nat) (ls : List Line) :
    Block.prompt ⟨ls.map (shiftLine k), none⟩ = Block.prompt ⟨ls, none⟩ := by
  have moved : ((ls.map (shiftLine k)).filter fun line => !line.isEmpty).map spaces =
      ((ls.filter fun line => !line.isEmpty).map spaces).map (k + ·) := by
    rw [filter_shiftLine, List.map_map, List.map_map]
    exact List.map_congr_left fun line _ => spaces_atColumn k line
  unfold Block.prompt
  rw [List.map_map]
  congr 2
  refine List.map_congr_left fun line hline => ?_
  dsimp only [Function.comp]
  by_cases empty : line.isEmpty = true
  · rw [List.isEmpty_iff.1 empty]
    simp [shiftLine]
  · have there : ((ls.filter fun line => !line.isEmpty).map spaces) ≠ [] := by
      refine List.ne_nil_of_mem (List.mem_map_of_mem (List.mem_filter.2 ⟨hline, ?_⟩))
      simpa using empty
    have margin : Block.margin ⟨ls.map (shiftLine k), none⟩ = k + Block.margin ⟨ls, none⟩ := by
      unfold Block.margin
      dsimp only [Option.getD_none]
      rw [moved, least_map_add k there]
    rw [shiftLine, if_neg empty, spaces_atColumn, margin, Nat.add_min_add_left]
    unfold atColumn
    rw [← List.drop_drop, List.drop_left' List.length_replicate]

/-- The rows of the prompt that are not blank are those of a file, one after the other, with the
    differences of indentation that they had there; no blank row stands at either end, and not all
    of the others are indented. -/
structure Outlines (file : List Line) (prompt : List Char) : Prop where
  first : ∀ row, (lines prompt).head? = some row → allBlank row = false
  last : ∀ row, (lines prompt).getLast? = some row → allBlank row = false
  flush : (∃ row ∈ lines prompt, allBlank row = false) →
    ∃ row ∈ lines prompt, allBlank row = false ∧ spaces row = 0
  length : ((lines prompt).filter fun row => !allBlank row).length = file.length
  body : ∀ x ∈ file.zip ((lines prompt).filter fun row => !allBlank row),
    x.2.dropWhile (· == ' ') = bodyOf x.1
  difference : ∀ x ∈ file.zip ((lines prompt).filter fun row => !allBlank row),
    ∀ y ∈ file.zip ((lines prompt).filter fun row => !allBlank row),
      (spaces x.2 : Int) - spaces y.2 = (indentOf x.1 : Int) - indentOf y.1

def blockLines (rows : List Line) : List Line :=
  rows.filterMap blockLine?

/-- What is left of a row of a file in the prompt. -/
def cutRow (margin : Nat) (row : Line) : Line :=
  atColumn (indentOf row - margin) (bodyOf row)

theorem allBlank_cutRow (margin : Nat) (row : Line) :
    allBlank (cutRow margin row) = allBlank row := by
  unfold cutRow
  rw [allBlank_atColumn, allBlank_bodyOf]

theorem spaces_cutRow (margin : Nat) (row : Line) :
    spaces (cutRow margin row) = indentOf row - margin := by
  unfold cutRow
  rw [spaces_atColumn, spaces_bodyOf, Nat.add_zero]

theorem body_cutRow (margin : Nat) (row : Line) :
    (cutRow margin row).dropWhile (· == ' ') = bodyOf row := by
  have inside : ∀ c ∈ List.replicate (indentOf row - margin) ' ', (c == ' ') = true := by
    intro c hc
    rw [(List.mem_replicate.1 hc).2]
    rfl
  have front : (bodyOf row).takeWhile (· == ' ') = [] := takeWhile_spaces_body row
  have behind := List.takeWhile_append_dropWhile (p := (· == ' ')) (l := bodyOf row)
  rw [front, List.nil_append] at behind
  unfold cutRow atColumn
  rw [List.dropWhile_append_of_pos inside, behind]

/-- Of what the rows of a block become, the part that comes from content. -/
theorem filter_blockLines {f : Line → Line} {keep : Line → Bool} (dropped : keep (f []) = false)
    {rows : List Line} (kept : ∀ row, isContent row = true → keep (f (normalRow row)) = true) :
    ((blockLines rows).map f).filter keep = (rows.filter isContent).map (f ∘ normalRow) := by
  induction rows with
  | nil => rfl
  | cons row rows ih =>
      unfold blockLines at ih ⊢
      by_cases content : isContent row = true
      · rw [List.filterMap_cons_some (blockLine?_of_isContent content), List.map_cons,
          List.filter_cons_of_pos (kept row content), List.filter_cons_of_pos content,
          List.map_cons, ih]
        rfl
      · have added := blockLine?_of_not_isContent content
        rw [List.filter_cons_of_neg content, ← ih]
        cases blank : allBlank row with
        | true =>
            rw [blank, if_pos rfl] at added
            rw [List.filterMap_cons_some added, List.map_cons,
              List.filter_cons_of_neg (by simp [dropped])]
        | false =>
            rw [blank, if_neg Bool.false_ne_true] at added
            rw [List.filterMap_cons_none added]

theorem filter_dropWhile_not {α : Type} (p : α → Bool) (l : List α) :
    (l.dropWhile p).filter (fun a => !p a) = l.filter fun a => !p a := by
  induction l with
  | nil => rfl
  | cons a l ih =>
      cases first : p a with
      | true => rw [List.dropWhile_cons_of_pos first, List.filter_cons_of_neg (by simp [first]), ih]
      | false => rw [List.dropWhile_cons_of_neg (by simp [first])]

theorem filter_trimRows (rows : List Line) :
    (trimRows rows).filter (fun row => !allBlank row) = rows.filter fun row => !allBlank row := by
  unfold trimRows
  rw [List.filter_reverse, filter_dropWhile_not, List.filter_reverse, List.reverse_reverse,
    filter_dropWhile_not]

def marginOf (rows : List Line) : Nat :=
  least ((rows.filter isContent).map indentOf)

theorem margin_blockLines (rows : List Line) :
    Block.margin ⟨blockLines rows, none⟩ = marginOf rows := by
  have nonempty : ∀ row, isContent row = true → (!(normalRow row).isEmpty) = true := by
    intro row content
    simpa using normalRow_ne_nil (isContent_iff.1 content).1
  have filled : ((blockLines rows).map id).filter (fun line => !line.isEmpty) =
      (rows.filter isContent).map (id ∘ normalRow) := filter_blockLines rfl nonempty
  rw [List.map_id] at filled
  unfold Block.margin marginOf
  dsimp only [Option.getD_none]
  rw [filled, List.map_map]
  congr 1
  refine List.map_congr_left fun row hrow => ?_
  exact spaces_normalRow (isContent_iff.1 (List.mem_filter.1 hrow).2).1

theorem drop_normalRow {row : Line} (content : isContent row = true) (margin : Nat) :
    (normalRow row).drop (min (spaces (normalRow row)) margin) = cutRow margin row := by
  obtain ⟨filled, -⟩ := isContent_iff.1 content
  have indent : spaces (normalRow row) = indentOf row := spaces_normalRow filled
  rw [indent, normalRow_eq_atColumn filled, drop_atColumn _ (Nat.min_le_left _ _)]
  unfold cutRow
  congr 1
  omega

theorem blockLines_normal {rows : List Line} (isLine : ∀ row ∈ rows, IsLine row) :
    ∀ line ∈ blockLines rows, IsNormalRow line := by
  intro line hline
  obtain ⟨row, hrow, added⟩ := List.mem_filterMap.1 hline
  unfold blockLine? at added
  split at added
  · cases added
    exact ⟨.nil, rfl, by simp⟩
  · split at added <;> cases added
    exact normalRow_normal (isLine row hrow)

/-- The rows of the prompt that a block holds, and those of them that are not blank. -/
theorem rows_of_prompt {rows : List Line} (isLine : ∀ row ∈ rows, IsLine row) :
    ∃ kept, lines (Block.prompt ⟨blockLines rows, none⟩) = trimRows kept ∧
      (kept.filter fun row => !allBlank row) =
        (rows.filter isContent).map (cutRow (marginOf rows)) := by
  rw [← margin_blockLines]
  refine ⟨(blockLines rows).map fun line =>
    line.drop (min (spaces line) (Block.margin ⟨blockLines rows, none⟩)), ?_, ?_⟩
  · refine lines_unlines ?_ ?_
    · intro row hrow
      obtain ⟨line, hline, rfl⟩ := List.mem_map.1 ((trimRows_sublist _).subset hrow)
      exact ((blockLines_normal isLine line hline).drop (Nat.min_le_left _ _)).isLine
    · intro empty
      cases allBlank_getLast?_trimRows empty
  · rw [filter_blockLines (by simp [allBlank])]
    · refine List.map_congr_left fun row hrow => ?_
      exact drop_normalRow (List.mem_filter.1 hrow).2 _
    · intro row content
      rw [drop_normalRow content, allBlank_cutRow, (isContent_iff.1 content).1]
      rfl

theorem mem_zip_map {file : List Line} {f : Line → Line} {x : Line × Line}
    (hx : x ∈ file.zip (file.map f)) : x.1 ∈ file ∧ x.2 = f x.1 := by
  rw [← List.map_prod_left_eq_zip] at hx
  obtain ⟨row, hrow, rfl⟩ := List.mem_map.1 hx
  exact ⟨hrow, rfl⟩

theorem outlines_prompt {rows : List Line} (isLine : ∀ row ∈ rows, IsLine row) :
    Outlines (rows.filter isContent) (Block.prompt ⟨blockLines rows, none⟩) := by
  obtain ⟨kept, cut, filled⟩ := rows_of_prompt isLine
  have shown : ((lines (Block.prompt ⟨blockLines rows, none⟩)).filter fun row => !allBlank row) =
      (rows.filter isContent).map (cutRow (marginOf rows)) := by
    rw [cut, filter_trimRows, filled]
  have lower : ∀ row ∈ rows.filter isContent, marginOf rows ≤ indentOf row :=
    fun row hrow => least_le (List.mem_map_of_mem hrow)
  constructor
  · intro row
    rw [cut]
    exact allBlank_head?_trimRows
  · intro row
    rw [cut]
    exact allBlank_getLast?_trimRows
  · rintro ⟨row, hrow, something⟩
    -- The row that has the least indentation in the file has none in the prompt.
    have there : row ∈ (rows.filter isContent).map (cutRow (marginOf rows)) := by
      rw [← shown]
      exact List.mem_filter.2 ⟨hrow, by simp [something]⟩
    obtain ⟨row', hrow', -⟩ := List.mem_map.1 there
    obtain ⟨least, hleast, minimal⟩ : ∃ row ∈ rows.filter isContent, indentOf row = marginOf rows :=
      List.mem_map.1 (least_mem (List.ne_nil_of_mem (List.mem_map_of_mem hrow')))
    have back := List.mem_map_of_mem (f := cutRow (marginOf rows)) hleast
    rw [← shown] at back
    obtain ⟨back, filled⟩ := List.mem_filter.1 back
    refine ⟨_, back, by simpa using filled, ?_⟩
    rw [spaces_cutRow, minimal, Nat.sub_self]
  · rw [shown, List.length_map]
  · intro x hx
    rw [shown] at hx
    obtain ⟨-, same⟩ := mem_zip_map hx
    rw [same, body_cutRow]
  · intro x hx y hy
    rw [shown] at hx hy
    obtain ⟨hx, same⟩ := mem_zip_map hx
    obtain ⟨hy, same'⟩ := mem_zip_map hy
    have lower_x := lower x.1 hx
    have lower_y := lower y.1 hy
    rw [same, same', spaces_cutRow, spaces_cutRow]
    omega

/-! ### Reading a block -/

namespace Parser

def inBlock (p : Parser) (d : Draft) (b : Block) : Parser :=
  { p with phase := .collectPrompt, draft := some { d with block := some b } }

variable {p : Parser} {d : Draft} {b b' : Block}

theorem inBlock_phase (p : Parser) (d : Draft) (b : Block) :
    (p.inBlock d b).phase = .collectPrompt := rfl

theorem feed_opening {t : Token} {value : Line} (phase : p.phase = .collectProperty)
    (hd : p.draft = some d) (shape : t.shape = .property "prompt".toList value)
    (opens : indicator? value = some none) : p.feed t = p.inBlock d {} := by
  have named : Property.ofKey? "prompt".toList = some .prompt := by decide
  unfold feed feedOutside
  rw [if_neg (by simp [phase]), shape]
  dsimp only
  rw [if_pos phase]
  unfold setProperty
  rw [hd, named]
  dsimp only
  rw [opens]
  rfl

theorem feed_inBlock {n : Nat} {row : Line}
    (continues : continuesBlock (Token.ofLine n row) = true) :
    (p.inBlock d b).feed (Token.ofLine n row) =
      p.inBlock d { b with lines := b.lines ++ (blockLine? row).toList } := by
  unfold feed
  rw [if_pos (inBlock_phase p d b), if_pos continues, feedBlock_eq rfl rfl]
  unfold blockLine?
  cases blank : allBlank row with
  | true =>
      rw [ofLine_of_allBlank n blank]
      rfl
  | false =>
      rw [ofLine_of_not_allBlank n blank]
      dsimp only
      rw [if_neg (shapeAt_ne_blank _ _), if_neg Bool.false_ne_true]
      by_cases placed : propertyColumn ≤ indentOf row
      · rw [if_pos placed, if_pos (by exact placed)]
        rfl
      · rw [if_neg placed, if_neg (by exact placed)]
        simp

theorem read_inBlock {n : Nat} {rows : List Line}
    (continues : ∀ row ∈ rows, ∀ n, continuesBlock (Token.ofLine n row) = true) :
    (p.inBlock d b).read n rows = p.inBlock d { b with lines := b.lines ++ blockLines rows } := by
  induction rows generalizing n b with
  | nil => simp [read_nil, blockLines]
  | cons row rows ih =>
      rw [read_cons, feed_inBlock (continues row List.mem_cons_self n),
        ih fun row' hrow => continues row' (List.mem_cons_of_mem _ hrow), List.append_assoc]
      unfold blockLines
      cases added : blockLine? row with
      | none => rw [List.filterMap_cons_none added, Option.toList_none, List.nil_append]
      | some line => rw [List.filterMap_cons_some added, Option.toList_some, List.singleton_append]

theorem finish_leaveBlock (hd : p.draft = some d) : p.leaveBlock.finish = p.finish := by
  unfold finish
  rw [flush_leaveBlock hd]

/-- How a block came to hold its prompt makes no difference once it is closed. -/
theorem read_behind_block {n : Nat} {rest : List Line} (same : b.prompt = b'.prompt)
    (ends : ∀ row, rest.head? = some row → ∀ n, continuesBlock (Token.ofLine n row) = false) :
    ((p.inBlock d b).read n rest).finish = ((p.inBlock d b').read n rest).finish := by
  have left : (p.inBlock d b).leaveBlock = (p.inBlock d b').leaveBlock := by
    unfold leaveBlock inBlock Draft.closeBlock
    dsimp only
    rw [same]
  cases rest with
  | nil =>
      rw [read_nil, read_nil, ← finish_leaveBlock (p := p.inBlock d b) rfl, left,
        finish_leaveBlock (p := p.inBlock d b') rfl]
  | cons row rest =>
      have closes := ends row rfl n
      have fed (b : Block) : (p.inBlock d b).feed (Token.ofLine n row) =
          (p.inBlock d b).leaveBlock.feedOutside (Token.ofLine n row) := by
        unfold feed
        rw [if_pos (inBlock_phase p d b), closes, if_neg Bool.false_ne_true]
      rw [read_cons, read_cons, fed, fed, left]

/-! ### Texts with a block in them -/

/-- The rows that a block takes in, blank ones and comments among them, and those behind it. -/
def blockOf (rest : List Line) : List Line :=
  rest.takeWhile fun row => continuesBlock (Token.ofLine 1 row)

def behindBlock (rest : List Line) : List Line :=
  rest.dropWhile fun row => continuesBlock (Token.ofLine 1 row)

/-- A property of the text opens a prompt block without a width. -/
structure OpensBlock (text : String) (front : List Line) (opening : Line) (rest : List Line) :
    Prop where
  rows : rowsOf text = front ++ opening :: rest
  phase : (initial.read 1 front).phase = .collectProperty
  opening : ∃ value, (Token.ofLine 1 opening).shape = .property "prompt".toList value ∧
    indicator? value = some none

theorem continuesBlock_number (n m : Nat) (row : Line) :
    continuesBlock (Token.ofLine n row) = continuesBlock (Token.ofLine m row) := by
  obtain ⟨shape, indent⟩ := ofLine_number n m row
  unfold continuesBlock
  rw [shape, indent]

theorem continues_of_mem_blockOf {rest : List Line} {row : Line} (hrow : row ∈ blockOf rest)
    (n : Nat) : continuesBlock (Token.ofLine n row) = true := by
  rw [continuesBlock_number n 1]
  exact List.mem_takeWhile_imp (p := fun row => continuesBlock (Token.ofLine 1 row)) hrow

theorem ends_of_head?_behindBlock {rest : List Line} {row : Line}
    (first : (behindBlock rest).head? = some row) (n : Nat) :
    continuesBlock (Token.ofLine n row) = false := by
  rw [continuesBlock_number n 1]
  have stops := List.head?_dropWhile_not (fun row => continuesBlock (Token.ofLine 1 row)) rest
  unfold behindBlock at first
  rw [first] at stops
  simpa using stops

theorem blockLines_shiftRow {rows : List Line}
    (spaced : ∀ row ∈ rows, isContent row = true → IsSpaced row) (k : Nat) :
    blockLines (rows.map (shiftRow k)) = (blockLines rows).map (shiftLine k) := by
  unfold blockLines
  rw [List.filterMap_map, List.map_filterMap]
  exact List.filterMap_congr fun row hrow => blockLine?_shiftRow (spaced row hrow) k

theorem prompt_of_build {d : Draft} {a : Action} (built : d.build = .ok a) :
    a.prompt = String.ofList (d.prompt.getD []) := by
  unfold Draft.build at built
  split at built
  · cases built
  · split at built
    · cases built
    · split at built <;> cases built
      rfl

theorem OpensBlock.draft {text : String} {front rest : List Line} {opening : Line}
    (opened : OpensBlock text front opening rest) :
    ∃ d, ∀ block : List Line, (∀ row ∈ block, ∀ n, continuesBlock (Token.ofLine n row) = true) →
      initial.read 1 (front ++ opening :: block) =
        (initial.read 1 front).inBlock d ⟨blockLines block, none⟩ := by
  obtain ⟨-, phase, value, shape, opens⟩ := opened
  obtain ⟨d, hd, -⟩ := (Coherent.initial.feedAll _).draft_of_collecting phase
  refine ⟨d, fun block continues => ?_⟩
  have shape := (ofLine_number (1 + front.length) 1 opening).1.trans shape
  rw [read_append, read_cons, feed_opening phase hd shape opens, read_inBlock continues]
  rfl

/-- A block without a width that is moved to the right as a whole changes nothing in what comes of
    the text. The prompt of the block has its rows as far apart as they were, the least indented
    ones at the margin. -/
theorem block_indentation_is_relative {text : String} {front rest : List Line} {opening : Line}
    (opened : OpensBlock text front opening rest) :
    (∀ (k : Nat) (text' : String),
        (∀ row ∈ blockOf rest, isContent row = true → IsSpaced row) →
        rowsOf text' = front ++ opening :: ((blockOf rest).map (shiftRow k) ++ behindBlock rest) →
        (parse (some text')).actions = (parse (some text)).actions ∧
          (parse (some text')).skipped = (parse (some text)).skipped) ∧
      ∃ d prompt, (initial.read 1 (front ++ opening :: blockOf rest)).draft = some d ∧
        d.block.isSome = true ∧ d.closeBlock.prompt = some prompt ∧
        (∀ a, d.closeBlock.build = .ok a → a.prompt = String.ofList prompt) ∧
        Outlines ((blockOf rest).filter isContent) prompt := by
  have inside : ∀ row ∈ blockOf rest, ∀ n, continuesBlock (Token.ofLine n row) = true :=
    fun row hrow n => continues_of_mem_blockOf hrow n
  obtain ⟨d, read⟩ := opened.draft
  constructor
  · intro k text' spaced rows'
    have moved : ∀ row ∈ (blockOf rest).map (shiftRow k), ∀ n,
        continuesBlock (Token.ofLine n row) = true := by
      intro row hrow n
      obtain ⟨row', hrow', rfl⟩ := List.mem_map.1 hrow
      exact continuesBlock_shiftRow (spaced row' hrow') (inside row' hrow' n) k
    have whole : rest = blockOf rest ++ behindBlock rest := List.takeWhile_append_dropWhile.symm
    have rows : rowsOf text = front ++ opening :: (blockOf rest ++ behindBlock rest) := by
      rw [← whole]
      exact opened.rows
    have same : Block.prompt ⟨blockLines ((blockOf rest).map (shiftRow k)), none⟩ =
        Block.prompt ⟨blockLines (blockOf rest), none⟩ := by
      rw [blockLines_shiftRow spaced, prompt_shiftLine]
    have onwards {block : List Line}
        (inside : ∀ row ∈ block, ∀ n, continuesBlock (Token.ofLine n row) = true) :
        initial.read 1 (front ++ opening :: (block ++ behindBlock rest)) =
          ((initial.read 1 front).inBlock d ⟨blockLines block, none⟩).read
            (1 + (front ++ opening :: block).length) (behindBlock rest) := by
      rw [← read block inside, ← read_append, List.append_assoc, List.cons_append]
    have parsed : parse (some text') = parse (some text) := by
      have length : (front ++ opening :: (blockOf rest).map (shiftRow k)).length =
          (front ++ opening :: blockOf rest).length := by simp
      rw [parse_eq, parse_eq, rows, rows', onwards inside, onwards moved, length]
      exact read_behind_block same fun row first n => ends_of_head?_behindBlock first n
    rw [parsed]
    exact ⟨rfl, rfl⟩
  · have isLine : ∀ row ∈ blockOf rest, IsLine row := by
      intro row hrow
      refine isLine_of_mem_lines (dropMark text.toList) row ?_
      change row ∈ rowsOf text
      rw [opened.rows]
      exact List.mem_append_right _
        (List.mem_cons_of_mem _ ((List.takeWhile_sublist _).subset hrow))
    rw [read _ inside]
    refine ⟨_, _, rfl, rfl, rfl, ?_, outlines_prompt isLine⟩
    intro a built
    exact prompt_of_build built

/-- A block with rows that look like a header and a comment, and a comment that is none of it. -/
def steppedText : String :=
  "rewrite:\n  a:\n    title: A\n    prompt: |\n      x:\n\n  # c\n        # y\n  b:\n"

def steppedRight : String :=
  "rewrite:\n  a:\n    title: A\n    prompt: |\n         x:\n\n  # c\n           # y\n  b:\n"

/-- The two rows of the block keep their distance when it is moved by three columns. -/
theorem steppedText_moved :
    (parse (some steppedRight)).actions = (parse (some steppedText)).actions ∧
      (parse (some steppedRight)).skipped = (parse (some steppedText)).skipped ∧
      ∃ prompt, Outlines ["      x:".toList, "        # y".toList] prompt := by
  have opened : OpensBlock steppedText ((rowsOf steppedText).take 3) "    prompt: |".toList
      ((rowsOf steppedText).drop 4) :=
    ⟨by decide +kernel, by decide +kernel, ['|'], by decide +kernel, by decide +kernel⟩
  have content : (blockOf ((rowsOf steppedText).drop 4)).filter isContent =
      ["      x:".toList, "        # y".toList] := by decide +kernel
  have spaces : ((blockOf ((rowsOf steppedText).drop 4)).all fun row =>
      (row.takeWhile isIndentation).all (· == ' ')) = true := by decide +kernel
  have spaced : ∀ row ∈ blockOf ((rowsOf steppedText).drop 4), isContent row = true →
      IsSpaced row := by
    intro row hrow _ c hc
    simpa using List.all_eq_true.1 (List.all_eq_true.1 spaces row hrow) c hc
  obtain ⟨moved, d, prompt, -, -, -, -, outlines⟩ := block_indentation_is_relative opened
  obtain ⟨actions, skipped⟩ := moved 3 steppedRight spaced (by decide +kernel)
  rw [content] at outlines
  exact ⟨actions, skipped, prompt, outlines⟩

end Parser

end ActionEngine.Config
