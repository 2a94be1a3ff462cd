import ActionEngine.Proofs.Config.Phases
import ActionEngine.Proofs.Config.RoundTrip

/-!
# Blocks do not affect each other

A header ends whatever was open just as the end of a text would, and what follows it is read
as if nothing had been read before: the parser never looks at the actions it has already, at
how many it skipped, or at the numbers of lines. So a text that is cut in front of a header
is read piece by piece.
-/

namespace ActionEngine.Config

open ActionEngine.Text

/-! ### Lines without their numbers -/

def Token.unnumbered (t : Token) : Token :=
  { t with number := 0 }

def Draft.unnumbered (d : Draft) : Draft :=
  { d with number := 0 }

theorem ofLine_unnumbered (n : Nat) (row : Line) :
    (Token.ofLine n row).unnumbered = Token.ofLine 0 row := by
  unfold Token.ofLine
  split <;> rfl

/-- The shape and the indentation of a row do not depend on its number. -/
theorem ofLine_number (m n : Nat) (row : Line) :
    (Token.ofLine m row).shape = (Token.ofLine n row).shape ∧
      (Token.ofLine m row).indent = (Token.ofLine n row).indent := by
  have same := (ofLine_unnumbered m row).trans (ofLine_unnumbered n row).symm
  injection same with _ indent _ shape
  exact ⟨shape, indent⟩

theorem indent_of_category {n : Nat} {row key : Line}
    (h : (Token.ofLine n row).shape = .category key) : (Token.ofLine n row).indent = 0 := by
  cases hasShape_of_ofLine h Shape.noConfusion with
  | category header placed => exact placed

theorem indent_of_action {n : Nat} {row key : Line}
    (h : (Token.ofLine n row).shape = .action key) :
    (Token.ofLine n row).indent < propertyColumn := by
  cases hasShape_of_ofLine h Shape.noConfusion with
  | action header placed => exact placed.2

namespace Parser

/-! ### A parser that has read something before -/

/-- The parser with other actions in front of its own, some more skipped, and the number of
    its line forgotten. -/
def behind (before : List Action) (count : Nat) (p : Parser) : Parser :=
  { p with draft := p.draft.map Draft.unnumbered
           actions := before ++ p.actions
           skipped := count + p.skipped }

section Behind

variable (before : List Action) (count : Nat) (p : Parser)

theorem closeBlock_unnumbered (d : Draft) : d.unnumbered.closeBlock = d.closeBlock.unnumbered := by
  obtain ⟨category, name, number, title, icon, selection, external, prompt, block⟩ := d
  cases block <;> rfl

theorem build_unnumbered (d : Draft) : d.unnumbered.build = d.build := by
  simp only [Draft.build, Draft.unnumbered]

theorem flush_behind : (p.behind before count).flush = p.flush.behind before count := by
  obtain ⟨phase, category, draft, actions, skipped, sound⟩ := p
  cases draft with
  | none => rfl
  | some d =>
      unfold flush behind
      dsimp only [Option.map_some]
      rw [closeBlock_unnumbered, build_unnumbered]
      cases d.closeBlock.build with
      | ok action => simp only [List.append_assoc, Option.map_none]
      | error refusal => simp only [Nat.add_assoc, Option.map_none]

theorem setProperty_behind (indent : Nat) (key value : Line) :
    (p.behind before count).setProperty indent key value =
      (p.setProperty indent key value).behind before count := by
  obtain ⟨phase, category, draft, actions, skipped, sound⟩ := p
  cases draft with
  | none => rfl
  | some d =>
      unfold setProperty behind
      dsimp only [Option.map_some]
      cases Property.ofKey? key with
      | none => rfl
      | some property =>
          cases property with
          | prompt =>
              dsimp only
              cases indicator? value <;> rfl
          | _ => rfl

theorem closeMalformed_behind (t : Token) :
    (p.behind before count).closeMalformed t.unnumbered =
      (p.closeMalformed t).behind before count := by
  have indent : t.unnumbered.indent = t.indent := rfl
  have line : t.unnumbered.line = t.line := rfl
  unfold closeMalformed
  rw [flush_behind, indent, line]
  by_cases first : (t.indent == 0) = true
  · rw [if_pos first, if_pos first]
    rfl
  · rw [if_neg first, if_neg first]
    unfold behind
    dsimp only
    cases looksLikeHeader t.line <;>
      simp only [Nat.add_assoc, Bool.false_eq_true, if_true, if_false]

theorem feedOutside_behind (t : Token) :
    (p.behind before count).feedOutside t.unnumbered = (p.feedOutside t).behind before count := by
  have same : t.unnumbered.shape = t.shape := rfl
  unfold feedOutside
  rw [same]
  cases t.shape with
  | blank => rfl
  | comment => rfl
  | category key =>
      dsimp only
      rw [flush_behind]
      obtain ⟨-, -, closed, -⟩ := p.flush_frame
      rfl
  | action key =>
      dsimp only
      rw [flush_behind]
      rfl
  | property key value =>
      dsimp only
      rw [setProperty_behind]
      exact (apply_ite (behind before count) _ _ _).symm
  | text =>
      dsimp only
      rw [closeMalformed_behind]
      exact (apply_ite (behind before count) _ _ _).symm

theorem feedBlock_behind (t : Token) :
    (p.behind before count).feedBlock t.unnumbered = (p.feedBlock t).behind before count := by
  obtain ⟨phase, category, draft, actions, skipped, sound⟩ := p
  cases draft with
  | none => rfl
  | some d =>
      have added (line : Line) : d.unnumbered.addLine line = (d.addLine line).unnumbered := rfl
      have block : d.unnumbered.block = d.block := rfl
      have indent : t.unnumbered.indent = t.indent := rfl
      have line : t.unnumbered.line = t.line := rfl
      have shape : t.unnumbered.shape = t.shape := rfl
      unfold feedBlock behind
      dsimp only [Option.map_some]
      rw [added, added, block, indent, line, shape]
      split
      · rfl
      · split
        · rfl
        · split <;> rfl

theorem leaveBlock_behind :
    (p.behind before count).leaveBlock = p.leaveBlock.behind before count := by
  obtain ⟨phase, category, draft, actions, skipped, sound⟩ := p
  cases draft with
  | none => rfl
  | some d =>
      unfold leaveBlock behind
      dsimp only [Option.map_some]
      rw [closeBlock_unnumbered]

theorem feed_behind (t : Token) :
    (p.behind before count).feed t.unnumbered = (p.feed t).behind before count := by
  have phase : (p.behind before count).phase = p.phase := rfl
  have continues : continuesBlock t.unnumbered = continuesBlock t := rfl
  unfold feed
  rw [phase, continues]
  split
  · split
    · exact feedBlock_behind before count p t
    · rw [leaveBlock_behind, feedOutside_behind]
  · exact feedOutside_behind before count p t

end Behind

/-- Two parsers that differ in what was read before go on in the same way. -/
theorem read_behind {before : List Action} {count : Nat} {p q : Parser}
    (h : p.behind [] 0 = q.behind before count) (n m : Nat) (rows : List Line) :
    (p.read n rows).behind [] 0 = (q.read m rows).behind before count := by
  induction rows generalizing p q n m with
  | nil => exact h
  | cons row rows ih =>
      rw [read_cons, read_cons]
      -- The row is fed to two parsers that agree, but for its number, which is forgotten again.
      refine ih ?_ (n + 1) (m + 1)
      rw [← feed_behind, ← feed_behind, h, ofLine_unnumbered, ofLine_unnumbered]

/-! ### Headers -/

namespace Coherent

variable {p : Parser}

/-- A header ends what is open and sets up what comes next. -/
theorem feed_category (h : p.Coherent) {n : Nat} {row key : Line}
    (shape : (Token.ofLine n row).shape = .category key) :
    p.feed (Token.ofLine n row) =
      { p.flush with category := some key, phase := .expectAction } := by
  have ends : continuesBlock (Token.ofLine n row) = false := by
    simp [continuesBlock, shape, indent_of_category shape, propertyColumn]
  unfold Parser.feed
  by_cases inBlock : p.phase = .collectPrompt
  · -- The header closes the block first, which does not change the action that is made.
    obtain ⟨d, hd, -⟩ := h.block.2 inBlock
    rw [if_pos inBlock, ends, if_neg Bool.false_ne_true]
    unfold Parser.feedOutside
    rw [shape]
    dsimp only
    rw [flush_leaveBlock hd]
  · rw [if_neg inBlock]
    unfold Parser.feedOutside
    rw [shape]

theorem feed_action (h : p.Coherent) {n : Nat} {row key : Line}
    (shape : (Token.ofLine n row).shape = .action key) :
    p.feed (Token.ofLine n row) =
      { p.flush with draft := some { category := p.category, name := key, number := n }
                     phase := .collectProperty } := by
  have ends : continuesBlock (Token.ofLine n row) = false := by
    have placed := indent_of_action shape
    simp [continuesBlock, shape]
    omega
  have number : (Token.ofLine n row).number = n := by
    unfold Token.ofLine
    split <;> rfl
  obtain ⟨-, same, -, -⟩ := p.flush_frame
  unfold Parser.feed
  by_cases inBlock : p.phase = .collectPrompt
  · obtain ⟨d, hd, -⟩ := h.block.2 inBlock
    rw [if_pos inBlock, ends, if_neg Bool.false_ne_true]
    unfold Parser.feedOutside
    rw [shape]
    dsimp only
    rw [flush_leaveBlock hd, number, ← same]
  · rw [if_neg inBlock]
    unfold Parser.feedOutside
    rw [shape]
    dsimp only
    rw [number, ← same]

/-- The line feed between two texts may leave an empty row, which makes no difference to what
    comes of what was read. -/
theorem read_gap (h : p.Coherent) {gap : List Line} (empty : gap = [] ∨ gap = [[]]) (n : Nat) :
    (p.read n gap).Coherent ∧ (p.read n gap).category = p.category ∧
      (p.read n gap).flush.actions = p.flush.actions ∧
      (p.read n gap).flush.skipped = p.flush.skipped := by
  rcases empty with rfl | rfl
  · exact ⟨h, rfl, rfl, rfl⟩
  · rw [read_cons, read_nil]
    refine ⟨h.feed _, ?_⟩
    by_cases inBlock : p.phase = .collectPrompt
    · obtain ⟨d, hd, hb⟩ := h.block.2 inBlock
      rw [feed_blank n inBlock hd hb, flush_addLine_nil hd]
      exact ⟨rfl, rfl, rfl⟩
    · have kept : p.feed (Token.ofLine n []) = p := if_neg inBlock
      rw [kept]
      exact ⟨rfl, rfl, rfl⟩

/-- What a header meets makes no difference to how it is read, once what was open is ended: of
    a category header at all, and of an action header as long as the category is the same. -/
theorem feed_header {q : Parser} (h : p.Coherent) (fresh : q.Coherent)
    (blank : q.flush.actions = [] ∧ q.flush.skipped = 0) {row : Line}
    (header : (∃ key, (Token.ofLine 1 row).shape = .category key) ∨
      (∃ key, (Token.ofLine 1 row).shape = .action key) ∧ p.category = q.category) (n m : Nat) :
    (p.feed (Token.ofLine n row)).behind [] 0 =
      (q.feed (Token.ofLine m row)).behind p.flush.actions p.flush.skipped := by
  obtain ⟨-, category, closed, sound⟩ := p.flush_frame
  obtain ⟨-, category', closed', sound'⟩ := q.flush_frame
  rcases header with ⟨key, shape⟩ | ⟨⟨key, shape⟩, same⟩
  · rw [h.feed_category ((ofLine_number n 1 row).1.trans shape),
      fresh.feed_category ((ofLine_number m 1 row).1.trans shape)]
    unfold behind
    dsimp only
    rw [closed, closed', blank.1, blank.2, sound, sound', h.sound, fresh.sound, List.append_nil,
      List.nil_append, Nat.zero_add, Nat.add_zero]
  · rw [h.feed_action ((ofLine_number n 1 row).1.trans shape),
      fresh.feed_action ((ofLine_number m 1 row).1.trans shape)]
    unfold behind
    dsimp only
    rw [category, category', same, blank.1, blank.2, sound, sound', h.sound, fresh.sound,
      List.append_nil, List.nil_append, Nat.zero_add, Nat.add_zero]
    rfl

/-- From a header on, the rows give what they give to a parser that has nothing yet, also
    when an empty row stands in front of the header. -/
theorem read_header {q : Parser} (h : p.Coherent) (fresh : q.Coherent)
    (blank : q.flush.actions = [] ∧ q.flush.skipped = 0) {gap : List Line}
    (empty : gap = [] ∨ gap = [[]]) {row : Line}
    (header : (∃ key, (Token.ofLine 1 row).shape = .category key) ∨
      (∃ key, (Token.ofLine 1 row).shape = .action key) ∧ p.category = q.category) (n m : Nat)
    (rest : List Line) :
    (p.read n (gap ++ row :: rest)).flush.actions =
        p.flush.actions ++ (q.read m (row :: rest)).flush.actions ∧
      (p.read n (gap ++ row :: rest)).flush.skipped =
        p.flush.skipped + (q.read m (row :: rest)).flush.skipped := by
  obtain ⟨coherent, category, actions, skipped⟩ := h.read_gap empty n
  rw [read_append, ← actions, ← skipped]
  rw [← category] at header
  have same := congrArg flush
    (read_behind (coherent.feed_header fresh blank header (n + gap.length) m)
      (n + gap.length + 1) (m + 1) rest)
  rw [flush_behind, flush_behind] at same
  exact ⟨congrArg Parser.actions same,
    (Nat.zero_add _).symm.trans (congrArg Parser.skipped same)⟩

end Coherent

/-! ### Staying in a category -/

/-- Nothing but a blank or a comment stands at column 0. -/
def StaysInside (row : Line) : Prop :=
  (Token.ofLine 1 row).indent = 0 →
    (Token.ofLine 1 row).shape = .blank ∨ (Token.ofLine 1 row).shape = .comment

theorem setProperty_category (p : Parser) (indent : Nat) (key value : Line) :
    (p.setProperty indent key value).category = p.category := by
  unfold setProperty
  split
  · rfl
  · split
    · rfl
    · rfl
    · rfl
    · rfl
    · rfl
    · split <;> rfl

theorem feedOutside_category (p : Parser) {t : Token}
    (inside : t.indent = 0 → t.shape = .blank ∨ t.shape = .comment)
    (no_header : ∀ key, t.shape ≠ .category key) : (p.feedOutside t).category = p.category := by
  obtain ⟨-, flushed, -, -⟩ := p.flush_frame
  unfold feedOutside
  split
  · rfl
  · rfl
  · exact absurd ‹_› (no_header _)
  · exact flushed
  · split
    · exact setProperty_category p _ _ _
    · rfl
  · split
    · unfold closeMalformed
      have shape : t.shape = .text := ‹_›
      have indented : ¬(t.indent == 0) = true := by
        intro first
        rcases inside (beq_iff_eq.1 first) with h | h <;> rw [shape] at h <;> cases h
      rw [if_neg indented]
      exact flushed
    · rfl

theorem feedBlock_category (p : Parser) (t : Token) : (p.feedBlock t).category = p.category := by
  unfold feedBlock
  split
  · split
    · rfl
    · split
      · rfl
      · split <;> rfl
  · rfl

theorem leaveBlock_category (p : Parser) : p.leaveBlock.category = p.category := by
  unfold leaveBlock
  split <;> rfl

theorem feed_category_of_staysInside (p : Parser) (n : Nat) {row : Line}
    (inside : StaysInside row) : (p.feed (Token.ofLine n row)).category = p.category := by
  obtain ⟨shape, indent⟩ := ofLine_number n 1 row
  have inside' : (Token.ofLine n row).indent = 0 →
      (Token.ofLine n row).shape = .blank ∨ (Token.ofLine n row).shape = .comment := by
    rw [shape, indent]
    exact inside
  have no_header : ∀ key, (Token.ofLine n row).shape ≠ .category key := by
    intro key header
    rcases inside' (indent_of_category header) with h | h <;> rw [header] at h <;> cases h
  unfold feed
  split
  · split
    · exact feedBlock_category p _
    · exact (feedOutside_category _ inside' no_header).trans (leaveBlock_category p)
  · exact feedOutside_category p inside' no_header

theorem read_category (p : Parser) (n : Nat) {rows : List Line}
    (inside : ∀ row ∈ rows, StaysInside row) : (p.read n rows).category = p.category := by
  induction rows generalizing p n with
  | nil => rfl
  | cons row rows ih =>
      rw [read_cons, ih _ _ fun row' h => inside row' (List.mem_cons_of_mem _ h)]
      exact feed_category_of_staysInside p n (inside row List.mem_cons_self)

/-! ### Texts that are cut in two -/

def firstShape? (text : String) : Option Shape :=
  (lines text.toList).head?.map fun row => (Token.ofLine 1 row).shape

/-- The whole gives the actions of the one text and behind them those of the other one, and
    skips what the two of them skip. -/
def ParsesApart (whole first second : String) : Prop :=
  (parse (some whole)).actions = (parse (some first)).actions ++ (parse (some second)).actions ∧
    (parse (some whole)).skipped = (parse (some first)).skipped + (parse (some second)).skipped

def rowsOf (text : String) : List Line :=
  lines (dropMark text.toList)

theorem parse_eq (text : String) : parse (some text) = (initial.read 1 (rowsOf text)).finish := rfl

theorem dropMark_append_line_feed (s t : List Char) :
    dropMark (s ++ '\n' :: t) = dropMark s ++ '\n' :: t :=
  dropMark_append s fun h => absurd (Option.some.inj h) (by decide)

theorem rowsOf_join (a b : String) :
    ∃ gap, (gap = [] ∨ gap = [[]]) ∧
      rowsOf (a ++ "\n" ++ b) = rowsOf a ++ (gap ++ lines b.toList) := by
  obtain ⟨gap, empty, cut⟩ := lines_append_line_feed (dropMark a.toList) b.toList
  refine ⟨gap, empty, ?_⟩
  have joined : (a ++ "\n" ++ b).toList = a.toList ++ '\n' :: b.toList := by simp
  unfold rowsOf
  rw [joined, dropMark_append_line_feed, cut, List.append_assoc]

theorem lines_of_firstShape? {text : String} {shape : Shape} (h : firstShape? text = some shape) :
    ∃ row rest, lines text.toList = row :: rest ∧ (Token.ofLine 1 row).shape = shape := by
  unfold firstShape? at h
  cases rows : lines text.toList with
  | nil =>
      rw [rows] at h
      cases h
  | cons row rest =>
      rw [rows] at h
      exact ⟨row, rest, rfl, Option.some.inj h⟩

/-- A line that starts with the byte order mark is no header. -/
theorem ofLine_mark (n : Nat) (rest : Line) (key : Line) :
    (Token.ofLine n ('\ufeff' :: rest)).shape ≠ .category key := by
  intro category
  have shape := hasShape_of_ofLine category Shape.noConfusion
  have body : trimRight (('\ufeff' :: rest).dropWhile isIndentation) = '\ufeff' :: trimRight rest :=
    trimRight_cons (by decide) rest
  rw [body] at shape
  cases shape with
  | category header placed =>
      have front : dropComment ('\ufeff' :: trimRight rest) =
          '\ufeff' :: dropComment (trimRight rest) := rfl
      rw [front] at header
      cases header

theorem dropMark_of_category {text : String} {key : Line}
    (h : firstShape? text = some (.category key)) : dropMark text.toList = text.toList := by
  obtain ⟨row, rest, rows, shape⟩ := lines_of_firstShape? h
  refine dropMark_eq ?_
  intro mark
  -- A mark in front of the text would be the first character of its first line.
  obtain ⟨line, others, marked⟩ := (head?_eq_some_iff_lines (by decide)).1 mark
  rw [rows] at marked
  obtain ⟨rfl, -⟩ := List.cons.inj marked
  exact ofLine_mark 1 line key shape

/-- A whole that is cut in front of a header, when the second part has the header behind rows
    that make nothing and lead into the same category. -/
theorem parsesApart_of_rows {whole first second : String} {front gap rest : List Line} {row : Line}
    (cut : rowsOf whole = rowsOf first ++ (gap ++ row :: rest)) (empty : gap = [] ∨ gap = [[]])
    (second_rows : rowsOf second = front ++ row :: rest)
    (blank : (initial.read 1 front).flush.actions = [] ∧ (initial.read 1 front).flush.skipped = 0)
    (header : (∃ key, (Token.ofLine 1 row).shape = .category key) ∨
      (∃ key, (Token.ofLine 1 row).shape = .action key) ∧
        (initial.read 1 (rowsOf first)).category = (initial.read 1 front).category) :
    ParsesApart whole first second := by
  unfold ParsesApart
  rw [parse_eq, parse_eq, parse_eq, cut, second_rows, read_append initial 1 (rowsOf first),
    read_append initial 1 front]
  exact (Coherent.initial.feedAll _).read_header (Coherent.initial.feedAll _) blank empty header _ _
    rest

theorem parsesApart_of_category (a b : String) {key : Line}
    (header : firstShape? b = some (.category key)) : ParsesApart (a ++ "\n" ++ b) a b := by
  obtain ⟨row, rest, rows, shape⟩ := lines_of_firstShape? header
  obtain ⟨gap, empty, cut⟩ := rowsOf_join a b
  rw [rows] at cut
  have second : rowsOf b = [] ++ row :: rest := by
    unfold rowsOf
    rw [dropMark_of_category header, rows]
    rfl
  exact parsesApart_of_rows cut empty second ⟨rfl, rfl⟩ (.inl ⟨key, shape⟩)

theorem rowsOf_line {c : String} (line : IsLine c.toList) (t : String) :
    rowsOf (c ++ "\n" ++ t) = dropMark c.toList :: lines t.toList := by
  have line' : IsLine (dropMark c.toList) := by
    unfold dropMark
    split
    · rename_i rest front
      rw [front] at line
      exact fun d hd => line d (List.mem_cons_of_mem _ hd)
    · exact line
  have joined : (c ++ "\n" ++ t).toList = c.toList ++ '\n' :: t.toList := by simp
  unfold rowsOf
  rw [joined, dropMark_append_line_feed, lines_line_append line']

theorem parsesApart_of_action (c a₁ a₂ : String) {key key' : Line} (line : IsLine c.toList)
    (category : (Token.ofLine 1 (dropMark c.toList)).shape = .category key)
    (inside : ∀ row ∈ lines a₁.toList, StaysInside row)
    (header : firstShape? a₂ = some (.action key')) :
    ParsesApart (c ++ "\n" ++ a₁ ++ "\n" ++ a₂) (c ++ "\n" ++ a₁) (c ++ "\n" ++ a₂) := by
  obtain ⟨row, rest, rows, shape⟩ := lines_of_firstShape? header
  obtain ⟨gap, empty, cut⟩ := rowsOf_join (c ++ "\n" ++ a₁) a₂
  rw [rows] at cut
  have second : rowsOf (c ++ "\n" ++ a₂) = [dropMark c.toList] ++ row :: rest := by
    rw [rowsOf_line line, rows]
    rfl
  have opened : initial.read 1 [dropMark c.toList] =
      { initial.flush with category := some key, phase := .expectAction } :=
    Coherent.initial.feed_category category
  -- The header line alone makes nothing, and the first part does not leave its category.
  refine parsesApart_of_rows cut empty second ?_ (.inr ⟨⟨key', shape⟩, ?_⟩)
  · rw [opened]
    exact ⟨rfl, rfl⟩
  · rw [rowsOf_line line, read_cons, read_category _ _ inside]
    rfl

/-- In front of a category header any text can be cut off; in front of an action header what
    stands in the same category can be. Either way the two parts give what the whole gives, and
    skip what the whole skips, whatever the first part leaves open. -/
theorem blocks_parse_apart :
    (∀ (a b : String) (key : Line), firstShape? b = some (.category key) →
      ParsesApart (a ++ "\n" ++ b) a b) ∧
    ∀ (c a₁ a₂ : String) (key key' : Line), IsLine c.toList →
      (Token.ofLine 1 (dropMark c.toList)).shape = .category key →
      (∀ row ∈ lines a₁.toList, StaysInside row) → firstShape? a₂ = some (.action key') →
      ParsesApart (c ++ "\n" ++ a₁ ++ "\n" ++ a₂) (c ++ "\n" ++ a₁) (c ++ "\n" ++ a₂) :=
  ⟨fun a b _ header => parsesApart_of_category a b header,
    fun c a₁ a₂ _ _ line category inside header =>
      parsesApart_of_action c a₁ a₂ line category inside header⟩

/-- An action whose prompt block is never closed. -/
def openBlock : String :=
  "  a:\n    title: A\n    prompt: |\n      Say x"

/-- A category of its own, with an action that has no title and one that has. -/
def otherCategory : String :=
  "review: # more\n  b:\n    icon: i\n  c:\n    title: C"

theorem openBlock_parses_apart :
    ParsesApart (openBlock ++ "\n" ++ otherCategory) openBlock otherCategory ∧
      ParsesApart ("rewrite:" ++ "\n" ++ openBlock ++ "\n" ++ openBlock)
        ("rewrite:" ++ "\n" ++ openBlock) ("rewrite:" ++ "\n" ++ openBlock) ∧
      (parse (some otherCategory)).skipped = 1 := by
  have inside : ∀ row ∈ lines openBlock.toList, (Token.ofLine 1 row).indent ≠ 0 := by
    decide +kernel
  refine ⟨blocks_parse_apart.1 openBlock otherCategory "review".toList (by decide +kernel),
    blocks_parse_apart.2 "rewrite:" openBlock openBlock "rewrite".toList "a".toList
      (by decide) (by decide +kernel) ?_ (by decide +kernel), by decide +kernel⟩
  exact fun row hrow first => absurd first (inside row hrow)

end Parser

end ActionEngine.Config
