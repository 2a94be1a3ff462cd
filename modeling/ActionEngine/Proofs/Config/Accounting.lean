import ActionEngine.Proofs.Config.Boundary

/-!
# Every block is counted once

A block is begun by the header of an action, and by a line that is meant as one but is none. It
ends among the actions or is skipped, wherever it stands, so that the two numbers add up to the
number of such lines.
-/

namespace ActionEngine.Config

open ActionEngine.Text

def Token.isAction (t : Token) : Bool :=
  match t.shape with
  | .action _ => true
  | _ => false

/-- The line is indented less than a property and ends with a colon, but is no header. -/
def Token.isMalformedHeader (t : Token) : Bool :=
  t.shape = .text && 1 ≤ t.indent && t.indent < propertyColumn && Parser.looksLikeHeader t.line

def Token.begun (t : Token) : Nat :=
  t.isAction.toNat + t.isMalformedHeader.toNat

theorem Token.begun_of_action {t : Token} {key : Line} (shape : t.shape = .action key) :
    t.begun = 1 := by
  simp [begun, isAction, isMalformedHeader, shape]

theorem Token.begun_eq_zero {t : Token} (no_action : ∀ key, t.shape ≠ .action key)
    (content : t.shape = .text → propertyColumn ≤ t.indent) : t.begun = 0 := by
  have action : t.isAction = false := by
    unfold isAction
    split
    · exact absurd ‹_› (no_action _)
    · rfl
  have malformed : t.isMalformedHeader = false := by
    by_cases text : t.shape = .text
    · simp [isMalformedHeader, Nat.not_lt.2 (content text)]
    · simp [isMalformedHeader, text]
  rw [begun, action, malformed]
  rfl

namespace Parser

/-- The blocks so far: those that were read, those that were skipped, and the open one. -/
def blocks (p : Parser) : Nat :=
  p.actions.length + p.skipped + p.draft.toList.length

theorem blocks_flush (p : Parser) : p.flush.blocks = p.blocks := by
  obtain ⟨-, -, closed, -⟩ := p.flush_frame
  unfold blocks
  rw [closed, ← flush_counts p]
  rfl

theorem blocks_setProperty (p : Parser) (indent : Nat) (key value : Line) :
    (p.setProperty indent key value).blocks = p.blocks := by
  unfold setProperty
  split
  · rfl
  · have kept (d' : Draft) (phase : Phase) :
        blocks { p with draft := some d', phase := phase } = p.blocks := by
      simp [blocks, ‹p.draft = _›]
    split
    · rfl
    · exact kept _ _
    · exact kept _ _
    · exact kept _ _
    · exact kept _ _
    · split <;> exact kept _ _

theorem blocks_feedBlock (p : Parser) (t : Token) : (p.feedBlock t).blocks = p.blocks := by
  unfold feedBlock
  split
  · split
    · rfl
    · split
      · simp [blocks, ‹p.draft = _›]
      · split
        · simp [blocks, ‹p.draft = _›]
        · rfl
  · rfl

theorem blocks_leaveBlock (p : Parser) : p.leaveBlock.blocks = p.blocks := by
  unfold leaveBlock
  split
  · simp [blocks, ‹p.draft = _›]
  · rfl

/-- A line that is no header ends the open block, and begins another one if it is meant as one. -/
theorem blocks_closeMalformed (p : Parser) {t : Token} (shape : t.shape = .text)
    (low : t.indent < propertyColumn) :
    (p.closeMalformed t).blocks = p.blocks + t.begun := by
  rw [← blocks_flush p]
  unfold closeMalformed Token.begun Token.isAction Token.isMalformedHeader blocks
  rw [shape]
  by_cases first : t.indent = 0
  · simp [first]
  · have inside : 1 ≤ t.indent := Nat.one_le_iff_ne_zero.2 first
    cases looks : looksLikeHeader t.line with
    | false => simp [first]
    | true =>
        simp [first, low, inside]
        omega

theorem blocks_feedOutside (p : Parser) (t : Token) :
    (p.feedOutside t).blocks = p.blocks + t.begun := by
  unfold feedOutside
  split
  · rw [Token.begun_eq_zero (by simp [*]) (by simp [*])]
    rfl
  · rw [Token.begun_eq_zero (by simp [*]) (by simp [*])]
    rfl
  · rw [Token.begun_eq_zero (by simp [*]) (by simp [*])]
    exact p.blocks_flush
  · -- The block that was open has ended, and the new one is open.
    obtain ⟨-, -, closed, -⟩ := p.flush_frame
    rw [Token.begun_of_action ‹_›, ← blocks_flush p]
    simp [blocks, closed]
  · rw [Token.begun_eq_zero (by simp [*]) (by simp [*])]
    split
    · exact p.blocks_setProperty _ _ _
    · rfl
  · split
    · exact p.blocks_closeMalformed ‹_› ‹_›
    · rw [Token.begun_eq_zero (by simp [*]) (by omega)]
      rfl

/-- What a prompt block takes in begins no block. -/
theorem begun_of_continuesBlock {n : Nat} {row : Line}
    (continues : continuesBlock (Token.ofLine n row) = true) : (Token.ofLine n row).begun = 0 := by
  apply Token.begun_eq_zero
  · intro key shape
    have low := indent_of_action shape
    simp [continuesBlock, shape] at continues
    omega
  · intro shape
    simpa [continuesBlock, shape] using continues

theorem blocks_feed (p : Parser) (n : Nat) (row : Line) :
    (p.feed (Token.ofLine n row)).blocks = p.blocks + (Token.ofLine n row).begun := by
  unfold feed
  split
  · split
    · rw [blocks_feedBlock, begun_of_continuesBlock ‹_›]
      rfl
    · rw [blocks_feedOutside, blocks_leaveBlock]
  · exact p.blocks_feedOutside _

theorem blocks_read (p : Parser) (n : Nat) (rows : List Line) :
    (p.read n rows).blocks = p.blocks + (Token.ofLinesFrom n rows).countP Token.isAction +
      (Token.ofLinesFrom n rows).countP Token.isMalformedHeader := by
  induction rows generalizing p n with
  | nil => rfl
  | cons row rows ih =>
      have first : Token.ofLinesFrom n (row :: rows) =
          Token.ofLine n row :: Token.ofLinesFrom (n + 1) rows := rfl
      rw [read_cons, ih, blocks_feed, first, List.countP_cons, List.countP_cons, Token.begun]
      cases (Token.ofLine n row).isAction <;> cases (Token.ofLine n row).isMalformedHeader <;>
        simp <;> omega

/-- The actions of a text and those that were skipped are as many as its headers of actions and
    the lines that were meant as such, whatever else stands in it and in whatever order. -/
theorem blocks_counted_once (text : String) :
    (parse (some text)).actions.length + (parse (some text)).skipped =
      (tokens text.toList).countP Token.isAction +
        (tokens text.toList).countP Token.isMalformedHeader := by
  have ended := flush_counts (initial.read 1 (rowsOf text))
  have counted := initial.blocks_read 1 (rowsOf text)
  have nothing : initial.blocks = 0 := rfl
  rw [nothing, Nat.zero_add] at counted
  exact ended.trans counted

end Parser

end ActionEngine.Config
