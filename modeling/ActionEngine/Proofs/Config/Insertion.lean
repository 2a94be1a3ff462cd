import ActionEngine.Proofs.Config.Boundary

/-!
# Lines that may be put in anywhere

A comment below the property column is passed over in every state, also in the middle of a prompt
block; any other comment and any blank line is passed over as long as no block is open. What
follows such a line is read as if the line were not there, apart from the numbers of lines.
-/

namespace ActionEngine.Config

open ActionEngine.Text

theorem headerAt?_ne_comment (indent : Nat) (body : Line) :
    headerAt? indent body ≠ some .comment := by
  intro h
  unfold headerAt? at h
  obtain ⟨key, -, h⟩ := Option.bind_eq_some_iff.1 h
  split at h
  · cases h
  · split at h <;> cases h

theorem propertyAt?_ne_comment (indent : Nat) (body : Line) :
    propertyAt? indent body ≠ some .comment := by
  intro h
  unfold propertyAt? at h
  split at h
  · obtain ⟨p, -, h⟩ := Option.map_eq_some_iff.1 h
    cases h
  · cases h

theorem head?_of_comment {indent : Nat} {body : Line} (comment : shapeAt indent body = .comment) :
    body.head? = some '#' := by
  by_contra other
  unfold shapeAt at comment
  rw [if_neg (by simpa using other)] at comment
  cases header : headerAt? indent body with
  | some shape =>
      rw [header] at comment
      exact headerAt?_ne_comment indent body (header.trans (congrArg some comment))
  | none =>
      rw [header, Option.none_or] at comment
      cases property : propertyAt? indent body with
      | some shape =>
          rw [property] at comment
          exact propertyAt?_ne_comment indent body (property.trans (congrArg some comment))
      | none =>
          rw [property] at comment
          cases comment

/-- A line that starts with the byte order mark is neither blank nor a comment. -/
theorem text_of_mark (n : Nat) (line : Line) :
    (Token.ofLine n ('\ufeff' :: line)).shape ≠ .blank ∧
      (Token.ofLine n ('\ufeff' :: line)).shape ≠ .comment := by
  have filled : allBlank ('\ufeff' :: line) = false := rfl
  have body : trimRight (('\ufeff' :: line).dropWhile isIndentation) = '\ufeff' :: trimRight line :=
    trimRight_cons (by decide) line
  rw [ofLine_of_not_allBlank n filled, body]
  dsimp only
  refine ⟨shapeAt_ne_blank _ _, ?_⟩
  intro comment
  cases head?_of_comment comment

namespace Parser

variable {p : Parser}

/-- A comment below the property column is no content, and ends nothing. -/
theorem Coherent.feed_low_comment (h : p.Coherent) {t : Token} (comment : t.shape = .comment)
    (low : t.indent < propertyColumn) : p.feed t = p := by
  unfold Parser.feed
  by_cases inBlock : p.phase = .collectPrompt
  · obtain ⟨d, hd, hb⟩ := h.block.2 inBlock
    rw [if_pos inBlock, if_pos (by simp [continuesBlock, comment]), feedBlock_eq hd hb, comment,
      if_neg Shape.noConfusion, if_neg (Nat.not_le.2 low)]
  · rw [if_neg inBlock]
    unfold Parser.feedOutside
    rw [comment]

theorem feed_passed_over {t : Token} (outside : p.phase ≠ .collectPrompt)
    (nothing : t.shape = .blank ∨ t.shape = .comment) : p.feed t = p := by
  unfold feed feedOutside
  rw [if_neg outside]
  rcases nothing with shape | shape <;> rw [shape]

/-- The numbers of the lines make no difference to what comes of them. -/
theorem read_renumbered (p : Parser) (n m : Nat) (rows : List Line) :
    (p.read n rows).flush.actions = (p.read m rows).flush.actions ∧
      (p.read n rows).flush.skipped = (p.read m rows).flush.skipped := by
  have same := congrArg flush (read_behind (p := p) (q := p) rfl n m rows)
  rw [flush_behind, flush_behind] at same
  have actions := congrArg Parser.actions same
  have skipped := congrArg Parser.skipped same
  exact ⟨actions, Nat.add_left_cancel skipped⟩

theorem rowsOf_eq_lines {text : String}
    (unmarked : ∀ line others, lines text.toList ≠ ('\ufeff' :: line) :: others) :
    rowsOf text = lines text.toList := by
  unfold rowsOf
  rw [dropMark_eq]
  intro mark
  obtain ⟨line, others, cut⟩ := (head?_eq_some_iff_lines (by decide)).1 mark
  exact unmarked line others cut

/-- Between the lines of a text without a byte order mark, a comment below the property column can
    be put in everywhere, and a blank line or any comment wherever no prompt block is open: the
    actions stay the same, and so does the number of those that are skipped. -/
theorem insert_insignificant {text text' : String} {front back : List Line} {row : Line}
    (unmarked : text.toList.head? ≠ some '\ufeff')
    (cut : lines text.toList = front ++ back) (inserted : lines text'.toList = front ++ row :: back)
    (insignificant :
      ((Token.ofLine 1 row).shape = .comment ∧ (Token.ofLine 1 row).indent < propertyColumn) ∨
        ((initial.read 1 front).phase ≠ .collectPrompt ∧
          ((Token.ofLine 1 row).shape = .blank ∨ (Token.ofLine 1 row).shape = .comment))) :
    (parse (some text')).actions = (parse (some text)).actions ∧
      (parse (some text')).skipped = (parse (some text)).skipped := by
  have nothing : (Token.ofLine 1 row).shape = .blank ∨ (Token.ofLine 1 row).shape = .comment := by
    rcases insignificant with ⟨comment, -⟩ | ⟨-, nothing⟩
    · exact .inr comment
    · exact nothing
  have rows : rowsOf text = front ++ back := by
    unfold rowsOf
    rw [dropMark_eq unmarked, cut]
  have rows' : rowsOf text' = front ++ row :: back := by
    rw [rowsOf_eq_lines, inserted]
    intro line others marked
    rw [inserted] at marked
    cases front with
    | nil =>
        obtain ⟨rfl, -⟩ := List.cons.inj marked
        exact nothing.elim (text_of_mark 1 line).1 (text_of_mark 1 line).2
    | cons first front =>
        obtain ⟨rfl, -⟩ := List.cons.inj marked
        exact unmarked ((head?_eq_some_iff_lines (by decide)).2 ⟨line, _, cut⟩)
  have idle : (initial.read 1 front).feed (Token.ofLine (1 + front.length) row) =
      initial.read 1 front := by
    obtain ⟨shape, indent⟩ := ofLine_number (1 + front.length) 1 row
    rcases insignificant with ⟨comment, low⟩ | ⟨outside, nothing⟩
    · exact (Coherent.initial.feedAll _).feed_low_comment (shape.trans comment) (indent ▸ low)
    · exact feed_passed_over outside (shape ▸ nothing)
  rw [parse_eq, parse_eq, rows, rows', read_append, read_append, read_cons, idle]
  exact read_renumbered _ _ _ back

/-- An action with a block of two lines, then with a comment between them, then with a blank line
    in front of the block. -/
def twoLines : String :=
  "rewrite:\n  a:\n    title: A\n    prompt: |\n      x\n      y\n"

def twoLinesCommented : String :=
  "rewrite:\n  a:\n    title: A\n    prompt: |\n      x\n  # z\n      y\n"

def twoLinesApart : String :=
  "rewrite:\n  a:\n    title: A\n\n    prompt: |\n      x\n      y\n"

theorem twoLines_kept :
    (parse (some twoLinesCommented)).actions = (parse (some twoLines)).actions ∧
      (parse (some twoLinesApart)).skipped = (parse (some twoLines)).skipped := by
  have cut (n : Nat) : lines twoLines.toList =
      (lines twoLines.toList).take n ++ (lines twoLines.toList).drop n :=
    (List.take_append_drop n _).symm
  constructor
  · have inserted : lines twoLinesCommented.toList =
        (lines twoLines.toList).take 5 ++ "  # z".toList :: (lines twoLines.toList).drop 5 := by
      decide +kernel
    exact (insert_insignificant (by decide +kernel) (cut 5) inserted (.inl (by decide +kernel))).1
  · have inserted : lines twoLinesApart.toList =
        (lines twoLines.toList).take 3 ++ [] :: (lines twoLines.toList).drop 3 := by
      decide +kernel
    exact (insert_insignificant (by decide +kernel) (cut 3) inserted (.inr (by decide +kernel))).2

end Parser

end ActionEngine.Config
