import ActionEngine.Proofs.Config.Token

/-!
# Which lines are headers

A line consists of a run of spaces and tabs, which reaches a column, and of the rest. The rest
is a header if it is a key and a colon, with nothing but blanks behind them, or with a comment
that blanks separate from the colon. Cutting off a trailing comment and matching what is left
recognises exactly this language. Whether a header is one of a category or of an action is
told by its column alone, so two spaces on a tab stop can be written as a tab.
-/

namespace ActionEngine.Config

open ActionEngine.Text

/-! ### The language of headers -/

/-- A key: letters and digits of ASCII, underscores and hyphens, and at least one of them. -/
structure IsKey (key : Line) : Prop where
  filled : key ≠ []
  plain : ∀ c ∈ key, ('A' ≤ c ∧ c ≤ 'Z') ∨ ('a' ≤ c ∧ c ≤ 'z') ∨ ('0' ≤ c ∧ c ≤ '9') ∨
    c = '_' ∨ c = '-'

/-- What may stand behind the colon of a header. -/
inductive EndsHeader : Line → Prop
  | blank {blanks : Line} (blank : ∀ c ∈ blanks, isBlank c = true) : EndsHeader blanks
  | comment {blanks : Line} (blank : ∀ c ∈ blanks, isBlank c = true) (apart : blanks ≠ [])
      (comment : Line) : EndsHeader (blanks ++ '#' :: comment)

def IsHeader (key rest : Line) : Prop :=
  IsKey key ∧ ∃ tail, EndsHeader tail ∧ rest = key ++ ':' :: tail

theorem isKeyChar_iff {c : Char} : isKeyChar c = true ↔
    ('A' ≤ c ∧ c ≤ 'Z') ∨ ('a' ≤ c ∧ c ≤ 'z') ∨ ('0' ≤ c ∧ c ≤ '9') ∨ c = '_' ∨ c = '-' := by
  delta isKeyChar isWordChar Char.isAlphanum Char.isAlpha Char.isUpper Char.isLower
  simp only [Char.isDigit, Bool.or_eq_true, Bool.and_eq_true, decide_eq_true_eq, beq_iff_eq,
    or_assoc]
  rfl

theorem isKey_iff {key : Line} : IsKey key ↔ key ≠ [] ∧ ∀ c ∈ key, isKeyChar c = true := by
  simp only [isKeyChar_iff]
  exact ⟨fun h => ⟨h.filled, h.plain⟩, fun h => ⟨h.1, h.2⟩⟩

theorem IsKey.solid {key : Line} (h : IsKey key) : ∀ c ∈ key ++ [':'], isBlank c = false := by
  intro c hc
  rcases List.mem_append.1 hc with hc | hc
  · exact isBlank_of_isKeyChar ((isKey_iff.1 h).2 c hc)
  · rw [List.mem_singleton.1 hc]
    rfl

/-! ### Cutting off the comment -/

variable {blanks : Line}

theorem opensComment_append (blank : ∀ c ∈ blanks, isBlank c = true) (s : Line) :
    opensComment (blanks ++ s) = opensComment s := by
  unfold opensComment
  rw [List.dropWhile_append_of_pos blank]

theorem dropComment_blank (blank : ∀ c ∈ blanks, isBlank c = true) :
    dropComment blanks = blanks := by
  induction blanks with
  | nil => rfl
  | cons c blanks ih =>
      have rest : ∀ c ∈ blanks, isBlank c = true := fun d hd => blank d (List.mem_cons_of_mem _ hd)
      have closed := opensComment_append rest []
      rw [List.append_nil] at closed
      rw [dropComment, closed, ih rest]
      exact if_neg (by simp [opensComment])

theorem dropComment_comment (blank : ∀ c ∈ blanks, isBlank c = true) (apart : blanks ≠ [])
    (comment : Line) : dropComment (blanks ++ '#' :: comment) = [] := by
  cases blanks with
  | nil => exact absurd rfl apart
  | cons c blanks =>
      have rest : ∀ c ∈ blanks, isBlank c = true := fun d hd => blank d (List.mem_cons_of_mem _ hd)
      rw [List.cons_append, dropComment, opensComment_append rest, blank c List.mem_cons_self]
      rfl

/-- What is cut off, if anything, is a comment with the blanks in front of it. -/
theorem dropComment_eq (s : Line) : dropComment s = s ∨
    ∃ blanks comment, (∀ c ∈ blanks, isBlank c = true) ∧ blanks ≠ [] ∧
      s = dropComment s ++ (blanks ++ '#' :: comment) := by
  induction s with
  | nil => exact .inl rfl
  | cons c s ih =>
      rw [dropComment]
      split
      · next opens =>
        rw [Bool.and_eq_true, opensComment, beq_iff_eq, List.head?_eq_some_iff] at opens
        obtain ⟨blank, comment, behind⟩ := opens
        refine .inr ⟨c :: s.takeWhile isBlank, comment, ?_, by simp, ?_⟩
        · intro d hd
          rcases List.mem_cons.1 hd with rfl | hd
          · exact blank
          · exact List.mem_takeWhile_imp hd
        · rw [List.nil_append, List.cons_append, ← behind, List.takeWhile_append_dropWhile]
      · rcases ih with kept | ⟨blanks, comment, blank, apart, cut⟩
        · exact .inl (congrArg _ kept)
        · refine .inr ⟨blanks, comment, blank, apart, ?_⟩
          rw [List.cons_append, ← cut]

/-- A header is what is one when its comment has been cut off. -/
theorem header?_dropComment_eq_some_iff {s key : Line} :
    header? (dropComment s) = some key ↔ IsHeader key s := by
  rw [header?_eq_some_iff, ← isKey_iff]
  constructor
  · rintro ⟨isKey, blanks, blank, left⟩
    rw [allBlank, List.all_eq_true] at blank
    refine ⟨isKey, ?_⟩
    rcases dropComment_eq s with kept | ⟨gap, comment, blank', apart, cut⟩
    · exact ⟨blanks, .blank blank, by rw [← kept, left]⟩
    · rw [left] at cut
      refine ⟨blanks ++ gap ++ '#' :: comment, .comment ?_ (by simp [apart]) comment, ?_⟩
      · intro c hc
        exact (List.mem_append.1 hc).elim (blank c) (blank' c)
      · simpa using cut
  · rintro ⟨isKey, tail, ends, rfl⟩
    refine ⟨isKey, dropComment tail, ?_, ?_⟩
    · cases ends with
      | blank blank =>
          rw [dropComment_blank blank]
          exact List.all_eq_true.2 blank
      | comment blank apart comment =>
          rw [dropComment_comment blank apart]
          rfl
    · have front := dropComment_append isKey.solid tail
      simpa using front

/-! ### Blanks at the end -/

theorem EndsHeader.append {tail gap : Line} (ends : EndsHeader tail)
    (blank : ∀ c ∈ gap, isBlank c = true) : EndsHeader (tail ++ gap) := by
  cases ends with
  | blank blank' =>
      refine .blank fun c hc => ?_
      exact (List.mem_append.1 hc).elim (blank' c) (blank c)
  | comment blank' apart comment =>
      rw [List.append_assoc]
      exact .comment blank' apart (comment ++ gap)

theorem EndsHeader.trimRight {tail : Line} (ends : EndsHeader tail) :
    EndsHeader (trimRight tail) := by
  cases ends with
  | blank blank =>
      rw [trimRight_eq_nil_iff.2 (List.all_eq_true.2 blank)]
      exact .blank (by simp)
  | comment blank apart comment =>
      rw [trimRight_append (by simp [allBlank, show isBlank '#' = false from rfl]),
        trimRight_cons rfl]
      exact .comment blank apart _

theorem trimRight_key {key : Line} (tail : Line) :
    Text.trimRight (key ++ ':' :: tail) = key ++ ':' :: Text.trimRight tail := by
  rw [trimRight_append (by simp [allBlank, show isBlank ':' = false from rfl]), trimRight_cons rfl]

/-- Blanks at the end of a line do not matter. -/
theorem isHeader_trimRight_iff {key rest : Line} :
    IsHeader key (trimRight rest) ↔ IsHeader key rest := by
  constructor
  · rintro ⟨isKey, tail, ends, left⟩
    have cut := List.rdropWhile_append_rtakeWhile (p := isBlank) (l := rest)
    rw [← trimRight_eq_rdropWhile, left, List.append_assoc, List.cons_append] at cut
    exact ⟨isKey, _, ends.append fun c hc => List.mem_rtakeWhile_imp hc, cut.symm⟩
  · rintro ⟨isKey, tail, ends, rfl⟩
    exact ⟨isKey, Text.trimRight tail, ends.trimRight, trimRight_key tail⟩

theorem IsHeader.not_blank {key rest : Line} (header : IsHeader key rest) :
    allBlank rest = false := by
  obtain ⟨-, tail, -, rfl⟩ := header
  simp [allBlank, show isBlank ':' = false from rfl]

/-! ### The column -/

/-- The column that a run of spaces and tabs reaches from a column: a tab goes on to the next
    multiple of two. -/
inductive Reaches : Nat → Line → Nat → Prop
  | here (column : Nat) : Reaches column [] column
  | space {column stop : Nat} {run : Line} (later : Reaches (column + 1) run stop) :
      Reaches column (' ' :: run) stop
  | tab {column next stop : Nat} {run : Line} (whole : 2 ∣ next)
      (near : column < next ∧ next ≤ column + 2) (later : Reaches next run stop) :
      Reaches column ('\t' :: run) stop

theorem reaches_iff {column stop : Nat} {run : Line} : Reaches column run stop ↔
    (∀ c ∈ run, isIndentation c = true) ∧ run.foldl advance column = stop := by
  constructor
  · intro reaches
    induction reaches with
    | here => exact ⟨by simp, rfl⟩
    | space later ih => exact ⟨List.forall_mem_cons.2 ⟨rfl, ih.1⟩, ih.2⟩
    | @tab column next stop run whole near later ih =>
        have step : advance column '\t' = next := by
          simp only [advance, tabStop, beq_self_eq_true, if_true]
          omega
        exact ⟨List.forall_mem_cons.2 ⟨rfl, ih.1⟩, by rw [List.foldl_cons, step, ih.2]⟩
  · rintro ⟨inside, rfl⟩
    induction run generalizing column with
    | nil => exact .here column
    | cons c run ih =>
        obtain ⟨here, later⟩ := List.forall_mem_cons.1 inside
        simp only [isIndentation, Bool.or_eq_true, beq_iff_eq] at here
        rcases here with rfl | rfl
        · exact .space (ih later)
        · refine .tab ?_ ?_ (ih later)
          · simp only [advance, tabStop, beq_self_eq_true, if_true]
            omega
          · simp only [advance, tabStop, beq_self_eq_true, if_true]
            omega

/-- The parts of a line: a run of spaces and tabs, the column that it reaches, and the rest,
    which starts with neither. -/
structure Splits (line run rest : Line) (column : Nat) : Prop where
  cut : line = run ++ rest
  reaches : Reaches 0 run column
  ended : ∀ c ∈ rest.head?, c ≠ ' ' ∧ c ≠ '\t'

theorem splits (line : Line) : Splits line (line.takeWhile isIndentation)
    (line.dropWhile isIndentation) (columnOf (line.takeWhile isIndentation)) where
  cut := List.takeWhile_append_dropWhile.symm
  reaches := reaches_iff.2 ⟨fun _ hc => List.mem_takeWhile_imp hc, rfl⟩
  ended c hc := by
    have other := List.head?_dropWhile_not isIndentation line
    rw [Option.mem_def.1 hc] at other
    simpa [isIndentation] using other

/-! ### Lines and their tokens -/

theorem category_iff {n : Nat} {line key : Line} :
    (Token.ofLine n line).shape = .category key ↔
      (Token.ofLine n line).indent = 0 ∧ IsHeader key (line.dropWhile isIndentation) := by
  constructor
  · intro h
    cases hasShape_of_ofLine h Shape.noConfusion with
    | category header placed =>
        exact ⟨placed, isHeader_trimRight_iff.1 (header?_dropComment_eq_some_iff.1 header)⟩
  · rintro ⟨placed, header⟩
    have filled : allBlank line = false := allBlank_body line ▸ header.not_blank
    rw [ofLine_of_not_allBlank n filled] at placed ⊢
    refine shapeAt_of_header
      (header?_dropComment_eq_some_iff.2 (isHeader_trimRight_iff.2 header)) ?_
    exact if_pos (by simpa using placed)

theorem action_iff {n : Nat} {line key : Line} :
    (Token.ofLine n line).shape = .action key ↔
      ((Token.ofLine n line).indent = 2 ∨ (Token.ofLine n line).indent = 3) ∧
        IsHeader key (line.dropWhile isIndentation) := by
  constructor
  · intro h
    cases hasShape_of_ofLine h Shape.noConfusion with
    | action header placed =>
        obtain ⟨low, high⟩ := placed
        unfold actionColumn at low
        unfold propertyColumn at high
        exact ⟨by omega, isHeader_trimRight_iff.1 (header?_dropComment_eq_some_iff.1 header)⟩
  · rintro ⟨placed, header⟩
    have filled : allBlank line = false := allBlank_body line ▸ header.not_blank
    rw [ofLine_of_not_allBlank n filled] at placed ⊢
    refine shapeAt_of_header
      (header?_dropComment_eq_some_iff.2 (isHeader_trimRight_iff.2 header)) ?_
    rcases placed with placed | placed <;> dsimp only at placed <;> rw [placed] <;> rfl

/-- A token says what its line is: how far the line is indented, and whether it is a header of a
    category or of an action. -/
def Classifies (line : Line) (t : Token) : Prop :=
  ∃ run rest column, Splits line run rest column ∧
    ((∀ c ∈ line, isBlank c = true) → t.indent = 0) ∧
    ((∃ c ∈ line, isBlank c = false) → t.indent = column) ∧
    (∀ key, t.shape = .category key ↔ t.indent = 0 ∧ IsHeader key rest) ∧
    ∀ key, t.shape = .action key ↔ (t.indent = 2 ∨ t.indent = 3) ∧ IsHeader key rest

theorem classifies_ofLine (n : Nat) (line : Line) : Classifies line (Token.ofLine n line) := by
  refine ⟨_, _, _, splits line, fun blank => ?_, fun filled => ?_, fun key => category_iff,
    fun key => action_iff⟩
  · rw [ofLine_of_allBlank n (List.all_eq_true.2 blank)]
  · have filled : allBlank line = false := List.all_eq_false.2 (by simpa using filled)
    rw [ofLine_of_not_allBlank n filled]

theorem classifies_ofLinesFrom (n : Nat) (rows : List Line) :
    List.Forall₂ Classifies rows (Token.ofLinesFrom n rows) := by
  induction rows generalizing n with
  | nil => exact .nil
  | cons line rows ih => exact .cons (classifies_ofLine n line) (ih (n + 1))

theorem number_ofLine (n : Nat) (line : Line) : (Token.ofLine n line).number = n := by
  unfold Token.ofLine
  split <;> rfl

theorem numbers_ofLinesFrom (n : Nat) (rows : List Line) :
    (Token.ofLinesFrom n rows).map Token.number = List.range' n rows.length := by
  induction rows generalizing n with
  | nil => rfl
  | cons line rows ih =>
      rw [Token.ofLinesFrom, List.map_cons, ih, number_ofLine]
      rfl

/-! ### Tabs for spaces -/

/-- Lines that reach the same column and go on in the same way give the same token. -/
theorem ofLine_congr (n : Nat) {run run' : Line} (inside : ∀ c ∈ run, isIndentation c = true)
    (inside' : ∀ c ∈ run', isIndentation c = true)
    (same : run.foldl advance 0 = run'.foldl advance 0) (body : Line) :
    Token.ofLine n (run ++ body) = Token.ofLine n (run' ++ body) := by
  have front (run : Line) (inside : ∀ c ∈ run, isIndentation c = true) :
      columnOf ((run ++ body).takeWhile isIndentation) =
        (body.takeWhile isIndentation).foldl advance (run.foldl advance 0) := by
    rw [List.takeWhile_append_of_pos inside, columnOf, List.foldl_append]
  unfold Token.ofLine
  rw [front run inside, front run' inside', same, List.dropWhile_append_of_pos inside,
    List.dropWhile_append_of_pos inside']

/-- The place behind a text is the start of a line: nothing stands there yet but a byte order
    mark, or the last line was ended. -/
def AtLineStart (front : List Char) : Prop :=
  dropMark front = [] ∨ ∃ c, front.getLast? = some c ∧ isBoundary c = true

theorem AtLineStart.closed {front : List Char} (start : AtLineStart front) :
    dropMark front = [] ∨ ∃ c, (dropMark front).getLast? = some c ∧ isBoundary c = true := by
  rcases start with empty | ⟨c, last, boundary⟩
  · exact .inl empty
  · unfold dropMark
    split
    · next rest =>
      cases rest with
      | nil => exact .inl rfl
      | cons d rest => exact .inr ⟨c, by simpa using last, boundary⟩
    · exact .inr ⟨c, last, boundary⟩

theorem ofLinesFrom_append (n : Nat) (rows more : List Line) : Token.ofLinesFrom n (rows ++ more) =
    Token.ofLinesFrom n rows ++ Token.ofLinesFrom (n + rows.length) more := by
  induction rows generalizing n with
  | nil => rfl
  | cons row rows ih =>
      rw [List.cons_append, Token.ofLinesFrom, ih, Token.ofLinesFrom, List.length_cons,
        List.cons_append, Nat.add_right_comm, Nat.add_assoc]

/-- Two spaces on a tab stop in front of a line can be written as a tab. -/
theorem tokens_tab {front run : List Char} {column : Nat} (start : AtLineStart front)
    (reaches : Reaches 0 run column) (whole : 2 ∣ column) (back : List Char) :
    tokens (front ++ run ++ '\t' :: back) = tokens (front ++ run ++ ' ' :: ' ' :: back) := by
  obtain ⟨inside, stop⟩ := reaches_iff.1 reaches
  obtain ⟨first, others, put⟩ := lines_prefix back
  -- Whatever the indentation is, it goes to the line that starts behind the front.
  have cut (more : Line) (filled : more ≠ []) (inside : ∀ c ∈ more, isIndentation c = true) :
      tokens (front ++ (more ++ back)) = Token.ofLinesFrom 1 (lines (dropMark front)) ++
        Token.ofLinesFrom (1 + (lines (dropMark front)).length) ((more ++ first) :: others) := by
    have plain (c : Char) (other : isIndentation c = false) : (more ++ back).head? ≠ some c := by
      cases more with
      | nil => exact absurd rfl filled
      | cons d more =>
          rintro ⟨⟩
          rw [inside c (by simp)] at other
          cases other
    have line : IsLine more := by
      intro c hc
      have := inside c hc
      simp only [isIndentation, Bool.or_eq_true, beq_iff_eq] at this
      rcases this with rfl | rfl <;> rfl
    unfold tokens
    rw [dropMark_append front (plain _ rfl), lines_append start.closed (plain _ rfl),
      put more line filled, ofLinesFrom_append]
  have tabbed := cut (run ++ ['\t']) (by simp)
    (by simpa [or_imp, forall_and, isIndentation] using inside)
  have spaced := cut (run ++ [' ', ' ']) (by simp)
    (by simpa [or_imp, forall_and, isIndentation] using inside)
  have same : (run ++ ['\t']).foldl advance 0 = (run ++ [' ', ' ']).foldl advance 0 := by
    rw [List.foldl_append, List.foldl_append, stop]
    simp only [List.foldl_cons, List.foldl_nil, advance, tabStop, beq_self_eq_true, if_true]
    rw [if_neg (by decide), if_neg (by decide)]
    omega
  have token := ofLine_congr (1 + (lines (dropMark front)).length)
    (by simpa [or_imp, forall_and, isIndentation] using inside)
    (by simpa [or_imp, forall_and, isIndentation] using inside) same first
  rw [Token.ofLinesFrom, token, ← Token.ofLinesFrom, ← spaced] at tabbed
  simpa using tabbed

/-- Every line of a text, without the byte order mark it may start with, gives one token, and the
    tokens are numbered from 1. A token is indented as far as the leading run of spaces and tabs
    of its line reaches, unless the line is blank; and it is the header of a category at column 0,
    or of an action at column 2 or 3, exactly if the rest of its line is a key, a colon, and
    blanks or a comment behind blanks. This is the language that is matched when the comment has
    been cut off. A tab in place of two leading spaces on a tab stop changes no token. -/
theorem lines_give_tokens (text : List Char) :
    (tokens text).map Token.number = List.range' 1 (lines (dropMark text)).length ∧
    List.Forall₂ Classifies (lines (dropMark text)) (tokens text) ∧
    (∀ key rest, header? (dropComment (trimRight rest)) = some key ↔ IsHeader key rest) ∧
    ∀ front run back column, AtLineStart front → Reaches 0 run column → 2 ∣ column →
      text = front ++ run ++ ' ' :: ' ' :: back →
        tokens (front ++ run ++ '\t' :: back) = tokens text := by
  refine ⟨numbers_ofLinesFrom 1 _, classifies_ofLinesFrom 1 _, fun key rest => ?_, ?_⟩
  · exact header?_dropComment_eq_some_iff.trans isHeader_trimRight_iff
  · rintro front run back column start reaches whole rfl
    exact tokens_tab start reaches whole back

end ActionEngine.Config
