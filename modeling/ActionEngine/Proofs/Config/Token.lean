import ActionEngine.Config.Printer
import ActionEngine.Proofs.Config.Prompt
import Mathlib.Data.List.TakeDrop

/-!
# What printed rows look like

A row that was printed is classified as what it was meant to be: a header, a property
with its value, a comment, or a row of a prompt. Rows of a prompt stand behind the
property column, so that none of them ends the block.
-/

namespace ActionEngine.Config

open ActionEngine.Text

/-! ### Shapes -/

/-- The shapes that a line with something on it can have, with what each of them needs. -/
inductive HasShape (indent : Nat) (body : Line) : Shape → Prop
  | comment : HasShape indent body .comment
  | category {key : Line} (header : header? (dropComment body) = some key)
      (placed : indent = 0) : HasShape indent body (.category key)
  | action {key : Line} (header : header? (dropComment body) = some key)
      (placed : actionColumn ≤ indent ∧ indent < propertyColumn) :
      HasShape indent body (.action key)
  | property {key value : Line} (split : property? body = some (key, value))
      (placed : propertyColumn ≤ indent) : HasShape indent body (.property key value)
  | text : HasShape indent body .text

theorem hasShape_of_headerAt? {indent : Nat} {body : Line} {shape : Shape}
    (h : headerAt? indent body = some shape) : HasShape indent body shape := by
  unfold headerAt? at h
  obtain ⟨key, header, h⟩ := Option.bind_eq_some_iff.1 h
  split at h
  · cases h
    exact .category header (by simpa using ‹(indent == 0) = true›)
  · split at h
    · cases h
      exact .action header (by simpa using ‹(decide _ && decide _) = true›)
    · cases h

theorem hasShape_of_propertyAt? {indent : Nat} {body : Line} {shape : Shape}
    (h : propertyAt? indent body = some shape) : HasShape indent body shape := by
  unfold propertyAt? at h
  split at h
  · obtain ⟨⟨key, value⟩, split, rfl⟩ := Option.map_eq_some_iff.1 h
    exact .property split ‹_›
  · cases h

theorem shapeAt_hasShape (indent : Nat) (body : Line) :
    HasShape indent body (shapeAt indent body) := by
  unfold shapeAt
  split
  · exact .comment
  · cases header : headerAt? indent body with
    | some shape => exact hasShape_of_headerAt? header
    | none =>
        cases property : propertyAt? indent body with
        | some shape => exact hasShape_of_propertyAt? property
        | none => exact .text

theorem shapeAt_ne_blank (indent : Nat) (body : Line) : shapeAt indent body ≠ .blank := by
  intro h
  have := shapeAt_hasShape indent body
  rw [h] at this
  cases this

/-! ### Classifying a row -/

theorem ofLine_of_allBlank (n : Nat) {raw : Line} (h : allBlank raw = true) :
    Token.ofLine n raw = ⟨n, 0, [], .blank⟩ := by
  have body : trimRight (raw.dropWhile isIndentation) = [] := by
    rw [trimRight_eq_nil_iff, allBlank_body, h]
  unfold Token.ofLine
  rw [body]

theorem ofLine_of_not_allBlank (n : Nat) {raw : Line} (h : allBlank raw = false) :
    Token.ofLine n raw =
      ⟨n, columnOf (raw.takeWhile isIndentation), normalRow raw,
        shapeAt (columnOf (raw.takeWhile isIndentation))
          (trimRight (raw.dropWhile isIndentation))⟩ := by
  rw [normalRow_of_not_allBlank h]
  unfold Token.ofLine
  split
  · rename_i body
    rw [trimRight_eq_nil_iff, allBlank_body, h] at body
    cases body
  · rfl

/-- A row with something on it has the shape of that at its column. -/
theorem hasShape_of_ofLine {n : Nat} {raw : Line} {shape : Shape}
    (h : (Token.ofLine n raw).shape = shape) (filled : shape ≠ .blank) :
    HasShape (Token.ofLine n raw).indent (trimRight (raw.dropWhile isIndentation)) shape := by
  subst h
  cases blank : allBlank raw with
  | true =>
      rw [ofLine_of_allBlank n blank] at filled
      exact absurd rfl filled
  | false =>
      rw [ofLine_of_not_allBlank n blank]
      exact shapeAt_hasShape _ _

theorem takeWhile_trimRight {raw : Line} (h : allBlank raw = false) :
    (trimRight raw).takeWhile isIndentation = raw.takeWhile isIndentation ∧
      (trimRight raw).dropWhile isIndentation = trimRight (raw.dropWhile isIndentation) := by
  have split : trimRight raw =
      raw.takeWhile isIndentation ++ trimRight (raw.dropWhile isIndentation) := by
    conv_lhs => rw [← List.takeWhile_append_dropWhile (p := isIndentation) (l := raw)]
    rw [trimRight_append (by rw [allBlank_body, h])]
  have inside : ∀ c ∈ raw.takeWhile isIndentation, isIndentation c = true :=
    fun c hc => List.mem_takeWhile_imp hc
  rw [split, List.takeWhile_append_of_pos inside, List.dropWhile_append_of_pos inside,
    takeWhile_body, dropWhile_body, List.append_nil]
  exact ⟨rfl, rfl⟩

/-- Blanks at the end of a row make no difference. -/
theorem ofLine_trimRight (n : Nat) (raw : Line) :
    Token.ofLine n (trimRight raw) = Token.ofLine n raw := by
  cases blank : allBlank raw with
  | true =>
      rw [ofLine_of_allBlank n blank, ofLine_of_allBlank n (by rw [allBlank_trimRight, blank])]
  | false =>
      obtain ⟨front, body⟩ := takeWhile_trimRight blank
      have same : normalRow (trimRight raw) = normalRow raw := by
        rw [normalRow_of_not_allBlank blank,
          normalRow_of_not_allBlank (by rw [allBlank_trimRight, blank]), front, body,
          trimRight_trimRight]
      rw [ofLine_of_not_allBlank n blank,
        ofLine_of_not_allBlank n (by rw [allBlank_trimRight, blank]), front, body,
        trimRight_trimRight, same]

theorem allBlank_atColumn (column : Nat) (row : Line) :
    allBlank (atColumn column row) = allBlank row := by
  unfold atColumn
  rw [allBlank_append, allBlank_spaces, Bool.true_and]

/-- A row that is moved to a tab stop keeps its own indentation behind it. -/
theorem ofLine_atColumn (n : Nat) {column : Nat} (whole : tabStop ∣ column) {row : Line}
    (h : allBlank row = false) :
    Token.ofLine n (atColumn column row) =
      ⟨n, column + columnOf (row.takeWhile isIndentation), atColumn column (normalRow row),
        shapeAt (column + columnOf (row.takeWhile isIndentation))
          (trimRight (row.dropWhile isIndentation))⟩ := by
  have inside : ∀ c ∈ List.replicate column ' ', isIndentation c = true :=
    fun c hc => isIndentation_of_mem_spaces hc
  have moved : allBlank (atColumn column row) = false := by rw [allBlank_atColumn, h]
  have front : columnOf ((atColumn column row).takeWhile isIndentation) =
      column + columnOf (row.takeWhile isIndentation) := by
    unfold atColumn
    rw [List.takeWhile_append_of_pos inside, columnOf_spaces_append whole]
  have body : (atColumn column row).dropWhile isIndentation = row.dropWhile isIndentation :=
    List.dropWhile_append_of_pos inside
  rw [ofLine_of_not_allBlank n moved, normalRow_of_not_allBlank moved, front, body,
    normalRow_of_not_allBlank h]
  unfold atColumn
  rw [← List.append_assoc, List.replicate_append_replicate]

/-- A row without blanks at its ends stands where it was put. -/
theorem ofLine_tight (n : Nat) {column : Nat} (whole : tabStop ∣ column) {body : Line}
    (tight : Tight body) (hne : body ≠ []) :
    Token.ofLine n (atColumn column body) =
      ⟨n, column, atColumn column body, shapeAt column body⟩ := by
  have front : body.takeWhile isIndentation = [] := by
    cases body with
    | nil => rfl
    | cons c rest =>
        refine List.takeWhile_cons_of_neg ?_
        intro hc
        have := tight.first c rfl
        rw [isBlank_of_isIndentation hc] at this
        cases this
  have behind : body.dropWhile isIndentation = body := by
    have h := List.takeWhile_append_dropWhile (p := isIndentation) (l := body)
    rwa [front, List.nil_append] at h
  have blank := tight.allBlank_eq_false hne
  rw [ofLine_atColumn n whole blank, normalRow_of_not_allBlank blank, front, behind,
    tight.trimRight_eq]
  rfl

/-! ### The byte order mark -/

theorem dropMark_eq {s : List Char} (h : s.head? ≠ some '\ufeff') : dropMark s = s := by
  unfold dropMark
  split
  · exact absurd rfl h
  · rfl

/-- Only the mark in front of a text is dropped. -/
theorem dropMark_append (s : List Char) {t : List Char} (h : t.head? ≠ some '\ufeff') :
    dropMark (s ++ t) = dropMark s ++ t := by
  by_cases mark : s.head? = some '\ufeff'
  · obtain ⟨rest, rfl⟩ := List.head?_eq_some_iff.1 mark
    rfl
  · have mark' : (s ++ t).head? ≠ some '\ufeff' := by
      cases s with
      | nil => exact h
      | cons c rest => exact mark
    rw [dropMark_eq mark, dropMark_eq mark']

/-! ### Headers -/

theorem isBlank_of_isKeyChar {c : Char} (h : isKeyChar c = true) : isBlank c = false := by
  have range : (48 ≤ c.toNat ∧ c.toNat ≤ 57) ∨ (65 ≤ c.toNat ∧ c.toNat ≤ 90) ∨
      (97 ≤ c.toNat ∧ c.toNat ≤ 122) ∨ c.toNat = 95 ∨ c.toNat = 45 := by
    delta isKeyChar isWordChar Char.isAlphanum Char.isAlpha Char.isUpper Char.isLower at h
    simp only [Char.isDigit, Bool.or_eq_true, Bool.and_eq_true, decide_eq_true_eq, beq_iff_eq,
      ge_iff_le, UInt32.le_iff_toNat_le] at h
    rcases h with (((upper | lower) | digit) | rfl) | rfl
    · exact .inr (.inl upper)
    · exact .inr (.inr (.inl lower))
    · exact .inl digit
    · exact .inr (.inr (.inr (.inl rfl)))
    · exact .inr (.inr (.inr (.inr rfl)))
  simp only [isBlank, inRanges, blankRanges, List.any_cons, List.any_nil, Bool.or_false,
    Bool.or_eq_false_iff, Bool.and_eq_false_iff, decide_eq_false_iff_not]
  omega

/-- No comment starts in front of the first blank. -/
theorem dropComment_append {front : Line} (solid : ∀ c ∈ front, isBlank c = false) (s : Line) :
    dropComment (front ++ s) = front ++ dropComment s := by
  induction front with
  | nil => rfl
  | cons c front ih =>
      have hc := solid c (by simp)
      rw [List.cons_append, dropComment, ih fun d hd => solid d (List.mem_cons_of_mem _ hd), hc]
      rfl

theorem span_key {p : Char → Bool} {key rest : Line} (hkey : ∀ c ∈ key, p c = true)
    (hcolon : p ':' = false) : (key ++ ':' :: rest).span p = (key, ':' :: rest) := by
  rw [List.span_eq_takeWhile_dropWhile, List.takeWhile_append_of_pos hkey,
    List.dropWhile_append_of_pos hkey, List.takeWhile_cons_of_neg (by simp [hcolon]),
    List.dropWhile_cons_of_neg (by simp [hcolon]), List.append_nil]

/-- A header is a key and a colon with nothing but blanks behind them. -/
theorem header?_eq_some_iff {s key : Line} : header? s = some key ↔
    (key ≠ [] ∧ ∀ c ∈ key, isKeyChar c = true) ∧
      ∃ blanks, allBlank blanks = true ∧ s = key ++ ':' :: blanks := by
  constructor
  · intro h
    unfold header? at h
    rw [List.span_eq_takeWhile_dropWhile] at h
    have cut := List.takeWhile_append_dropWhile (p := isKeyChar) (l := s)
    have inside : ∀ c ∈ s.takeWhile isKeyChar, isKeyChar c = true :=
      fun c hc => List.mem_takeWhile_imp hc
    split at h
    · cases h
    · next blanks filled split =>
      obtain ⟨front, behind⟩ := Prod.mk.inj split
      split at h
      · next blank =>
        cases h
        rw [front] at inside
        rw [front, behind] at cut
        exact ⟨⟨filled, inside⟩, blanks, blank, cut.symm⟩
      · cases h
    · cases h
  · rintro ⟨⟨filled, inside⟩, blanks, blank, rfl⟩
    unfold header?
    rw [span_key inside rfl]
    cases key with
    | nil => exact absurd rfl filled
    | cons c key => exact if_pos blank

theorem header?_key {key : Line} (hkey : ∀ c ∈ key, isKeyChar c = true) (hne : key ≠ []) :
    header? (dropComment (key ++ [':'])) = some key := by
  have solid : ∀ c ∈ key ++ [':'], isBlank c = false := by
    intro c hc
    rcases List.mem_append.1 hc with hc | hc
    · exact isBlank_of_isKeyChar (hkey c hc)
    · rw [List.mem_singleton.1 hc]
      rfl
  have kept : dropComment (key ++ [':']) = key ++ [':'] := by
    simpa [dropComment] using dropComment_append solid []
  rw [kept]
  exact header?_eq_some_iff.2 ⟨⟨hne, hkey⟩, [], rfl, rfl⟩

/-- What is a header without its comment is no comment itself, so its column tells its shape. -/
theorem shapeAt_of_header {indent : Nat} {body key : Line}
    (header : header? (dropComment body) = some key) {shape : Shape}
    (placed : (if indent == 0 then some (.category key)
      else if actionColumn ≤ indent && indent < propertyColumn then some (.action key)
      else none) = some shape) : shapeAt indent body = shape := by
  have noComment : body.head? ≠ some '#' := by
    intro first
    obtain ⟨rest, rfl⟩ := List.head?_eq_some_iff.1 first
    cases header
  unfold shapeAt headerAt?
  rw [header, Option.bind_some, placed, if_neg (by simpa using noComment)]
  rfl

/-- A key and a colon make a header, of a category or of an action by their column. -/
theorem ofLine_header (n : Nat) {column : Nat} (whole : tabStop ∣ column) {key : Line}
    (hkey : ∀ c ∈ key, isKeyChar c = true) (hne : key ≠ []) {shape : Shape}
    (placed : (if column == 0 then some (.category key)
      else if actionColumn ≤ column && column < propertyColumn then some (.action key)
      else none) = some shape) :
    Token.ofLine n (atColumn column (key ++ [':'])) =
      ⟨n, column, atColumn column (key ++ [':']), shape⟩ := by
  have hshape := shapeAt_of_header (header?_key hkey hne) placed
  cases key with
  | nil => exact absurd rfl hne
  | cons c key =>
      have hc := hkey c (by simp)
      rw [ofLine_tight n whole (.between (isBlank_of_isKeyChar hc) rfl key) (by simp), hshape]

/-! ### Properties -/

def isPropertyKey : Line → Bool
  | [] => false
  | c :: key => !c.isDigit && (c :: key).all isWordChar

theorem isKeyChar_of_isWordChar {c : Char} (h : isWordChar c = true) : isKeyChar c = true := by
  unfold isKeyChar
  rw [h]
  rfl

theorem property?_key {key value : Line} (hkey : isPropertyKey key = true)
    (tight : Tight value) : property? (key ++ ':' :: ' ' :: value) = some (key, value) := by
  cases key with
  | nil => cases hkey
  | cons c key =>
      simp only [isPropertyKey, Bool.and_eq_true, Bool.not_eq_true', List.all_eq_true] at hkey
      have trimmed : trim (' ' :: value) = value := tight.trim_eq
      unfold property?
      rw [span_key hkey.2 rfl]
      simp only [hkey.1, trimmed]
      rfl

/-- A property stands at the property column with its value. -/
theorem ofLine_propertyRow (n : Nat) {key : String} {value : Line}
    (hkey : isPropertyKey key.toList = true) (tight : Tight value) (hne : value ≠ []) :
    Token.ofLine n (propertyRow key value) =
      ⟨n, propertyColumn, propertyRow key value, .property key.toList value⟩ := by
  have property := property?_key hkey tight
  unfold propertyRow
  generalize key.toList = key at hkey property
  cases key with
  | nil => cases hkey
  | cons c key =>
      simp only [isPropertyKey, Bool.and_eq_true, Bool.not_eq_true', List.all_eq_true] at hkey
      have hc : isKeyChar c = true := isKeyChar_of_isWordChar (hkey.2 c (by simp))
      have noComment : c ≠ '#' := by
        rintro rfl
        cases hc
      have body : Tight (c :: key ++ ':' :: ' ' :: value) := by
        refine ⟨?_, ?_⟩
        · intro d hd
          cases hd
          exact isBlank_of_isKeyChar hc
        · intro d hd
          have last := List.getLast?_eq_some_getLast hne
          refine tight.last d ?_
          rw [← hd]
          simp [List.getLast?_append, List.getLast?_cons, last]
      have noHeader : headerAt? propertyColumn (c :: key ++ ':' :: ' ' :: value) = none := by
        unfold headerAt?
        cases header? (dropComment (c :: key ++ ':' :: ' ' :: value)) <;> rfl
      have hshape : shapeAt propertyColumn (c :: key ++ ':' :: ' ' :: value) =
          .property (c :: key) value := by
        unfold shapeAt propertyAt?
        rw [noHeader, property, if_neg (by simpa using noComment)]
        rfl
      rw [ofLine_tight n (by decide) body (by simp), hshape]

/-! ### Comments and prompts -/

theorem ofLine_comment (n : Nat) (row : Line) :
    (Token.ofLine n (trimRight ('#' :: ' ' :: row))).shape = .comment := by
  have blank : allBlank ('#' :: ' ' :: row) = false := rfl
  have body : ('#' :: ' ' :: row).dropWhile isIndentation = '#' :: ' ' :: row := rfl
  rw [ofLine_trimRight, ofLine_of_not_allBlank n blank, body, trimRight_cons rfl]
  rfl

/-- Whatever stands on a row of a prompt, it is content of the block. -/
theorem ofLine_promptRow (n : Nat) {row : Line} (h : allBlank row = false) :
    (Token.ofLine n (promptRow row)).shape ≠ .blank ∧
      propertyColumn ≤ (Token.ofLine n (promptRow row)).indent ∧
      (Token.ofLine n (promptRow row)).line = atColumn (propertyColumn + 2) (normalRow row) := by
  unfold promptRow
  rw [if_neg (by simp [h]), ofLine_trimRight, ofLine_atColumn n (by decide) h]
  refine ⟨shapeAt_ne_blank _ _, ?_, rfl⟩
  dsimp only
  unfold propertyColumn
  omega

theorem ofLine_promptRow_of_allBlank (n : Nat) {row : Line} (h : allBlank row = true) :
    Token.ofLine n (promptRow row) = ⟨n, 0, [], .blank⟩ := by
  unfold promptRow
  rw [if_pos h]
  exact ofLine_of_allBlank n rfl

end ActionEngine.Config
