import ActionEngine.Proofs.Json.Scalar
import ActionEngine.Proofs.KeyOrder

/-!
# What was written is read back

A document that was written with its keys in order is read back to the value itself, with
the keys of its records in order.
-/

namespace ActionEngine.Json

/-! ### Blanks -/

def Blank (gap : List Char) : Prop :=
  ∀ c ∈ gap, isSpace c

variable {gap rest : List Char}

theorem blank_newline (level : Nat) : Blank (newline level) := by
  intro c hc
  rcases List.mem_cons.1 hc with rfl | hc
  · rfl
  · rw [(List.mem_replicate.1 hc).2]
    rfl

theorem skip_append (blank : Blank gap) (s : List Char) : skip (gap ++ s) = skip s :=
  List.dropWhile_append_of_pos blank

theorem skip_cons {c : Char} (h : isSpace c = false) (s : List Char) : skip (c :: s) = c :: s :=
  List.dropWhile_cons_of_neg (by simp [h])

theorem ends_append (blank : Blank gap) (ends : Ends rest) : Ends (gap ++ rest) := by
  cases gap with
  | nil => exact ends
  | cons c gap =>
      have space := blank c List.mem_cons_self
      unfold isSpace at space
      simp only [Bool.or_eq_true, beq_iff_eq] at space
      rcases space with ((rfl | rfl) | rfl) | rfl
      all_goals exact ends_cons (by decide) (by decide) (by decide) (by decide)

/-- The character may come first in the text of a value or of a field. -/
def isOpening (c : Char) : Bool :=
  !isSpace c && c != ']' && c != '\ufeff'

/-- The text starts as that of a value or of a field does. -/
def Opens (text : List Char) : Prop :=
  ∃ c more, text = c :: more ∧ isOpening c

theorem isOpening_iff {c : Char} :
    isOpening c ↔ isSpace c = false ∧ c ≠ ']' ∧ c ≠ '\ufeff' := by
  simp [isOpening, and_assoc]

theorem isOpening_of_isDigit {c : Char} (digit : c.isDigit) : isOpening c := by
  rw [isOpening_iff]
  refine ⟨?_, ?_, ?_⟩
  · by_contra space
    unfold isSpace at space
    simp only [Bool.not_eq_false, Bool.or_eq_true, beq_iff_eq] at space
    rcases space with ((rfl | rfl) | rfl) | rfl <;> cases digit
  · rintro rfl
    cases digit
  · rintro rfl
    cases digit

theorem Opens.skip {text : List Char} (opens : Opens text) : skip text = text := by
  obtain ⟨c, more, rfl, opening⟩ := opens
  exact skip_cons (isOpening_iff.1 opening).1 more

theorem Opens.append {text : List Char} (opens : Opens text) (s : List Char) :
    Opens (text ++ s) := by
  obtain ⟨c, more, rfl, opening⟩ := opens
  exact ⟨c, more ++ s, rfl, opening⟩

/-! ### Scalars -/

/-- The text is read as a value, if there is depth enough and what follows is no part of
    a number. -/
structure ReadsAs (text : List Char) (v : Value) : Prop where
  opens : Opens text
  reads : ∀ depth rest, text.length ≤ depth → Ends rest → value depth (text ++ rest) = .ok (v, rest)

/-- A value whose text starts with a digit or a sign and a digit is a number. -/
theorem value_signed {c : Char} (digit : c.isDigit) (negative : Bool) (more : List Char)
    (depth : Nat) :
    value (depth + 1) (signed negative (c :: more)) = number (signed negative (c :: more)) := by
  unfold value
  cases negative with
  | true =>
      split
      case h_9 same =>
        cases same
        cases digit
      case h_10 => rfl
      all_goals
        next same => cases same
  | false =>
      split
      case h_10 => rfl
      all_goals
        next same =>
          cases same
          cases digit

theorem readsAs_number {text : List Char} {v : Value} (negative : Bool)
    (digit : ∃ c more, text = c :: more ∧ c.isDigit)
    (reads : ∀ rest, Ends rest → number (signed negative text ++ rest) = .ok (v, rest)) :
    ReadsAs (signed negative text) v := by
  obtain ⟨c, more, rfl, digit⟩ := digit
  constructor
  · cases negative with
    | true => exact ⟨'-', _, rfl, rfl⟩
    | false => exact ⟨c, more, rfl, isOpening_of_isDigit digit⟩
  · intro depth rest enough ends
    cases depth with
    | zero => cases negative <;> cases enough
    | succ depth =>
        rw [← reads rest ends, signed_append, List.cons_append]
        exact value_signed digit negative _ depth

theorem toList_int (n : Int) :
    (toString n).toList = signed (n < 0) (Nat.toDigits 10 n.natAbs) := by
  rw [Int.toString_eq_repr, Int.repr_eq_if]
  unfold signed
  split
  · next positive =>
    rw [if_neg (by simpa using positive), Nat.toList_repr, show n.toNat = n.natAbs by omega]
  · next below =>
    rw [if_pos (by simpa using below), String.toList_append, Nat.toList_repr,
      show (-n).toNat = n.natAbs by omega]
    rfl

theorem readsAs_int {n : Int} (short : n.natAbs < Nat.pow 10 Reading.maxDigits) :
    ReadsAs (toString n).toList (.int n) := by
  have value : (if decide (n < 0) = true then -(n.natAbs : Int) else n.natAbs) = n := by
    simp only [decide_eq_true_eq]
    omega
  rw [toList_int]
  apply readsAs_number
  · obtain ⟨c, more, digits⟩ := List.exists_cons_of_ne_nil (Nat.toDigits_ne_nil (n := n.natAbs))
    exact ⟨c, more, digits, Reading.isDigit_toDigits _ c (by rw [digits]; exact List.mem_cons_self)⟩
  · intro rest ends
    rw [number_ofNat short _ ends, value]

theorem readsAs_word {text : List Char} {v : Value} (opens : Opens text)
    (reads : ∀ depth rest, value (depth + 1) (text ++ rest) = .ok (v, rest)) : ReadsAs text v where
  opens := opens
  reads depth rest enough _ := by
    cases depth with
    | zero =>
        obtain ⟨c, more, rfl, -⟩ := opens
        cases enough
    | succ depth => exact reads depth rest

theorem readsAs_float (x : Binary64) : ReadsAs (writeFloat x) (.float x) := by
  cases x with
  | nan => exact readsAs_word ⟨'N', _, rfl, rfl⟩ fun _ _ => rfl
  | infinite negative =>
      cases negative
      · exact readsAs_word ⟨'I', _, rfl, rfl⟩ fun _ _ => rfl
      · exact readsAs_word ⟨'-', _, rfl, rfl⟩ fun _ _ => rfl
  | finite negative e f =>
      obtain ⟨n, proper, marked, chars, rounds⟩ := Binary64.text_finite negative e f
      change ReadsAs (Binary64.text (.finite negative e f)).toList _
      rw [chars]
      apply readsAs_number negative (exists_first proper)
      intro rest ends
      rw [number_marked proper marked negative ends, rounds]

theorem readsAs_text (ascii : Bool) {s : LooseText} (settled : s.Settled) :
    ReadsAs (writeText ascii s) (.text s) where
  opens := ⟨'"', _, rfl, rfl⟩
  reads depth rest enough _ := by
    cases depth with
    | zero => simp [writeText] at enough
    | succ depth =>
        unfold writeText
        rw [List.cons_append, List.cons_append, List.append_assoc, List.singleton_append, value,
          string_writeText ascii settled]
        dsimp only [Bind.bind, Except.bind]
        rw [LooseText.ofCodes_codes]

theorem writeText_whole (ascii : Bool) (s : String) :
    writeText ascii s = '"' :: s.toList.flatMap (writeChar ascii) ++ ['"'] := by
  unfold writeText
  rw [LooseText.codes_whole, List.flatMap_map]
  rfl

theorem flatMap_writeChar {ascii : Bool} {text : List Char}
    (plain : ∀ c ∈ text, writeChar ascii c = [c]) : text.flatMap (writeChar ascii) = text := by
  rw [List.flatMap_congr plain, List.flatMap_singleton']

/-! ### Lists and records -/

/-- The parts behind the first one, up to the closing bracket. -/
def closing (between last : List Char) (right : Char) (parts : List (List Char)) : List Char :=
  parts.flatMap (fun p => ',' :: between ++ p) ++ (last ++ [right])

theorem bracketed_eq (style : Style) (level : Nat) (left right : Char) (first : List Char)
    (parts : List (List Char)) :
    ∃ start between last, Blank start ∧ Blank between ∧ Blank last ∧
      bracketed style level left right (first :: parts) =
        left :: (start ++ (first ++ closing between last right parts)) := by
  unfold bracketed closing
  dsimp only
  split
  · refine ⟨newline (level + 1), newline (level + 1), newline level, blank_newline _,
      blank_newline _, blank_newline _, ?_⟩
    simp only [List.cons_append, List.append_assoc]
  · refine ⟨[], [' '], [], by simp [Blank], by simp [Blank, isSpace], by simp [Blank], ?_⟩
    simp only [List.cons_append, List.nil_append, List.append_assoc]

section Closing

variable {between last : List Char} {right : Char} {parts : List (List Char)}

theorem closing_nil : closing between last right [] = last ++ [right] := rfl

theorem closing_cons (p : List Char) : closing between last right (p :: parts) =
    ',' :: (between ++ (p ++ closing between last right parts)) := by
  unfold closing
  simp only [List.flatMap_cons, List.cons_append, List.append_assoc]

theorem ends_closing (blank : Blank last) (bracket : Ends [right]) (after : List Char) :
    Ends (closing between last right parts ++ after) := by
  cases parts with
  | nil =>
      rw [closing_nil, List.append_assoc]
      apply ends_append blank
      exact fun c hc => bracket c hc
  | cons p parts =>
      rw [closing_cons]
      exact ends_cons (by decide) (by decide) (by decide) (by decide)

theorem items_last {depth : Nat} {s rest after : List Char} {v : Value}
    (read : value depth s = .ok (v, rest)) (ends : skip rest = ']' :: after) :
    items (depth + 1) s = .ok ([v], after) := by
  rw [items, read]
  dsimp only [Bind.bind, Except.bind]
  rw [ends]
  rfl

theorem items_more {depth : Nat} {s rest more after : List Char} {v : Value} {vs : List Value}
    (read : value depth s = .ok (v, rest)) (comma : skip rest = ',' :: more)
    (later : items depth (skip more) = .ok (vs, after)) :
    items (depth + 1) s = .ok (v :: vs, after) := by
  rw [items, read]
  dsimp only [Bind.bind, Except.bind]
  rw [comma]
  change (items depth (skip more)).bind _ = _
  rw [later]
  rfl

/-- The values of a list are read one after the other, up to its closing bracket. -/
theorem items_read {v : Value} {vs : List Value} {first : List Char} (blank : Blank between)
    (blank' : Blank last) (head : ReadsAs first v) (tail : List.Forall₂ ReadsAs parts vs)
    {depth : Nat} (enough : (first ++ closing between last ']' parts).length ≤ depth)
    (after : List Char) :
    items depth (first ++ (closing between last ']' parts ++ after)) = .ok (v :: vs, after) := by
  have bracket : Ends [']'] := ends_cons (by decide) (by decide) (by decide) (by decide)
  induction tail generalizing first v depth with
  | nil =>
      have size : first.length + 1 ≤ depth := by
        simp [closing_nil] at enough
        omega
      obtain ⟨depth, rfl⟩ := Nat.exists_eq_add_of_le' (Nat.le_of_add_left_le size)
      have read := head.reads depth (closing between last ']' [] ++ after) (by omega)
        (ends_closing blank' bracket after)
      apply items_last read
      rw [closing_nil, List.append_assoc, skip_append blank', List.singleton_append,
        skip_cons (by decide)]
  | @cons p w parts vs next tail ih =>
      have size : first.length + 1 + (p ++ closing between last ']' parts).length ≤ depth := by
        simp [closing_cons] at enough ⊢
        omega
      obtain ⟨depth, rfl⟩ : ∃ d, depth = d + 1 := ⟨depth - 1, by omega⟩
      have read := head.reads depth (closing between last ']' (p :: parts) ++ after) (by omega)
        (ends_closing blank' bracket after)
      have enough' : (p ++ closing between last ']' parts).length ≤ depth := by omega
      have later := ih next enough'
      apply items_more read
      · rw [closing_cons, List.cons_append, skip_cons (by decide)]
      · rw [List.append_assoc, List.append_assoc, skip_append blank, (next.opens.append _).skip,
          later]

/-- The text of a field: its key, a colon, and the text of its value. -/
def FieldReadsAs (ascii : Bool) (text : List Char) (f : LooseText × Value) : Prop :=
  ∃ more, text = writeText ascii f.1 ++ ':' :: ' ' :: more ∧ f.1.Settled ∧ ReadsAs more f.2

theorem FieldReadsAs.opens {ascii : Bool} {text : List Char} {f : LooseText × Value}
    (field : FieldReadsAs ascii text f) : Opens text := by
  obtain ⟨more, rfl, -⟩ := field
  exact ⟨'"', _, rfl, rfl⟩

section Field

variable {ascii : Bool} {text rest : List Char} {f : LooseText × Value} {depth : Nat}

theorem FieldReadsAs.members (field : FieldReadsAs ascii text f) (enough : text.length ≤ depth)
    (ends : Ends rest) :
    members (depth + 1) (text ++ rest) =
      match skip rest with
      | '\x7d' :: after => .ok ([f], after)
      | ',' :: more => do
        let (fs, after) ← Json.members depth (skip more)
        .ok (f :: fs, after)
      | other => .error ⟨.comma, other.length⟩ := by
  obtain ⟨more, rfl, settled, reads⟩ := field
  have read : value depth (skip (' ' :: (more ++ rest))) = .ok (f.2, rest) := by
    rw [skip, List.dropWhile_cons_of_pos (by decide), ← skip, (reads.opens.append rest).skip]
    apply reads.reads depth rest _ ends
    simp at enough
    omega
  unfold writeText
  simp only [List.cons_append, List.append_assoc, List.nil_append]
  rw [Json.members, string_writeText ascii settled]
  dsimp only [Bind.bind, Except.bind]
  rw [skip_cons (by decide)]
  change (value depth (skip (' ' :: (more ++ rest)))).bind _ = _
  rw [read, LooseText.ofCodes_codes]
  rfl

theorem FieldReadsAs.members_last (field : FieldReadsAs ascii text f)
    (enough : text.length ≤ depth) (ends : Ends rest) {after : List Char}
    (close : skip rest = '\x7d' :: after) :
    Json.members (depth + 1) (text ++ rest) = .ok ([f], after) := by
  rw [field.members enough ends, close]
  rfl

theorem FieldReadsAs.members_more (field : FieldReadsAs ascii text f)
    (enough : text.length ≤ depth) (ends : Ends rest) {more after : List Char} {fs : Fields}
    (comma : skip rest = ',' :: more) (later : Json.members depth (skip more) = .ok (fs, after)) :
    Json.members (depth + 1) (text ++ rest) = .ok (f :: fs, after) := by
  rw [field.members enough ends, comma]
  change (Json.members depth (skip more)).bind _ = _
  rw [later]
  rfl

end Field

/-- The fields of a record are read one after the other, up to its closing brace. -/
theorem members_read {ascii : Bool} {f : LooseText × Value} {fs : Fields} {first : List Char}
    (blank : Blank between) (blank' : Blank last) (head : FieldReadsAs ascii first f)
    (tail : List.Forall₂ (FieldReadsAs ascii) parts fs) {depth : Nat}
    (enough : (first ++ closing between last '\x7d' parts).length ≤ depth) (after : List Char) :
    members depth (first ++ (closing between last '\x7d' parts ++ after)) =
      .ok (f :: fs, after) := by
  have brace : Ends ['\x7d'] := ends_cons (by decide) (by decide) (by decide) (by decide)
  induction tail generalizing first f depth with
  | nil =>
      have size : first.length + 1 ≤ depth := by
        simp [closing_nil] at enough
        omega
      obtain ⟨depth, rfl⟩ : ∃ d, depth = d + 1 := ⟨depth - 1, by omega⟩
      apply head.members_last (by omega) (ends_closing blank' brace after)
      rw [closing_nil, List.append_assoc, skip_append blank', List.singleton_append,
        skip_cons (by decide)]
  | @cons p g parts fs next tail ih =>
      have size : first.length + 1 + (p ++ closing between last '\x7d' parts).length ≤ depth := by
        simp [closing_cons] at enough ⊢
        omega
      obtain ⟨depth, rfl⟩ : ∃ d, depth = d + 1 := ⟨depth - 1, by omega⟩
      have enough' : (p ++ closing between last '\x7d' parts).length ≤ depth := by omega
      have later := ih next enough'
      apply head.members_more (by omega) (ends_closing blank' brace after)
      · rw [closing_cons, List.cons_append, skip_cons (by decide)]
      · rw [List.append_assoc, List.append_assoc, skip_append blank, (next.opens.append _).skip,
          later]

end Closing

/-! ### Values -/

variable {style : Style} {level : Nat} {parts : List (List Char)}

theorem value_bracket (depth : Nat) (s : List Char) :
    value (depth + 1) ('[' :: s) = (match skip s with
      | ']' :: after => .ok (.list [], after)
      | inner => do
        let (xs, after) ← items depth inner
        .ok (.list xs, after)) := rfl

theorem value_brace (depth : Nat) (s : List Char) :
    value (depth + 1) ('\x7b' :: s) = (match skip s with
      | '\x7d' :: after => .ok (.record [], after)
      | inner => do
        let (fields, after) ← members depth inner
        .ok (.record (Fields.putAll [] fields), after)) := rfl

theorem value_list {depth : Nat} {s after : List Char} {vs : List Value} (opens : Opens (skip s))
    (read : items depth (skip s) = .ok (vs, after)) :
    value (depth + 1) ('[' :: s) = .ok (.list vs, after) := by
  obtain ⟨c, more, first, opening⟩ := opens
  rw [value_bracket]
  rw [first] at read ⊢
  split
  · next same =>
    cases same
    cases opening
  · rw [read]
    rfl

theorem value_record {depth : Nat} {s more after : List Char} {fs : Fields}
    (nodup : fs.keys.Nodup) (opens : skip s = '"' :: more)
    (read : members depth (skip s) = .ok (fs, after)) :
    value (depth + 1) ('\x7b' :: s) = .ok (.record fs, after) := by
  have same : Fields.putAll [] fs = fs := Fields.putAll_of_nodup nodup
  rw [value_brace]
  rw [opens] at read ⊢
  change (members depth ('"' :: more)).bind _ = _
  rw [read]
  exact congrArg (fun fields => Except.ok (Value.record fields, after)) same

theorem readsAs_list {vs : List Value} (read : List.Forall₂ ReadsAs parts vs) :
    ReadsAs (bracketed style level '[' ']' parts) (.list vs) := by
  cases read with
  | nil => exact readsAs_word ⟨'[', _, rfl, rfl⟩ fun _ _ => rfl
  | @cons first v parts vs head tail =>
      obtain ⟨start, between, last, blank, blank', blank'', text⟩ :=
        bracketed_eq style level '[' ']' first parts
      rw [text]
      refine ⟨⟨'[', _, rfl, rfl⟩, fun depth rest enough _ => ?_⟩
      have size : (first ++ closing between last ']' parts).length + 1 ≤ depth := by
        simp at enough ⊢
        omega
      obtain ⟨depth, rfl⟩ : ∃ d, depth = d + 1 := ⟨depth - 1, by omega⟩
      have skipped : skip (start ++ (first ++ (closing between last ']' parts ++ rest))) =
          first ++ (closing between last ']' parts ++ rest) := by
        rw [skip_append blank, (head.opens.append _).skip]
      rw [List.cons_append, List.append_assoc, List.append_assoc]
      apply value_list
      · rw [skipped]
        exact head.opens.append _
      · rw [skipped]
        exact items_read blank' blank'' head tail (by omega) rest

theorem readsAs_record {fs : Fields} (nodup : fs.keys.Nodup)
    (read : List.Forall₂ (FieldReadsAs style.ascii) parts fs) :
    ReadsAs (bracketed style level '\x7b' '\x7d' parts) (.record fs) := by
  cases read with
  | nil => exact readsAs_word ⟨'\x7b', _, rfl, rfl⟩ fun _ _ => rfl
  | @cons first f parts fs head tail =>
      obtain ⟨start, between, last, blank, blank', blank'', text⟩ :=
        bracketed_eq style level '\x7b' '\x7d' first parts
      rw [text]
      refine ⟨⟨'\x7b', _, rfl, rfl⟩, fun depth rest enough _ => ?_⟩
      have size : (first ++ closing between last '\x7d' parts).length + 1 ≤ depth := by
        simp at enough ⊢
        omega
      obtain ⟨depth, rfl⟩ : ∃ d, depth = d + 1 := ⟨depth - 1, by omega⟩
      have skipped : skip (start ++ (first ++ (closing between last '\x7d' parts ++ rest))) =
          first ++ (closing between last '\x7d' parts ++ rest) := by
        rw [skip_append blank, (head.opens.append _).skip]
      obtain ⟨more, first_eq⟩ : ∃ more, first = '"' :: more := by
        obtain ⟨_, first_eq, -⟩ := head
        exact ⟨_, first_eq⟩
      rw [List.cons_append, List.append_assoc, List.append_assoc]
      apply value_record nodup
      · rw [skipped, first_eq, List.cons_append]
      · rw [skipped]
        exact members_read blank' blank'' head tail (by omega) rest

theorem exists_of_mapM_cons {α β : Type} {f : α → Except Refusal β} {x : α} {xs : List α}
    {ys : List β} (h : (x :: xs).mapM f = .ok ys) :
    ∃ y more, f x = .ok y ∧ xs.mapM f = .ok more ∧ ys = y :: more := by
  rw [List.mapM_cons] at h
  cases first : f x with
  | error refusal =>
      rw [first] at h
      cases h
  | ok y =>
      cases rest : xs.mapM f with
      | error refusal =>
          rw [first, rest] at h
          cases h
      | ok more =>
          rw [first, rest] at h
          cases h
          exact ⟨y, more, rfl, rfl, rfl⟩

theorem forall₂_of_mapM {α β γ : Type} {f : α → Except Refusal β} {g : α → γ} {R : β → γ → Prop}
    {xs : List α} {ys : List β} (each : ∀ x ∈ xs, ∀ y, f x = .ok y → R y (g x))
    (h : xs.mapM f = .ok ys) : List.Forall₂ R ys (xs.map g) := by
  induction xs generalizing ys with
  | nil =>
      cases h
      exact .nil
  | cons x xs ih =>
      obtain ⟨y, more, first, rest, rfl⟩ := exists_of_mapM_cons h
      exact .cons (each x List.mem_cons_self y first)
        (ih (fun z hz => each z (List.mem_cons_of_mem _ hz)) rest)

theorem writeItems_eq_mapM (style : Style) (level : Nat) (items : List Value) :
    writeItems style level items = items.mapM (write style level) := by
  induction items with
  | nil => rfl
  | cons v items ih =>
      rw [writeItems, List.mapM_cons, ih]
      rfl

/-- The fields of a record are written in the order of their keys. -/
theorem write_record (sorts : style.sorted) (level : Nat) (fields : Fields) :
    write style level (.record fields) =
      (fields.sort.mapM fun f => (write style (level + 1) f.2).map fun value =>
        writeText style.ascii f.1 ++ ':' :: ' ' :: value).map
          (bracketed style level '\x7b' '\x7d') := by
  have order : (writeFields style (level + 1) fields).mergeSort (fun a b => !(b.1 < a.1)) =
      fields.sort.map fun f => (f.1, write style (level + 1) f.2) := by
    rw [writeFields_eq_map]
    symm
    apply List.map_mergeSort
    exact fun _ _ _ _ => rfl
  rw [write, if_pos sorts, order, List.mapM_map]
  rfl

theorem exists_of_map_ok {α β : Type} {result : Except Refusal α} {f : α → β} {b : β}
    (h : result.map f = .ok b) : ∃ a, result = .ok a ∧ f a = b := by
  cases result with
  | error refusal => cases h
  | ok a =>
      cases h
      exact ⟨a, rfl, rfl⟩

/-- The text of a document is read as the document with its keys in order. -/
theorem readsAs {v : Value} (held : IsDocument v) (sorts : style.sorted) {text : List Char}
    (written : write style level v = .ok text) : ReadsAs text v.sorted := by
  induction held generalizing level text with
  | null =>
      cases written
      exact readsAs_word ⟨'n', _, rfl, rfl⟩ fun _ _ => rfl
  | bool b =>
      cases written
      cases b
      · exact readsAs_word ⟨'f', _, rfl, rfl⟩ fun _ _ => rfl
      · exact readsAs_word ⟨'t', _, rfl, rfl⟩ fun _ _ => rfl
  | int short =>
      rw [write, if_neg (Nat.not_le_of_lt short)] at written
      cases written
      exact readsAs_int short
  | float x =>
      cases written
      exact readsAs_float x
  | text settled =>
      cases written
      exact readsAs_text _ settled
  | @list items held ih =>
      rw [write, writeItems_eq_mapM] at written
      obtain ⟨parts, each, rfl⟩ := exists_of_map_ok written
      rw [Value.sorted_list]
      exact readsAs_list (forall₂_of_mapM (fun v hv _ h => ih v hv h) each)
  | @record fields nodup settled held ih =>
      rw [write_record sorts] at written
      obtain ⟨parts, each, rfl⟩ := exists_of_map_ok written
      rw [Value.sorted_record]
      apply readsAs_record
      · rw [Fields.keys_map]
        exact Fields.nodup_keys_sort nodup
      · apply forall₂_of_mapM _ each
        intro f hf part h
        obtain ⟨more, value, rfl⟩ := exists_of_map_ok h
        exact ⟨more, rfl, settled f (Fields.mem_sort.1 hf), ih f (Fields.mem_sort.1 hf) value⟩

section Behind

variable {chars rest more : List Char} {v : Value} {c : Char}

/-- What stands behind a document is in the way, unless it is blank. -/
theorem document_of_readsAs (reads : ReadsAs chars v) (ends : Ends rest) :
    document (chars ++ rest) = match skip rest with
      | [] => .ok v
      | other => .error ⟨.extraData, other.length⟩ := by
  have read := reads.reads (2 * (chars ++ rest).length + 2) rest
    (by rw [List.length_append]; omega) ends
  obtain ⟨c, more, first, opening⟩ := reads.opens.append rest
  unfold document
  rw [first] at read ⊢
  split
  · next same =>
    cases same
    cases opening
  · rw [skip_cons (isOpening_iff.1 opening).1, read]
    rfl

/-- A document on one line is spoiled by a second line. -/
theorem parse_of_second_line (reads : ReadsAs chars v) (single : '\n' ∉ chars)
    (filled : isSpace c = false) :
    parse (String.ofList (chars ++ '\n' :: c :: more)) =
      .error ⟨.extraData, 2, 1, chars.length + 1⟩ := by
  have read : document (chars ++ '\n' :: c :: more) = .error ⟨.extraData, (c :: more).length⟩ := by
    rw [document_of_readsAs reads (ends_cons (by decide) (by decide) (by decide) (by decide)),
      skip, List.dropWhile_cons_of_pos (by decide), ← skip, skip_cons filled]
  have index : (chars ++ '\n' :: c :: more).length - (c :: more).length = chars.length + 1 := by
    simp
    omega
  have before : (chars ++ '\n' :: c :: more).take (chars.length + 1) = chars ++ ['\n'] := by
    rw [List.append_cons]
    exact List.take_left' (by simp)
  have lines : (chars ++ ['\n']).count '\n' = 1 := by
    simp [List.count_eq_zero.2 single]
  unfold parse locate
  rw [String.toList_ofList, read]
  dsimp only [Except.mapError]
  rw [index, before, lines]
  simp

end Behind

/-- A document that was written with its keys in order is read back with them in order. -/
theorem parse_of_render {v : Value} (held : IsDocument v) (sorts : style.sorted) {text : String}
    (written : render style v = .ok text) : parse text = .ok v.sorted := by
  obtain ⟨chars, wrote, rfl⟩ := exists_of_map_ok written
  have whole := document_of_readsAs (readsAs held sorts wrote) ends_nil
  rw [List.append_nil] at whole
  unfold parse
  rw [String.toList_ofList, whole]
  rfl

theorem forall₂_mapM {α β : Type} {f : α → Except Refusal β} {xs : List α} {ys : List β}
    (h : xs.mapM f = .ok ys) : List.Forall₂ (fun x y => f x = .ok y) xs ys := by
  have each : List.Forall₂ (fun y x => f x = .ok y) ys (xs.map id) :=
    forall₂_of_mapM (fun _ _ _ h => h) h
  rw [List.map_id] at each
  exact each.flip

theorem exists_of_mapM {α β : Type} {f : α → Except Refusal β} {xs : List α} {ys : List β}
    (h : xs.mapM f = .ok ys) {y : β} (hy : y ∈ ys) : ∃ x ∈ xs, f x = .ok y := by
  have each := forall₂_mapM h
  clear h
  induction each with
  | nil => cases hy
  | @cons x z xs ys first rest ih =>
      rcases List.mem_cons.1 hy with rfl | hy
      · exact ⟨x, List.mem_cons_self, first⟩
      · obtain ⟨w, hw, same⟩ := ih hy
        exact ⟨w, List.mem_cons_of_mem _ hw, same⟩

theorem ok_of_mapM {α β : Type} {f : α → Except Refusal β} {xs : List α} {ys : List β}
    (h : xs.mapM f = .ok ys) {x : α} (hx : x ∈ xs) : ∃ y, f x = .ok y := by
  have each := forall₂_mapM h
  clear h
  induction each with
  | nil => cases hx
  | @cons z y xs ys first rest ih =>
      rcases List.mem_cons.1 hx with rfl | hx
      · exact ⟨y, first⟩
      · exact ih hx

/-- Every field of a record that was written can be written. -/
theorem write_of_render {fields : Fields} (sorts : style.sorted) {text : String}
    (written : render style (.record fields) = .ok text) :
    ∀ f ∈ fields, ∃ value, write style 1 f.2 = .ok value := by
  obtain ⟨chars, wrote, -⟩ := exists_of_map_ok written
  rw [write_record sorts] at wrote
  obtain ⟨parts, each, -⟩ := exists_of_map_ok wrote
  intro f hf
  obtain ⟨part, h⟩ := ok_of_mapM each (Fields.mem_sort.2 hf)
  obtain ⟨value, inner, -⟩ := exists_of_map_ok h
  exact ⟨value, inner⟩

/-! ### Line ends -/

theorem not_mem_newline (level : Nat) : '\r' ∉ newline level := by
  simp [newline]

theorem mem_bracketed {left right : Char} (start : left ≠ '\r') (stop : right ≠ '\r')
    (h : '\r' ∈ bracketed style level left right parts) : ∃ p ∈ parts, '\r' ∈ p := by
  unfold bracketed at h
  cases parts with
  | nil => simp [start.symm, stop.symm] at h
  | cons first rest =>
      dsimp only at h
      split at h
      · simpa [not_mem_newline, start.symm, stop.symm] using h
      · simpa [start.symm, stop.symm] using h

theorem not_mem_unitCode (n : Nat) : '\r' ∉ unitCode n := by
  have digit (m : Fin 16) : '\r' ≠ Text.hexDigit m.val := by
    revert m
    decide
  have last (m : Nat) : '\r' ≠ Text.hexDigit (m % 16) := digit ⟨m % 16, Nat.mod_lt _ (by decide)⟩
  simp [unitCode, Text.hexDigits, last]

theorem not_mem_writeText (ascii : Bool) (s : LooseText) : '\r' ∉ writeText ascii s := by
  have char (c : Char) : '\r' ∉ writeChar ascii c := by
    unfold writeChar
    split
    · next special =>
      rcases Bool.or_eq_true_iff.1 special with same | same
      · rw [eq_of_beq same]
        decide
      · rw [eq_of_beq same]
        decide
    · split
      · decide
      split
      · decide
      next other =>
      split
      · decide
      split
      · decide
      split
      · decide
      dsimp only
      split
      · exact not_mem_unitCode _
      split
      · exact fun h => (List.mem_append.1 h).elim (not_mem_unitCode _) (not_mem_unitCode _)
      · exact fun h => other (beq_iff_eq.2 (List.mem_singleton.1 h).symm)
  have code (c : Text.Code) : '\r' ∉ writeCode ascii c := by
    cases c with
    | char c => exact char c
    | half h => exact not_mem_unitCode _
  simp [writeText, code]

theorem not_mem_digits {ds : List Char} (digits : ∀ c ∈ ds, c.isDigit) : '\r' ∉ ds :=
  fun h => absurd (digits _ h) (by decide)

theorem not_mem_signed (negative : Bool) {s : List Char} (h : '\r' ∉ s) :
    '\r' ∉ signed negative s := by
  cases negative
  · exact h
  · simpa [signed] using h

theorem not_mem_writeFloat (x : Binary64) : '\r' ∉ writeFloat x := by
  cases x with
  | nan => decide
  | infinite negative => cases negative <;> decide
  | finite negative e f =>
      obtain ⟨n, proper, -, chars, -⟩ := Binary64.text_finite negative e f
      change '\r' ∉ (Binary64.text (.finite negative e f)).toList
      rw [chars]
      apply not_mem_signed negative
      have whole := not_mem_digits proper.whole
      have fraction := not_mem_digits proper.fraction
      have exponent := not_mem_digits proper.exponent
      unfold Numeral.chars
      cases n.down
      all_goals
        split <;> split <;> simp [whole, fraction, exponent]

/-- The text of a document has no carriage return. -/
theorem not_mem_write {v : Value} (held : IsDocument v) (sorts : style.sorted) {text : List Char}
    (written : write style level v = .ok text) : '\r' ∉ text := by
  induction held generalizing level text with
  | null =>
      cases written
      decide
  | bool b =>
      cases written
      cases b <;> decide
  | int short =>
      rw [write, if_neg (Nat.not_le_of_lt short)] at written
      cases written
      rw [toList_int]
      exact not_mem_signed _ (not_mem_digits (Reading.isDigit_toDigits _))
  | float x =>
      cases written
      exact not_mem_writeFloat x
  | text settled =>
      cases written
      exact not_mem_writeText _ _
  | @list items held ih =>
      rw [write, writeItems_eq_mapM] at written
      obtain ⟨parts, each, rfl⟩ := exists_of_map_ok written
      intro h
      obtain ⟨p, hp, h⟩ := mem_bracketed (by decide) (by decide) h
      obtain ⟨v, hv, wrote⟩ := exists_of_mapM each hp
      exact ih v hv wrote h
  | @record fields nodup settled held ih =>
      rw [write_record sorts] at written
      obtain ⟨parts, each, rfl⟩ := exists_of_map_ok written
      intro h
      obtain ⟨p, hp, h⟩ := mem_bracketed (by decide) (by decide) h
      obtain ⟨f, hf, wrote⟩ := exists_of_mapM each hp
      obtain ⟨value, inner, rfl⟩ := exists_of_map_ok wrote
      have key := not_mem_writeText style.ascii f.1
      have rest := ih f (Fields.mem_sort.1 hf) inner
      simp [key, rest] at h

end ActionEngine.Json
