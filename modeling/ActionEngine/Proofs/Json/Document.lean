import ActionEngine.Json.Printer
import ActionEngine.Json.Reader
import ActionEngine.Proofs.Fields
import ActionEngine.Proofs.Json.Scalar
import ActionEngine.Settings.Field
import Mathlib.Data.List.Induction

/-!
# Documents

Not every value can stand in a JSON document: tuples, bytes and ranges cannot, an integer
has at most 4300 digits, a record gives no key twice, and no two halves in a text make a pair.
What is read from a document is such a value, and every such value can be written.
-/

namespace ActionEngine

/-- The text stands in the value: it is the value itself, or a key of a record in it, or it
    stands in one of the value's parts. -/
inductive Value.Mentions : Value → LooseText → Prop
  | text (s : LooseText) : Mentions (.text s) s
  | key {fields : Fields} {f : LooseText × Value} (mem : f ∈ fields) :
    Mentions (.record fields) f.1
  | field {fields : Fields} {f : LooseText × Value} {s : LooseText} (mem : f ∈ fields)
    (below : Mentions f.2 s) : Mentions (.record fields) s
  | item {items : List Value} {v : Value} {s : LooseText} (mem : v ∈ items)
    (below : Mentions v s) : Mentions (.list items) s
  | part {parts : List Value} {v : Value} {s : LooseText} (mem : v ∈ parts)
    (below : Mentions v s) : Mentions (.tuple parts) s

namespace Json

/-- The value can be read from a document. -/
inductive IsDocument : Value → Prop
  | null : IsDocument .null
  | bool (b : Bool) : IsDocument (.bool b)
  | int {n : Int} (short : n.natAbs < Nat.pow 10 Reading.maxDigits) : IsDocument (.int n)
  | float (x : Binary64) : IsDocument (.float x)
  | text {s : LooseText} (settled : s.Settled) : IsDocument (.text s)
  | list {items : List Value} (held : ∀ v ∈ items, IsDocument v) : IsDocument (.list items)
  | record {fields : Fields} (nodup : (Fields.keys fields).Nodup)
      (settled : ∀ f ∈ fields, f.1.Settled) (held : ∀ f ∈ fields, IsDocument f.2) :
      IsDocument (.record fields)

/-- No two halves in a text of such a value make a pair. -/
theorem IsDocument.settled {v : Value} (held : IsDocument v) {s : LooseText}
    (mentions : v.Mentions s) : s.Settled := by
  induction mentions with
  | text s =>
      cases held with
      | text settled => exact settled
  | key mem =>
      cases held with
      | record nodup settled held => exact settled _ mem
  | field mem below ih =>
      cases held with
      | record nodup settled held => exact ih (held _ mem)
  | item mem below ih =>
      cases held with
      | list held => exact ih (held _ mem)
  | part mem below ih => cases held

theorem IsDocument.small {n : Int} (h : n.natAbs < 10000) : IsDocument (.int n) := by
  have size := Nat.pow_le_pow_right (n := 10) (by decide) (by decide : 4 ≤ Reading.maxDigits)
  constructor
  rw [Nat.pow_eq]
  omega

/-! ### Reading -/

/-- Whatever a reader gives has a property. -/
def Gives {α : Type} (P : α → Prop) (read : Except Stop (α × List Char)) : Prop :=
  ∀ a rest, read = .ok (a, rest) → P a

namespace Gives

variable {α β : Type} {P : α → Prop} {Q : β → Prop} {read : Except Stop (α × List Char)}
  {next : α × List Char → Except Stop (β × List Char)} {rest : List Char}

theorem ok {a : α} (h : P a) : Gives P (.ok (a, rest)) := by
  intro b _ same
  cases same
  exact h

theorem error (stop : Stop) : Gives P (.error stop) :=
  fun _ _ h => by cases h

theorem bind (first : Gives P read) (later : ∀ a rest, P a → Gives Q (next (a, rest))) :
    Gives Q (read >>= next) := by
  intro b after h
  cases same : read with
  | error stop =>
      rw [same] at h
      cases h
  | ok read =>
      rw [same] at h
      exact later read.1 read.2 (first _ _ same) b after h

end Gives

theorem digitsValue_lt (ds : List Char) (digits : ds.all Char.isDigit) :
    Reading.digitsValue ds < Nat.pow 10 ds.length := by
  induction ds using List.reverseRecOn with
  | nil => decide
  | append_singleton ds d ih =>
      rw [List.all_append, Bool.and_eq_true] at digits
      have last : d.toNat - 48 ≤ 9 := by
        have := digits.2
        simp only [List.all_cons, List.all_nil, Bool.and_true, Char.isDigit, Bool.and_eq_true,
          decide_eq_true_eq] at this
        have h := this.2
        change d.toNat ≤ 57 at h
        omega
      have front := ih digits.1
      rw [Reading.digitsValue, List.foldl_append, ← Reading.digitsValue, List.length_append]
      change 10 * Reading.digitsValue ds + (d.toNat - 48) < 10 ^ (ds.length + 1)
      change Reading.digitsValue ds < 10 ^ ds.length at front
      rw [Nat.pow_succ]
      omega

theorem wholePart_digits {s whole rest : List Char} (h : wholePart s = some (whole, rest)) :
    whole.all Char.isDigit := by
  unfold wholePart at h
  split at h
  · cases h
    rfl
  · dsimp only at h
    split at h
    · cases h
    · cases h
      exact List.all_takeWhile

theorem number_gives (s : List Char) : Gives IsDocument (number s) := by
  have unsigned (negative : Bool) (n : Nat) : (if negative then -(n : Int) else n).natAbs = n := by
    cases negative <;> simp
  unfold number
  dsimp only
  split
  · exact .error _
  · next whole rest taken =>
    split
    · split
      · exact .error _
      · next short =>
        apply Gives.ok
        constructor
        have bound := digitsValue_lt whole (wholePart_digits taken)
        have size := Nat.pow_le_pow_right (n := 10) (by decide) (Nat.le_of_not_lt short)
        rw [Nat.pow_eq] at bound
        rw [unsigned, Nat.pow_eq]
        omega
    · exact .ok (.float _)

theorem string_gives (opened : Nat) (s : List Char) :
    Gives (fun text => (LooseText.ofCodes text).Settled) (string opened s) :=
  fun _ _ read => string_settled read

/-- Reading a value, the values of a list and the fields of a record, for any depth. -/
theorem reading_gives (depth : Nat) :
    (∀ s, Gives IsDocument (value depth s)) ∧
    (∀ s, Gives (fun vs => ∀ v ∈ vs, IsDocument v) (items depth s)) ∧
    (∀ s, Gives (fun fs => ∀ f ∈ fs, f.1.Settled ∧ IsDocument f.2) (members depth s)) := by
  -- On the depth, for all three at once, since each of them calls the others below it.
  induction depth with
  | zero =>
      refine ⟨?_, ?_, ?_⟩ <;> intro s
      · exact .error _
      · exact .error _
      · exact .error _
  | succ depth ih =>
      obtain ⟨values, lists, records⟩ := ih
      refine ⟨?value, ?items, ?members⟩ <;> intro s
      case value =>
        unfold value
        split
        · exact (string_gives _ _).bind fun text _ settled => .ok (.text settled)
        · split
          · exact .ok (.record Fields.nodup_keys_nil (by simp) (by simp))
          · refine (records _).bind fun fields _ held => .ok ?_
            have each := Fields.forall_mem_putAll (by simp : ∀ f ∈ ([] : Fields), _) held
            exact .record (Fields.nodup_keys_putAll Fields.nodup_keys_nil fields)
              (fun f hf => (each f hf).1) fun f hf => (each f hf).2
        · split
          · exact .ok (.list (by simp))
          · exact (lists _).bind fun vs _ held => .ok (.list held)
        · exact .ok .null
        · exact .ok (.bool _)
        · exact .ok (.bool _)
        · exact .ok (.float _)
        · exact .ok (.float _)
        · exact .ok (.float _)
        · exact number_gives _
      case items =>
        unfold items
        refine (values s).bind fun v _ held => ?_
        dsimp only
        split
        · exact .ok (by simpa using held)
        · refine (lists _).bind fun vs _ more => .ok ?_
          exact List.forall_mem_cons.2 ⟨held, more⟩
        · exact .error _
      case members =>
        unfold members
        split
        · refine (string_gives _ _).bind fun key _ settled => ?_
          dsimp only
          split
          · refine (values _).bind fun v _ held => ?_
            dsimp only
            split
            · exact .ok (List.forall_mem_singleton.2 ⟨settled, held⟩)
            · refine (records _).bind fun fs _ more => .ok ?_
              exact List.forall_mem_cons.2 ⟨⟨settled, held⟩, more⟩
            · exact .error _
          · exact .error _
        · exact .error _

theorem ending_gives (rest : List Char) {v w : Value}
    (h : (match rest with
      | [] => (.ok w : Except Stop Value)
      | other => .error ⟨.extraData, other.length⟩) = .ok v) : v = w := by
  split at h <;> cases h
  rfl

theorem parse_gives {s : String} {v : Value} (h : parse s = .ok v) : IsDocument v := by
  have read : document s.toList = .ok v := by
    unfold parse at h
    cases same : document s.toList with
    | error stop => rw [same] at h; cases h
    | ok w => rw [same] at h; cases h; rfl
  unfold document at read
  split at read
  · cases read
  · cases same : value (2 * s.toList.length + 2) (skip s.toList) with
    | error stop => rw [same] at read; cases read
    | ok found =>
        obtain ⟨w, rest⟩ := found
        rw [same] at read
        obtain rfl := ending_gives (skip rest) read
        exact (reading_gives (2 * s.toList.length + 2)).1 _ _ _ same

/-! ### Writing -/

theorem plainItems_eq_map (items : List Value) :
    Settings.plainItems items = items.map Settings.plain := by
  induction items with
  | nil => rfl
  | cons v items ih => rw [Settings.plainItems, ih, List.map_cons]

theorem plainFields_eq_map (fields : Fields) :
    Settings.plainFields fields = fields.map fun f => (f.1, Settings.plain f.2) := by
  induction fields with
  | nil => rfl
  | cons f fields ih => rw [Settings.plainFields, ih, List.map_cons]

theorem IsDocument.plain {v : Value} (held : IsDocument v) : Settings.plain v = v := by
  induction held with
  | list held ih =>
      rw [Settings.plain, plainItems_eq_map, List.map_congr_left ih, List.map_id']
  | @record fields _ _ held ih =>
      have same : ∀ f ∈ fields, (f.1, Settings.plain f.2) = f := by
        intro f hf
        rw [ih f hf]
      rw [Settings.plain, plainFields_eq_map, List.map_congr_left same, List.map_id']
  | _ => rfl

theorem writeFields_eq_map (style : Style) (level : Nat) (fields : Fields) :
    writeFields style level fields = fields.map fun f => (f.1, write style level f.2) := by
  induction fields with
  | nil => rfl
  | cons f fields ih => rw [writeFields, ih, List.map_cons]

theorem mapM_ok {α β : Type} {f : α → Except Refusal β} {xs : List α}
    (each : ∀ x ∈ xs, ∃ y, f x = .ok y) : ∃ ys, xs.mapM f = .ok ys := by
  induction xs with
  | nil => exact ⟨[], rfl⟩
  | cons x xs ih =>
      obtain ⟨y, first⟩ := each x List.mem_cons_self
      obtain ⟨ys, rest⟩ := ih fun z hz => each z (List.mem_cons_of_mem _ hz)
      refine ⟨y :: ys, ?_⟩
      rw [List.mapM_cons, first, rest]
      rfl

theorem writeItems_ok {style : Style} {level : Nat} {items : List Value}
    (each : ∀ v ∈ items, ∃ text, write style level v = .ok text) :
    ∃ parts, writeItems style level items = .ok parts := by
  induction items with
  | nil => exact ⟨[], rfl⟩
  | cons v items ih =>
      obtain ⟨text, first⟩ := each v List.mem_cons_self
      obtain ⟨parts, rest⟩ := ih fun w hw => each w (List.mem_cons_of_mem _ hw)
      refine ⟨text :: parts, ?_⟩
      rw [writeItems, first, rest]
      rfl

theorem write_record_ok {style : Style} {level : Nat} {fields : Fields}
    (each : ∀ f ∈ fields, ∃ text, write style (level + 1) f.2 = .ok text) :
    ∃ text, write style level (.record fields) = .ok text := by
  rw [write, writeFields_eq_map]
  generalize same : (if style.sorted then List.mergeSort _ _ else _) = parts
  have written : ∀ p ∈ parts, ∃ text, p.2 = .ok text := by
    intro p hp
    have origin : p ∈ fields.map fun f => (f.1, write style (level + 1) f.2) := by
      subst same
      split at hp
      · exact List.mem_mergeSort.1 hp
      · exact hp
    obtain ⟨f, hf, rfl⟩ := List.mem_map.1 origin
    exact each f hf
  have joined : ∃ lines, (parts.mapM fun p =>
      p.2.map fun text => writeText style.ascii p.1 ++ ':' :: ' ' :: text) = .ok lines := by
    apply mapM_ok
    intro p hp
    obtain ⟨text, h⟩ := written p hp
    exact ⟨_, by rw [h]; rfl⟩
  obtain ⟨lines, h⟩ := joined
  exact ⟨_, by rw [h]; rfl⟩

theorem IsDocument.write_ok {v : Value} (held : IsDocument v) (style : Style) (level : Nat) :
    ∃ text, write style level v = .ok text := by
  induction held generalizing level with
  | int short => exact ⟨_, by rw [write, if_neg (Nat.not_le_of_lt short)]⟩
  | list held ih =>
      obtain ⟨parts, h⟩ := writeItems_ok fun v hv => ih v hv (level + 1)
      exact ⟨_, by rw [write, h]; rfl⟩
  | record nodup settled held ih => exact write_record_ok fun f hf => ih f hf (level + 1)
  | _ => exact ⟨_, rfl⟩

/-- A record is written if its values are, whatever its keys are. -/
theorem render_record_ok (style : Style) {fields : Fields}
    (each : ∀ f ∈ fields, ∀ level, ∃ text, write style level f.2 = .ok text) :
    ∃ text, render style (.record fields) = .ok text := by
  obtain ⟨text, h⟩ := write_record_ok fun f hf => each f hf 1
  exact ⟨_, by rw [render, h]; rfl⟩

end Json

end ActionEngine
