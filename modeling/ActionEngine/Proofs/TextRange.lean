import ActionEngine.TextRange

/-!
# What is refused as a range

A value gives at most two parts, which are converted to whole numbers one after the other. A
value that describes no range is refused, with one exception: an infinite number that gets its
turn is too large for the conversion, and the fault of that is passed on as it is. In no case
is the fault an error of the engine.
-/

namespace ActionEngine

/-! ### Faults of a kind -/

/-- A result that, if it is a fault, is one with a property. -/
def FailsOnly {α : Type} (P : Fault → Prop) (result : Except Fault α) : Prop :=
  ∀ fault, result = .error fault → P fault

section FailsOnly

variable {α β : Type} {P : Fault → Prop}

theorem failsOnly_ok (a : α) : FailsOnly P (.ok a : Except Fault α) := by
  intro fault h
  cases h

theorem failsOnly_error_iff {fault : Fault} :
    FailsOnly P (.error fault : Except Fault α) ↔ P fault := by
  constructor
  · intro h
    exact h fault rfl
  · intro h other same
    cases same
    exact h

theorem failsOnly_bind_iff {result : Except Fault α} {next : α → Except Fault β} :
    FailsOnly P (result >>= next) ↔
      FailsOnly P result ∧ ∀ a, result = .ok a → FailsOnly P (next a) := by
  cases result with
  | ok a =>
      constructor
      · intro h
        refine ⟨failsOnly_ok a, ?_⟩
        rintro _ ⟨⟩
        exact h
      · rintro ⟨-, later⟩
        exact later a rfl
  | error fault =>
      constructor
      · intro h
        exact ⟨failsOnly_error_iff.2 (h fault rfl), by rintro _ ⟨⟩⟩
      · rintro ⟨first, -⟩
        exact failsOnly_error_iff.2 (first fault rfl)

/-- Of two steps the second one is only taken if the first one gives something. -/
theorem failsOnly_both_iff {γ : Type} {first : Except Fault α} {second : Except Fault β}
    {next : α → β → Except Fault γ} (last : ∀ a b, FailsOnly P (next a b)) :
    FailsOnly P (first >>= fun a => second >>= fun b => next a b) ↔
      FailsOnly P first ∧ ((∃ a, first = .ok a) → FailsOnly P second) := by
  rw [failsOnly_bind_iff]
  refine and_congr_right fun _ => ?_
  constructor
  · rintro h ⟨a, same⟩
    exact (failsOnly_bind_iff.1 (h a same)).1
  · intro h a same
    exact failsOnly_bind_iff.2 ⟨h ⟨a, same⟩, fun b _ => last a b⟩

end FailsOnly

/-- A value was refused, for what it is or for its kind. -/
def Fault.IsRefusal (fault : Fault) : Prop :=
  ∃ message, fault = .value message ∨ fault = .wrongKind message

theorem Fault.isRefusal_value (message : String) : (Fault.value message).IsRefusal :=
  ⟨message, .inl rfl⟩

theorem Fault.isRefusal_wrongKind (message : String) : (Fault.wrongKind message).IsRefusal :=
  ⟨message, .inr rfl⟩

def infinityFault : Fault :=
  .system .overflow (some "cannot convert float infinity to integer")

theorem not_isRefusal_infinityFault : ¬ infinityFault.IsRefusal := by
  rintro ⟨message, h | h⟩ <;> cases h

/-! ### Converting values -/

namespace Value

def isInfinite : Value → Bool
  | float (.infinite _) => true
  | _ => false

def Converts (v : Value) : Prop :=
  ∃ n, v.toInt = .ok n

theorem toInt_of_isInfinite {v : Value} (h : v.isInfinite) :
    v.toInt = .error infinityFault := by
  unfold isInfinite at h
  split at h
  · rfl
  · cases h

end Value

section Refusals

variable {P : Fault → Prop} (refusal : ∀ fault : Fault, fault.IsRefusal → P fault)

include refusal

theorem readInteger_failsOnly (v : Value) (s : List Char) : FailsOnly P (readInteger v s) := by
  unfold readInteger
  split
  · exact failsOnly_ok _
  · exact failsOnly_error_iff.2 (refusal _ (Fault.isRefusal_value _))
  · exact failsOnly_error_iff.2 (refusal _ (Fault.isRefusal_value _))

theorem Value.toInt_failsOnly_iff (v : Value) :
    FailsOnly P v.toInt ↔ (v.isInfinite → P infinityFault) := by
  cases infinite : v.isInfinite with
  | true =>
      rw [Value.toInt_of_isInfinite infinite, failsOnly_error_iff]
      simp
  | false =>
      refine iff_of_true ?_ (by simp)
      unfold Value.toInt
      split
      · exact failsOnly_ok _
      · exact failsOnly_ok _
      · exact failsOnly_error_iff.2 (refusal _ (Fault.isRefusal_value _))
      · cases infinite
      · exact failsOnly_ok _
      · exact readInteger_failsOnly refusal _ _
      · exact readInteger_failsOnly refusal _ _
      · exact failsOnly_error_iff.2 (refusal _ (Fault.isRefusal_wrongKind _))

end Refusals

namespace TextRange

/-- Converting two values one after the other meets an infinite number. -/
def Overflows (first second : Value) : Prop :=
  first.isInfinite ∨ first.Converts ∧ second.isInfinite

/-- The two parts that a value gives, in the order in which they are converted. -/
inductive Gives : Value → Value → Value → Prop
  | placed {fields : Fields} {location : Value} (found : fields.get? "location" = some location) :
      Gives (.record fields) location ((fields.get? "length").getD (.int 0))
  | spanned {fields : Fields} {start stop : Value} (unplaced : fields.get? "location" = none)
      (starts : fields.get? "start" = some start) (stops : fields.get? "end" = some stop)
      (filled : start ≠ .null ∧ stop ≠ .null) : Gives (.record fields) start stop
  | list (location length : Value) : Gives (.list [location, length]) location length
  | tuple (location length : Value) : Gives (.tuple [location, length]) location length

theorem overflows_imp_iff {first second : Value} {Q : Prop} :
    (first.isInfinite → Q) ∧ (first.Converts → second.isInfinite → Q) ↔
      (Overflows first second → Q) := by
  rw [Overflows, or_imp, and_imp]

theorem component_ok_iff {label : String} {v : Value} :
    (∃ n, component label v = .ok n) ↔ v.Converts := by
  unfold component Value.Converts
  cases v.toInt with
  | ok m => simp
  | error fault => split <;> simp_all

section Refusals

variable {P : Fault → Prop} (refusal : ∀ fault : Fault, fault.IsRefusal → P fault)

include refusal

theorem component_failsOnly_iff (label : String) (v : Value) :
    FailsOnly P (component label v) ↔ (v.isInfinite → P infinityFault) := by
  cases infinite : v.isInfinite with
  | true =>
      unfold component
      rw [Value.toInt_of_isInfinite infinite]
      exact failsOnly_error_iff.trans (by simp [infinityFault])
  | false =>
      refine iff_of_true ?_ (by simp)
      have converts : FailsOnly Fault.IsRefusal v.toInt :=
        (Value.toInt_failsOnly_iff (fun _ h => h) v).2 (by simp [infinite])
      unfold component
      split
      · exact failsOnly_ok _
      · next message overflow =>
        obtain ⟨other, same | same⟩ := converts _ overflow <;> cases same
      · exact failsOnly_error_iff.2 (refusal _ (Fault.isRefusal_value _))

theorem make_failsOnly_iff (location length : Value) :
    FailsOnly P (make location length) ↔ (Overflows location length → P infinityFault) := by
  unfold make
  rw [failsOnly_both_iff fun _ _ => failsOnly_ok _, component_failsOnly_iff refusal,
    component_failsOnly_iff refusal, component_ok_iff, overflows_imp_iff]

/-- The parts of a value settle which faults there can be. -/
theorem Gives.ofValue_failsOnly_iff {v first second : Value} (gives : Gives v first second) :
    FailsOnly P (ofValue v) ↔ (Overflows first second → P infinityFault) := by
  cases gives with
  | placed found =>
      simp only [ofValue, ofFields, found]
      exact make_failsOnly_iff refusal _ _
  | @spanned fields start stop unplaced starts stops filled =>
      have between_ok (m n : Int) : FailsOnly P (between m n) := failsOnly_ok _
      have read : ofValue (.record fields) =
          first.toInt >>= fun m => second.toInt >>= between m := by
        simp only [ofValue, ofFields, unplaced, starts, stops]
        split
        · exact absurd rfl filled.1
        · exact absurd rfl filled.2
        · rfl
      rw [read, failsOnly_both_iff between_ok, Value.toInt_failsOnly_iff refusal,
        Value.toInt_failsOnly_iff refusal]
      exact overflows_imp_iff
  | list => exact make_failsOnly_iff refusal _ _
  | tuple => exact make_failsOnly_iff refusal _ _

/-- A value without parts is a range already, or is refused. -/
theorem ofValue_failsOnly_of_partless {v : Value}
    (partless : ∀ first second, ¬ Gives v first second) : FailsOnly P (ofValue v) := by
  have refused (message : String) :
      FailsOnly P (.error (.value message) : Except Fault TextRange) :=
    failsOnly_error_iff.2 (refusal _ (Fault.isRefusal_value message))
  have items_refused {items : List Value} (h : ∀ a b, items ≠ [a, b]) :
      FailsOnly P (ofItems items) := by
    unfold ofItems
    split
    · exact absurd rfl (h _ _)
    · exact refused _
  unfold ofValue
  split
  · exact failsOnly_ok _
  · exact failsOnly_ok _
  · unfold ofFields
    split
    · next found => exact absurd (.placed found) (partless _ _)
    · next unplaced =>
      dsimp only
      split
      · next start stop starts stops =>
        split
        · exact refused _
        · exact refused _
        · next filled filled' =>
          refine absurd (.spanned unplaced starts stops ⟨?_, ?_⟩) (partless start stop)
          · rintro rfl
            exact filled rfl
          · rintro rfl
            exact filled' rfl
      · exact refused _
  · refine items_refused ?_
    rintro a b rfl
    exact partless _ _ (.list a b)
  · refine items_refused ?_
    rintro a b rfl
    exact partless _ _ (.tuple a b)
  · exact failsOnly_error_iff.2 (refusal _ (Fault.isRefusal_wrongKind _))

end Refusals

theorem ofValue_failsBySystem (v : Value) :
    FailsOnly (fun fault => ∃ kind message, fault = .system kind message) (ofValue v) := by
  have refusal (fault : Fault) (h : fault.IsRefusal) :
      ∃ kind message, fault = .system kind message := by
    obtain ⟨message, rfl | rfl⟩ := h
    · exact ⟨_, _, rfl⟩
    · exact ⟨_, _, rfl⟩
  by_cases given : ∃ first second, Gives v first second
  · obtain ⟨first, second, gives⟩ := given
    exact (gives.ofValue_failsOnly_iff refusal).2 fun _ => ⟨_, _, rfl⟩
  · rw [not_exists] at given
    exact ofValue_failsOnly_of_partless refusal fun first second gives =>
      given first ⟨second, gives⟩

/-- What overflows is reported as such. -/
theorem Gives.ofValue_of_overflows {v first second : Value} (gives : Gives v first second)
    (overflows : Overflows first second) : ofValue v = .error infinityFault := by
  have kinds : FailsOnly (fun fault => fault = infinityFault ∨ fault.IsRefusal) (ofValue v) :=
    (gives.ofValue_failsOnly_iff fun _ h => .inr h).2 fun _ => .inl rfl
  have unrefused : ¬ FailsOnly Fault.IsRefusal (ofValue v) := by
    intro refuses
    exact not_isRefusal_infinityFault
      ((gives.ofValue_failsOnly_iff fun _ h => h).1 refuses overflows)
  cases result : ofValue v with
  | ok r => exact absurd (result ▸ failsOnly_ok r) unrefused
  | error fault =>
      rcases kinds fault result with rfl | refusal
      · rfl
      · exact absurd (result ▸ failsOnly_error_iff.2 refusal) unrefused

theorem refuses_iff (v : Value) : FailsOnly Fault.IsRefusal (ofValue v) ↔
    ∀ first second, Gives v first second → ¬ Overflows first second := by
  constructor
  · intro refuses first second gives overflows
    have failed := gives.ofValue_of_overflows overflows
    exact not_isRefusal_infinityFault (refuses _ failed)
  · intro finite
    by_cases given : ∃ first second, Gives v first second
    · obtain ⟨first, second, gives⟩ := given
      exact (gives.ofValue_failsOnly_iff fun _ h => h).2 fun overflows =>
        absurd overflows (finite first second gives)
    · rw [not_exists] at given
      exact ofValue_failsOnly_of_partless (fun _ h => h) fun first second gives =>
        given first ⟨second, gives⟩

/-- A value gives a range, which stands for itself and has no negative part, or it is refused
    as a value or for its kind, exactly unless one of its parts is an infinite number that gets
    its turn: the first part, or the second one behind a first one that can be converted. The
    fault of the conversion is then passed on. -/
theorem range_or_refusal_iff (v : Value) :
    (((∃ r : TextRange, ofValue v = .ok r ∧ ofValue (.range r.location r.length) = .ok r ∧
          0 ≤ (r.location : Int) ∧ 0 ≤ (r.length : Int)) ∨
        ∃ message, ofValue v = .error (.value message) ∨
          ofValue v = .error (.wrongKind message)) ↔
      ∀ first second, Gives v first second → ¬ Overflows first second) ∧
    ∀ first second, Gives v first second → Overflows first second →
      ofValue v = .error (.system .overflow (some "cannot convert float infinity to integer")) := by
  refine ⟨?_, fun first second gives => gives.ofValue_of_overflows⟩
  rw [← refuses_iff]
  cases result : ofValue v with
  | ok r =>
      refine iff_of_true (.inl ⟨r, rfl, rfl, ?_, ?_⟩) (failsOnly_ok r)
      · exact Int.natCast_nonneg _
      · exact Int.natCast_nonneg _
  | error fault =>
      rw [failsOnly_error_iff]
      simp [Fault.IsRefusal]

/-- An infinite location is no refusal, although one that is no number is. -/
theorem infinite_location_overflows :
    ofValue (.list [.float (.infinite false), .int 0]) =
      .error (.system .overflow (some "cannot convert float infinity to integer")) ∧
    ofValue (.list [.float .nan, .int 0]) =
      .error (.value "TextRange location must be an integer") ∧
    ¬ ((∃ r : TextRange, ofValue (.list [.float (.infinite false), .int 0]) = .ok r) ∨
      ∃ message, ofValue (.list [.float (.infinite false), .int 0]) = .error (.value message) ∨
        ofValue (.list [.float (.infinite false), .int 0]) = .error (.wrongKind message)) := by
  refine ⟨rfl, rfl, ?_⟩
  rintro (⟨r, h⟩ | ⟨message, h | h⟩) <;> cases h

end TextRange

end ActionEngine
