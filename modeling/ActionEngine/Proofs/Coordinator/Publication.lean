import ActionEngine.Proofs.Coordinator.Step

/-!
# What a turn publishes and raises

A turn adds events behind the ones there are. The changes of state among them are
permitted ones, and a result is published only by the active run. Errors that a turn
raises are never about a refused change of state, unless the provider raised that error.
-/

namespace ActionEngine

def Lifecycle.State.IsResult : State → Prop
  | ready _ => True
  | failed _ => True
  | _ => False

namespace Coordinator

/-! ### What is published -/

/-- The second view has the events of the first, and behind them some of a kind. -/
def View.Publishes (v v' : View) (P : Event → Prop) : Prop :=
  ∃ published, v'.events = v.events ++ published ∧ ∀ e ∈ published, P e

namespace View.Publishes

variable {s : Setting} {v v' v'' : View} {P Q : Event → Prop}

theorem of_events_eq (h : v'.events = v.events) : v.Publishes v' P :=
  ⟨[], by rw [h, List.append_nil], by simp⟩

theorem trans (first : v.Publishes v' P) (second : v'.Publishes v'' P) : v.Publishes v'' P := by
  obtain ⟨early, hearly, pearly⟩ := first
  obtain ⟨late, hlate, plate⟩ := second
  refine ⟨early ++ late, by rw [hlate, hearly, List.append_assoc], ?_⟩
  intro e he
  exact (List.mem_append.1 he).elim (pearly e) (plate e)

theorem mono (h : v.Publishes v' P) (hPQ : ∀ e, P e → Q e) : v.Publishes v' Q := by
  obtain ⟨published, hevents, hP⟩ := h
  exact ⟨published, hevents, fun e he => hPQ e (hP e he)⟩

theorem heard {e : Event} (h : P e) : ∀ e' ∈ s.heard e, P e' := by
  intro e' he'
  unfold Setting.heard at he'
  split at he'
  · cases he'
  · exact List.mem_singleton.1 he' ▸ h

theorem entered {next : Lifecycle.State} (h : P (.stateChanged v.lifecycle.state next)) :
    v.Publishes (v.entered s next) P :=
  ⟨_, rfl, heard h⟩

theorem flagged {on : Bool} (h : P (.processingChanged on)) : v.Publishes (v.flagged s on) P := by
  refine ⟨_, rfl, ?_⟩
  split
  · simp
  · exact heard h

theorem vacated (h : P (.processingChanged false)) : v.Publishes (v.vacated s) P :=
  (flagged (v := { v with active := none }) h : _)

theorem begun {action : Action} {task : Nat}
    (h : P (.stateChanged v.lifecycle.state (.loading action)))
    (hflag : P (.processingChanged true)) : v.Publishes (v.begun s action task) P :=
  trans (entered (v := { v with nextRun := _, active := _ }) h) (flagged hflag)

theorem released (h : P (.processingChanged false)) : v.Publishes (v.released s) P := by
  unfold View.released
  split
  · exact vacated h
  · exact of_events_eq rfl

theorem dismissed (h : P (.stateChanged v.lifecycle.state .idle))
    (hflag : P (.processingChanged false)) : v.Publishes (v.dismissed s) P := by
  unfold View.dismissed
  split
  · exact released hflag
  · exact trans (released hflag) (entered (by simpa using h))

theorem aborted (h : P (.processingChanged false)) : v.Publishes (v.aborted s) P := by
  unfold View.aborted
  split
  · exact of_events_eq rfl
  · exact (vacated (v := { v with cancelled := _ }) h : _)

end View.Publishes

/-- An event that an invocation may publish: changes of state are permitted, and a result
    comes from the active run. -/
def Due (v : View) (old : Stage) : Event → Prop
  | .stateChanged previous current =>
      previous.check current = .ok () ∧
        (current.IsResult → ∃ run, old.run? = some run ∧ v.active = some run)
  | _ => True

theorem Turn.publishes {s : Setting} {v v' : View} {m : Move} {old new : Stage}
    {outputs : List Output} (turn : Turn s v m old v' new outputs) :
    v.Publishes v' (Due v old) := by
  cases turn with
  | ignored late => exact .of_events_eq rfl
  | refused before after shows => exact .of_events_eq rfl
  | begun action task before begins requests =>
      refine .begun ⟨?_, fun h => h.elim⟩ trivial
      cases v.lifecycle.state <;> rfl
  | kept task current before => exact .of_events_eq rfl
  | shown place chunk current move nonempty permitted =>
      exact .entered ⟨permitted, fun _ => ⟨_, rfl, current⟩⟩
  | ended place current move permitted =>
      exact .trans (.entered ⟨permitted, fun _ => ⟨_, rfl, current⟩⟩) (.vacated trivial)
  | answered place text id current move permitted =>
      exact .trans (.entered ⟨permitted, fun _ => ⟨_, rfl, current⟩⟩) (.vacated trivial)
  | failed closing current before move closes permitted =>
      exact .trans (.entered ⟨permitted, fun _ => ⟨_, before, current⟩⟩) (.vacated trivial)
  | left current before shows => exact .vacated trivial
  | dropped stale before late => exact .of_events_eq rfl

/-- A control publishes a return to the idle state and the end of processing, at most. -/
theorem View.controlled_publishes (s : Setting) (v : View) (c : Control) :
    v.Publishes (v.controlled s c).1 fun e =>
      ∀ previous current, e = .stateChanged previous current → current = .idle := by
  rcases v.controlled_cases s c with h | h | h
  · rw [h]
    exact .of_events_eq rfl
  · rw [h]
    refine .dismissed ?_ ?_
    · rintro previous current ⟨⟩
      rfl
    · rintro previous current ⟨⟩
  · rw [h]
    refine .aborted ?_
    rintro previous current ⟨⟩

/-! ### What is raised -/

theorem failure_eq_of_kind {fault : Fault}
    (kind : (Desk.failure fault).1.kind = .invalidTransition) :
    fault = .engine (Desk.failure fault).1 := by
  cases fault with
  | engine error => rfl
  | _ => cases kind

theorem Stage.Late.not_invalid {v : View} {m : Move} {old : Stage} {outputs : List Output}
    (late : old.Late v m outputs) {error : EngineError} {cause : Option Fault}
    (h : Output.raised (.engine error) cause ∈ outputs) : error.kind ≠ .invalidTransition := by
  cases old with
  | waitingReply run i target =>
      cases m with
      | text place text =>
          rw [late] at h
          cases List.mem_singleton.1 h
          exact EngineError.Kind.noConfusion
      | fail place fault =>
          rw [late] at h
          cases List.mem_singleton.1 h
          exact EngineError.Kind.noConfusion
      | interrupt place =>
          rw [late] at h
          cases List.mem_singleton.1 h
      | _ =>
          rw [late] at h
          cases h
  | _ => rcases late _ h with h | h | h | h <;> cases h

/-- An invalid transition is raised by the provider only: the coordinator attempts none. -/
theorem Turn.fault_of_invalid {s : Setting} {v v' : View} {m : Move} {old new : Stage}
    {outputs : List Output} (turn : Turn s v m old v' new outputs) {error : EngineError}
    {cause : Option Fault} (h : Output.raised (.engine error) cause ∈ outputs)
    (kind : error.kind = .invalidTransition) : m.fault? = some (.engine error) := by
  cases turn with
  | ignored late => exact absurd kind (late.not_invalid h)
  | dropped stale before late => exact absurd kind (late.not_invalid h)
  | refused before after shows => exact absurd kind ((shows _ h).2 error rfl)
  | begun action task before begins requests =>
      obtain ⟨system, user, budget, rfl | rfl⟩ := requests <;> cases List.mem_singleton.1 h
  | kept task current before => cases h
  | shown place chunk current move nonempty permitted => cases List.mem_singleton.1 h
  | ended place current move permitted =>
      rcases List.mem_cons.1 h with h | h
      · cases h
      · cases List.mem_singleton.1 h
  | answered place text id current move permitted => cases List.mem_singleton.1 h
  | failed closing current before move closes permitted =>
      rcases List.mem_append.1 h with h | h
      · cases closes _ h
      · cases List.mem_singleton.1 h
        rw [move, ← failure_eq_of_kind kind]
  | left current before shows => rcases shows _ h with h | h | h <;> cases h

end Coordinator

end ActionEngine
