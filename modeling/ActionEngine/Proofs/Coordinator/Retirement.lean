import ActionEngine.Proofs.Coordinator.Consistency

/-!
# Retired runs

A newer run, a cancellation, and resolving the suggestion retire the run that is active.
From then on its invocation changes neither the lifecycle nor the events: a late reply
or failure ends as superseded, and a stream just ends. So whatever result is published
belongs to the run that began last.
-/

namespace ActionEngine.Coordinator

/-- A move that retires the runs begun before it: a newer run begins, the suggestion is
    accepted with its text, rejected or cleared, or the active run is cancelled. -/
def Floor.Retires (s : Setting) (f : Floor) : Move → Prop
  | .control .accept task =>
      ∃ text, Output.replied (.text (some text)) ∈ (f.step s (.control .accept task)).2
  | .control .reject _ => True
  | .control .clear _ => True
  | .control .cancel _ => True
  | m => f.desk.nextRun < (f.step s m).1.desk.nextRun

/-- No run numbered below a bound is active, or will begin. -/
structure View.Past (v : View) (bound : Nat) : Prop where
  begun : bound ≤ v.nextRun
  active : ∀ run, v.active = some run → bound ≤ run.number

/-- Two views of which the second has no earlier run activated again. -/
def View.Renews (v v' : View) : Prop :=
  v.nextRun ≤ v'.nextRun ∧
    ∀ run, v'.active = some run → v.active = some run ∨ v.nextRun ≤ run.number

theorem View.Past.renews {v v' : View} {bound : Nat} (past : v.Past bound)
    (renews : v.Renews v') : v'.Past bound := by
  refine ⟨Nat.le_trans past.begun renews.1, ?_⟩
  intro run active
  rcases renews.2 run active with before | fresh
  · exact past.active run before
  · exact Nat.le_trans past.begun fresh

theorem View.controlled_renews (s : Setting) (v : View) (c : Control) :
    v.Renews (v.controlled s c).1 := by
  rcases v.controlled_cases s c with h | h | h
  · rw [h]
    exact ⟨Nat.le_refl _, fun run active => .inl active⟩
  · rw [h]
    refine ⟨by simp, ?_⟩
    intro run active
    rw [View.dismissed_active] at active
    cases active
  · rw [h]
    refine ⟨by simp, ?_⟩
    intro run active
    rw [View.aborted_active] at active
    cases active

namespace Floor

variable {s : Setting} {f g : Floor} {m : Move} {outputs : List Output}

theorem Steps.renews (steps : f.Steps s m g outputs) (consistent : f.Consistent) :
    f.desk.view.Renews g.desk.view := by
  cases steps with
  | absent => exact ⟨Nat.le_refl _, fun run active => .inl active⟩
  | taken hplace hold turn =>
      have admissible := turn.admissible consistent.flag consistent.newest
        (consistent.fits _ _ hold)
      exact ⟨admissible.grows, admissible.renewed⟩
  | started turn =>
      have admissible := turn.admissible consistent.flag consistent.newest trivial
      exact ⟨admissible.grows, admissible.renewed⟩
  | made i => exact ⟨Nat.le_refl _, fun run active => .inl active⟩
  | controlled c task view replies =>
      rw [view]
      exact f.desk.view.controlled_renews s c

/-- A run that was retired stays so, whatever moves follow. -/
theorem past_run (calm : s.Calm) {bound : Nat} (moves : List Move) (consistent : f.Consistent)
    (past : f.desk.view.Past bound) : (f.run s moves).desk.view.Past bound := by
  induction moves generalizing f with
  | nil => exact past
  | cons m moves ih =>
      have steps := step_steps calm consistent.fits m
      exact ih (consistent.of_steps steps) (past.renews (steps.renews consistent))

/-- A control that retires leaves no run active. -/
theorem Retires.vacant (calm : s.Calm) {c : Control} {task : Option Nat}
    (retires : f.Retires s (.control c task)) :
    (f.step s (.control c task)).1.desk.view.active = none := by
  obtain ⟨view, replies⟩ := Desk.view_control calm { f.desk with current := task } c
  have after : (f.step s (.control c task)).1.desk.view = (f.desk.view.controlled s c).1 := view
  rw [after]
  cases c with
  | accept =>
      obtain ⟨text, shown⟩ := retires
      have shown : (f.desk.view.controlled s .accept).2 = .text (some text) := by
        have := List.mem_singleton.1 shown
        injection this with this
        exact replies.symm.trans this.symm
      unfold View.controlled at shown ⊢
      dsimp only at shown ⊢
      split at shown
      · cases shown
      · exact View.dismissed_active s f.desk.view
  | reject => simp [View.controlled]
  | clear => simp [View.controlled]
  | cancel => simp [View.controlled]

/-- After a retiring move every run begun before it is past. -/
theorem Retires.past (calm : s.Calm) (consistent : f.Consistent) (retires : f.Retires s m) :
    (f.step s m).1.desk.view.Past f.desk.nextRun := by
  have steps := step_steps calm consistent.fits m
  have begun : f.desk.nextRun ≤ (f.step s m).1.desk.nextRun := (steps.renews consistent).1
  refine ⟨begun, ?_⟩
  intro run active
  by_cases newer : f.desk.nextRun < (f.step s m).1.desk.nextRun
  · have newest := (consistent.step calm m).newest run active
    change run.number + 1 = (f.step s m).1.desk.nextRun at newest
    omega
  · -- No run begins, so the move is a control.
    cases m with
    | control c task =>
        rw [retires.vacant calm] at active
        cases active
    | _ => exact absurd retires newer

end Floor

/-! ### Turns of retired runs -/

theorem Turn.of_stale {s : Setting} {v v' : View} {m : Move} {old new : Stage}
    {outputs : List Output} (turn : Turn s v m old v' new outputs) {run : Run}
    (hrun : old.run? = some run) (stale : v.active ≠ some run) :
    v' = v ∧ old.Late v m outputs := by
  cases turn with
  | ignored late => exact ⟨rfl, late⟩
  | dropped _ before late => exact ⟨rfl, late⟩
  | refused before after shows =>
      rw [before] at hrun
      cases hrun
  | begun action task before begins requests =>
      rw [before] at hrun
      cases hrun
  | kept task current before =>
      rcases before with ⟨t, rfl⟩ | rfl <;> cases hrun <;> exact absurd current stale
  | shown place chunk current move nonempty permitted =>
      cases hrun
      exact absurd current stale
  | ended place current move permitted =>
      cases hrun
      exact absurd current stale
  | answered place text id current move permitted =>
      cases hrun
      exact absurd current stale
  | failed closing current before move closes permitted =>
      rw [before] at hrun
      cases hrun
      exact absurd current stale
  | left current before shows =>
      rw [before] at hrun
      cases hrun
      exact absurd current stale

namespace Floor

variable {s : Setting} {f g : Floor} {m : Move}

/-- A turn of a run that is past leaves the desk as others see it. -/
theorem step_of_past (calm : s.Calm) (consistent : f.Consistent) {bound place : Nat}
    (past : f.desk.view.Past bound) {stage : Stage} {run : Run} (hplace : m.place? = some place)
    (hstage : f.stages[place]? = some stage) (hrun : stage.run? = some run)
    (early : run.number < bound) :
    (f.step s m).1.desk.view = f.desk.view ∧ stage.Late f.desk.view m (f.step s m).2 := by
  have stale : f.desk.view.active ≠ some run := by
    intro active
    exact absurd early (Nat.not_lt.2 (past.active run active))
  have turn := turn_isTurn calm f.desk m (consistent.fits place stage hstage)
  rw [step_eq_turn hplace hstage]
  exact turn.of_stale hrun stale

/-- A result that a move publishes comes from the active run, which takes its turn. -/
def Issues (f : Floor) (m : Move) : Event → Prop
  | .stateChanged _ current => current.IsResult → ∃ place stage run, m.place? = some place ∧
      f.stages[place]? = some stage ∧ stage.run? = some run ∧ f.desk.active = some run
  | _ => True

theorem Steps.publishes {outputs : List Output} (steps : f.Steps s m g outputs) :
    f.desk.view.Publishes g.desk.view (f.Issues m) := by
  cases steps with
  | absent => exact .of_events_eq rfl
  | @taken _ place old _ _ _ hplace hold turn =>
      refine turn.publishes.mono ?_
      intro e due
      cases e with
      | stateChanged previous current =>
          intro result
          obtain ⟨run, hrun, active⟩ := due.2 result
          exact ⟨place, old, run, hplace, hold, hrun, active⟩
      | _ => trivial
  | started turn =>
      refine turn.publishes.mono ?_
      intro e due
      cases e with
      | stateChanged previous current =>
          intro result
          obtain ⟨run, hrun, _⟩ := due.2 result
          cases hrun
      | _ => trivial
  | made i => exact .of_events_eq rfl
  | controlled c task view replies =>
      rw [view]
      refine (f.desk.view.controlled_publishes s c).mono ?_
      intro e idle
      cases e with
      | stateChanged previous current =>
          intro result
          rw [idle previous current rfl] at result
          exact result.elim
      | _ => trivial

/-- Once a move retires the runs begun before it, whatever happens in between, a turn of
    one of them changes neither the lifecycle nor the events: its single request ends as
    superseded or cancelled, its stream ends without another snapshot or an error; and once
    it is over, nothing can come of it. Every result that any move publishes comes from
    the run that began last. -/
theorem retired_run_stays_silent (calm : s.Calm) :
    (∀ (before : List Move) (retiring : Move) (after : List Move) (late : Move) (place : Nat)
        (stage : Stage) (run : Run),
      (Floor.run s {} before).Retires s retiring →
      run.number < (Floor.run s {} before).desk.nextRun →
      late.place? = some place →
      (Floor.run s {} (before ++ retiring :: after)).stages[place]? = some stage →
      stage.run? = some run →
        ((Floor.run s {} (before ++ retiring :: after)).step s late).1.desk.lifecycle =
            (Floor.run s {} (before ++ retiring :: after)).desk.lifecycle ∧
          ((Floor.run s {} (before ++ retiring :: after)).step s late).1.desk.events =
            (Floor.run s {} (before ++ retiring :: after)).desk.events ∧
          stage.Late (Floor.run s {} (before ++ retiring :: after)).desk.view late
            ((Floor.run s {} (before ++ retiring :: after)).step s late).2) ∧
      (∀ (moves : List Move) (late : Move) (place : Nat), late.place? = some place →
        (Floor.run s {} moves).stages[place]? = some .over →
          ((Floor.run s {} moves).step s late).1 = Floor.run s {} moves ∧
            ∀ o ∈ ((Floor.run s {} moves).step s late).2, o = .stopped ∨ o = .closed) ∧
      ∀ (moves : List Move) (m : Move), ∃ published : List Event,
        ((Floor.run s {} moves).step s m).1.desk.events =
            (Floor.run s {} moves).desk.events ++ published ∧
          ∀ previous current, Event.stateChanged previous current ∈ published →
            current.IsResult → ∃ place stage run, m.place? = some place ∧
              (Floor.run s {} moves).stages[place]? = some stage ∧ stage.run? = some run ∧
              (Floor.run s {} moves).desk.active = some run ∧
              run.number + 1 = (Floor.run s {} moves).desk.nextRun := by
  refine ⟨?_, ?_, ?_⟩
  · intro before retiring after late place stage run retires early hplace hstage hrun
    have consistent := Consistent.initial.run calm before
    have consistent' := Consistent.initial.run calm (before ++ retiring :: after)
    -- Being past is what the retiring move brings about, and every later one keeps.
    have past : (Floor.run s {} (before ++ retiring :: after)).desk.view.Past
        (Floor.run s {} before).desk.nextRun := by
      have split : Floor.run s {} (before ++ retiring :: after) =
          (((Floor.run s {} before).step s retiring).1).run s after := List.foldl_append
      rw [split]
      exact past_run calm after (consistent.step calm retiring) (retires.past calm consistent)
    obtain ⟨view, shows⟩ := step_of_past calm consistent' past hplace hstage hrun early
    exact ⟨congrArg View.lifecycle view, congrArg View.events view, shows⟩
  · intro moves late place hplace hstage
    exact step_over hplace hstage
  · intro moves m
    have consistent := Consistent.initial.run calm moves
    obtain ⟨published, hevents, issued⟩ := (step_steps calm consistent.fits m).publishes
    refine ⟨published, hevents, ?_⟩
    intro previous current member result
    obtain ⟨place, stage, run, hplace, hstage, hrun, active⟩ := issued _ member result
    exact ⟨place, stage, run, hplace, hstage, hrun, active, consistent.newest run active⟩

/-- A single request is cancelled, and its reply comes after all. -/
theorem cancelled_request_stays_silent :
    ((Floor.run {} {} [.execute { action := Builtin.improveClarity, selection := "Text" } 0,
        .control .cancel none]).step {} (.text 0 "Late")).1.desk.events =
      (Floor.run {} {} [.execute { action := Builtin.improveClarity, selection := "Text" } 0,
        .control .cancel none]).desk.events :=
  ((retired_run_stays_silent (s := {}) ⟨fun _ => rfl, rfl⟩).1
    [.execute { action := Builtin.improveClarity, selection := "Text" } 0]
    (.control .cancel none) [] (.text 0 "Late") 0
    (.waitingReply ⟨1, "rewrite.improve_clarity", 0⟩
      { action := Builtin.improveClarity, selection := "Text" } default)
    ⟨1, "rewrite.improve_clarity", 0⟩ trivial (by decide) rfl rfl rfl).2.1

end Floor

end ActionEngine.Coordinator
