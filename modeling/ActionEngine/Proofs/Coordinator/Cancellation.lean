import ActionEngine.Proofs.Coordinator.Consistency
import ActionEngine.Proofs.Coordinator.Uninterrupted

/-!
# Cancellation leaves the suggestion alone

A run can be ended from outside in three ways: it is cancelled at the desk, the task that
waits for it is cancelled, or its iterator is closed. Each takes the run away if it is the
active one, and lowers the flag; a run that was retired before takes nothing away. None of
them touches the lifecycle.
-/

namespace ActionEngine.Coordinator

/-- The run that a move ends from outside: a cancelled task ends the request or the stream
    that waits in it, and closing its iterator ends a stream that rests at a snapshot. -/
def Stage.withdrawn? (m : Move) : Stage → Option Run
  | .waitingReply run _ _ => match m with
      | .interrupt _ => some run
      | _ => none
  | .waitingChunk run _ _ => match m with
      | .interrupt _ => some run
      | _ => none
  | .shown run _ => match m with
      | .close .. => some run
      | _ => none
  | .shownLast run => match m with
      | .close .. => some run
      | _ => none
  | _ => none

/-- The active run is taken away from a desk if it is this one, and nothing else happens. -/
structure View.Withdraws (s : Setting) (run? : Option Run) (v v' : View) : Prop where
  lifecycle : v'.lifecycle = v.lifecycle
  runs : (∃ run, run? = some run ∧ v.active = some run ∧ v'.active = none ∧
      v'.processing = false ∧ v'.events = v.events ++ s.heard (.processingChanged false)) ∨
    (∀ run, run? = some run → v.active ≠ some run) ∧ v'.active = v.active ∧
      v'.processing = v.processing ∧ v'.events = v.events

variable {s : Setting}

namespace View.Withdraws

variable {v : View} {run : Run}

theorem none (s : Setting) (v : View) : v.Withdraws s .none v :=
  ⟨rfl, .inr ⟨by simp, rfl, rfl, rfl⟩⟩

theorem vacated (flag : v.processing = v.active.isSome) (current : v.active = some run) :
    v.Withdraws s (some run) (v.vacated s) := by
  refine ⟨rfl, .inl ⟨run, rfl, current, rfl, rfl, ?_⟩⟩
  -- The flag is up, so that lowering it is published.
  simp [View.vacated, View.flagged, flag, current]

theorem stale (gone : v.active ≠ some run) : v.Withdraws s (some run) v := by
  refine ⟨rfl, .inr ⟨?_, rfl, rfl, rfl⟩⟩
  intro r same
  cases same
  exact gone

end View.Withdraws

theorem Desk.finish_withdraws (calm : s.Calm) {d : Desk} (run : Run)
    (flag : d.view.processing = d.view.active.isSome) :
    d.view.Withdraws s (some run) (d.finish s.tell run).view := by
  rw [view_finish calm]
  by_cases current : d.view.active = some run
  · rw [if_pos current]
    exact .vacated flag current
  · rw [if_neg current]
    exact .stale current

namespace Floor

variable {f : Floor} {m : Move} {place : Nat} {stage : Stage}

/-- Whatever stage an invocation is left at from outside, at most its run is taken away. -/
theorem departure_withdraws (calm : s.Calm) (flag : f.desk.processing = f.desk.active.isSome)
    (departs : m.Departs) (hplace : m.place? = some place) (hold : f.stages[place]? = some stage)
    (fits : stage.Fits f.desk.view) :
    f.desk.view.Withdraws s (stage.withdrawn? m) (f.step s m).1.desk.view := by
  have finished (task : Nat) (run : Run) :
      f.desk.view.Withdraws s (some run) ((f.deskFor task).finish s.tell run).view :=
    Desk.finish_withdraws calm (d := f.deskFor task) run flag
  rw [step_eq_turn hplace hold]
  change f.desk.view.Withdraws s (stage.withdrawn? m) (m.turn s f.desk stage).1.view
  cases m with
  | interrupt p =>
      cases stage with
      | waitingReply run i target => exact finished run.task run
      | waitingChunk run snapshot task =>
          simp only [Move.turn, interruptStream, leave_quiet calm]
          exact finished task run
      | waitingClose run outputs task => exact fits.elim
      | _ => exact .none s _
  | close p task =>
      cases stage with
      | shown run snapshot =>
          simp only [Move.turn, leave_quiet calm]
          exact finished task run
      | shownLast run =>
          simp only [Move.turn, leave_quiet calm]
          exact finished task run
      | waitingClose run outputs task => exact fits.elim
      | _ => exact .none s _
  | _ => exact departs.elim

/-! ### Cancelling at the desk -/

theorem cancel_withdraws (calm : s.Calm) (flag : f.desk.processing = f.desk.active.isSome)
    (task : Option Nat) :
    f.desk.view.Withdraws s f.desk.active (f.step s (.control .cancel task)).1.desk.view := by
  have view : (f.step s (.control .cancel task)).1.desk.view = f.desk.view.aborted s :=
    (Desk.view_control calm { f.desk with current := task } .cancel).1
  have same : f.desk.active = f.desk.view.active := rfl
  rw [view, same]
  unfold View.aborted
  cases active : f.desk.view.active with
  | none => exact .none s _
  | some run =>
      have vacated : f.desk.view.Withdraws s (some run) (f.desk.view.vacated s) :=
        .vacated flag active
      exact ⟨vacated.lifecycle, vacated.runs⟩

end Floor

namespace Desk

theorem stopping_askToStop (d : Desk) (task : Nat) :
    (d.askToStop task).stopping = d.stopping ++ [task].filter (d.current ≠ some ·) := by
  unfold askToStop
  by_cases own : d.current = some task
  · simp [own]
  · simp [own]

theorem retire_tasks (silent : ∀ events, s.react events = []) (d : Desk) :
    (d.retire s.tell).stopping = d.stopping ∧ (d.retire s.tell).current = d.current := by
  unfold retire setProcessing
  cases d.active with
  | none => exact ⟨rfl, rfl⟩
  | some run =>
      dsimp only
      split
      · exact ⟨rfl, rfl⟩
      · rw [tell_eq silent]
        split <;> exact ⟨rfl, rfl⟩

/-- Cancelling asks the task of the active run to stop, unless it is the one that cancels. -/
theorem stopping_cancel (silent : ∀ events, s.react events = []) (d : Desk) :
    (d.cancel s.tell).1.stopping =
      d.stopping ++ (d.active.toList.map Run.task).filter (d.current ≠ some ·) := by
  unfold cancel
  cases active : d.active with
  | none => simp [remark]
  | some run =>
      dsimp only
      rw [stopping_askToStop, (retire_tasks silent _).1, (retire_tasks silent _).2]
      rfl

end Desk

namespace Floor

/-- In every reachable state, while observers only record and streams are closed at once:
    cancelling at the desk, cancelling a task that waits, and closing an iterator leave the
    lifecycle as it is and publish at most that processing is over. If the run concerned is
    the active one, no run is active afterwards and the flag is down; else both are as before.
    Cancelling at the desk says whether a run was active, and asks its task to stop unless
    that is the task that cancels. -/
theorem cancellation_spares_suggestion (calm : s.Calm) (moves : List Move) :
    let f := Floor.run s {} moves
    (∀ task : Option Nat,
        let g := (f.step s (.control .cancel task)).1
        g.desk.lifecycle = f.desk.lifecycle ∧
          g.desk.events = f.desk.events ++
            (if f.desk.active.isSome then s.heard (.processingChanged false) else []) ∧
          g.desk.active = none ∧ g.desk.processing = false ∧ g.stages = f.stages ∧
          (f.step s (.control .cancel task)).2 = [.replied (.flag f.desk.active.isSome)] ∧
          g.desk.stopping =
            f.desk.stopping ++ (f.desk.active.toList.map Run.task).filter (task ≠ some ·)) ∧
      ∀ (m : Move) (place : Nat) (stage : Stage), m.Departs → m.place? = some place →
        f.stages[place]? = some stage →
          let g := (f.step s m).1
          g.desk.lifecycle = f.desk.lifecycle ∧
            ((∃ run, stage.withdrawn? m = some run ∧ f.desk.active = some run ∧
                g.desk.active = none ∧ g.desk.processing = false ∧
                g.desk.events = f.desk.events ++ s.heard (.processingChanged false)) ∨
              (∀ run, stage.withdrawn? m = some run → f.desk.active ≠ some run) ∧
                g.desk.active = f.desk.active ∧ g.desk.processing = f.desk.processing ∧
                g.desk.events = f.desk.events) := by
  intro f
  have consistent : f.Consistent := Consistent.initial.run calm moves
  have flag : f.desk.processing = f.desk.active.isSome := consistent.flag
  constructor
  · intro task g
    have withdraws := cancel_withdraws calm flag task
    have replied : (f.step s (.control .cancel task)).2 =
        [.replied (.flag f.desk.active.isSome)] := by
      have reply := (Desk.view_control calm { f.desk with current := task } .cancel).2
      exact congrArg (fun r => [Output.replied r]) reply
    refine ⟨withdraws.lifecycle, ?_⟩
    have stopping := Desk.stopping_cancel calm.silent { f.desk with current := task }
    rcases withdraws.runs with ⟨run, active, -, vacant, down, events⟩ | ⟨idle, same, kept, events⟩
    · refine ⟨?_, vacant, down, rfl, replied, stopping⟩
      rw [active]
      exact events
    · -- The active run would be the one concerned, so there is none.
      have vacant : f.desk.active = none := by
        cases active : f.desk.active with
        | none => rfl
        | some run => exact absurd active (idle run active)
      have down : f.desk.processing = false := by simp [flag, vacant]
      refine ⟨?_, same.trans vacant, kept.trans down, rfl, replied, stopping⟩
      have unchanged : g.desk.events = f.desk.events := events
      simp [unchanged, vacant]
  · intro m place stage departs hplace hold g
    have withdraws := departure_withdraws calm flag departs hplace hold
      (consistent.fits place stage hold)
    exact ⟨withdraws.lifecycle, withdraws.runs⟩

/-- A stream that shows its first chunk is cancelled by its own task, or its iterator is closed,
    while the request that it superseded still waits. -/
theorem shown_chunk_outlives_cancellation :
    ({} : Setting).Calm ∧
      (Floor.run {} {} overlap).desk.active = some ⟨2, "rewrite.make_concise", 1⟩ ∧
      ((Floor.run {} {} overlap).step {} (.control .cancel (some 1))).1.desk.lifecycle =
        (Floor.run {} {} overlap).desk.lifecycle ∧
      ((Floor.run {} {} overlap).step {} (.control .cancel (some 1))).1.desk.stopping = [] ∧
      ((Floor.run {} {} overlap).step {} (.close 1 1)).1.desk.lifecycle =
        (Floor.run {} {} overlap).desk.lifecycle := by
  have calm : ({} : Setting).Calm := ⟨fun _ => rfl, rfl⟩
  obtain ⟨atDesk, outside⟩ := cancellation_spares_suggestion calm overlap
  obtain ⟨lifecycle, -, -, -, -, -, stopping⟩ := atDesk (some 1)
  have closed := outside (.close 1 1) 1 (.shown ⟨2, "rewrite.make_concise", 1⟩
    ⟨"suggestion-1", "Some text", "Text", Builtin.makeConcise, default, true⟩) trivial rfl rfl
  exact ⟨calm, rfl, lifecycle, stopping, closed.1⟩

end Floor

end ActionEngine.Coordinator
