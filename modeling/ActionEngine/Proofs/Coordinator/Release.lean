import ActionEngine.Proofs.Coordinator.Flag

/-!
# Streams that have ended

Whichever way a stream ends, its run is over: it is not active any more and will not be
again. There is one exception. A stream that is left from outside while its run is active
is closed first, and if closing it fails, the run is never finished.
-/

namespace ActionEngine.Coordinator

variable {s : Setting}

namespace View.Renews

variable {v v' v'' : View}

theorem refl (v : View) : v.Renews v :=
  ⟨Nat.le_refl _, fun _ h => .inl h⟩

theorem trans (first : v.Renews v') (second : v'.Renews v'') : v.Renews v'' := by
  refine ⟨Nat.le_trans first.1 second.1, ?_⟩
  intro run active
  rcases second.2 run active with before | fresh
  · exact first.2 run before
  · exact .inr (Nat.le_trans first.1 fresh)

theorem active_of (renews : v.Renews v') {run : Run} (begun : run.number < v.nextRun)
    (active : v'.active = some run) : v.active = some run := by
  rcases renews.2 run active with before | fresh
  · exact before
  · omega

end View.Renews

/-- The stage is one of a stream that has begun its run and is not over. -/
def Stage.Lasts (run : Run) : Stage → Prop
  | .waitingClose r _ _ => r = run
  | stage => stage.Streams run

theorem Stage.Lasts.streams_or_waits {stage : Stage} {run : Run} (lasts : stage.Lasts run) :
    stage.Streams run ∨ ∃ outputs task, stage = .waitingClose run outputs task := by
  cases stage with
  | waitingClose r outputs task =>
      obtain rfl : r = run := lasts
      exact .inr ⟨outputs, task, rfl⟩
  | _ => exact .inl lasts

theorem Stage.Lasts.run_eq {stage : Stage} {run : Run} (lasts : stage.Lasts run) :
    stage.run? = some run := by
  rcases lasts.streams_or_waits with streams | ⟨outputs, task, rfl⟩
  · exact streams.run_eq
  · rfl

/-- When a stream is over, its run is active only if it was active before and the provider's
    stream could not be closed. -/
theorem Course.active_iff_of_over {v v' : View} {m : Move} {old : Stage} {outputs : List Output}
    {run : Run} (course : Course s v m old v' .over outputs) (lasts : old.Lasts run) :
    v'.active = some run ↔ v.active = some run ∧ old.Fails s run m := by
  have own : ∀ r, old.Streams r → r = run := by
    intro r h
    exact Option.some.inj (h.run_eq.symm.trans lasts.run_eq)
  cases course with
  | ignored deaf shows => exact False.elim lasts
  | refused before early after shows =>
      rw [lasts.run_eq] at before
      cases before
  | begun task opens starts shows => exact False.elim lasts
  | concluded entered finishes => exact False.elim lasts
  -- A failure is shown first, which takes the run away however the stream closes.
  | failed streams current move entered finishes after shows =>
      have vacant := (finishes.vacates current entered).1
      obtain rfl := own _ streams
      rw [streams.fails_iff]
      constructor
      · intro active
        rw [vacant] at active
        cases active
      · rintro ⟨-, departs, -⟩
        rw [departs.fault?_eq_none] at move
        cases move
  | left streams departs leaves shows =>
      obtain rfl := own _ streams
      rw [leaves.active_iff, streams.fails_iff]
      exact ⟨fun h => ⟨h.1, departs, h.2⟩, fun h => ⟨h.1, h.2.2⟩⟩
  | dropped streams stale after shows =>
      obtain rfl := own _ streams
      exact ⟨fun active => absurd active stale, fun h => absurd h.1 stale⟩
  | shut place move finishes =>
      subst move
      obtain rfl := lasts
      constructor
      · intro active
        exact absurd active finishes.not_active
      · rintro ⟨-, fails⟩
        cases fails
  | unclosed fails shows => exact ⟨fun active => ⟨active, fails⟩, fun h => h.1⟩

namespace Floor

variable {f g : Floor} {m : Move} {outputs : List Output}

theorem Ordered.renews_run (ordered : f.Ordered) (s : Setting) (moves : List Move) :
    f.desk.view.Renews (f.run s moves).desk.view := by
  induction moves generalizing f with
  | nil => exact .refl _
  | cons m moves ih =>
      exact (step_advances s ordered.suits m).renews.trans (ih (ordered.step s m))

theorem Ordered.active_or_newer (ordered : f.Ordered) {place : Nat} {stage : Stage}
    {run active : Run} (hstage : f.stages[place]? = some stage) (hrun : stage.run? = some run)
    (hactive : f.desk.active = some active) : active = run ∨ run.number < active.number := by
  have begun := ordered.numbered place stage run hstage hrun
  have newest := ordered.newest active hactive
  by_cases same : run.number = active.number
  · exact .inl (ordered.named place stage run active hstage hrun hactive same).symm
  · right
    omega

theorem Ordered.active_iff_of_ended (ordered : f.Ordered) {place : Nat} {stage : Stage}
    {run : Run} (hstage : f.stages[place]? = some stage) (lasts : stage.Lasts run)
    (ended : (f.step s m).1.stages[place]? = some .over) :
    (f.step s m).1.desk.active = some run ↔
      f.desk.active = some run ∧ stage.Fails s run m := by
  have advances := step_advances s ordered.suits m
  rcases advances.at_place hstage with ⟨-, new, hnew, course⟩ | ⟨-, stays⟩
  · rw [ended] at hnew
    cases hnew
    exact course.active_iff_of_over lasts
  · rw [ended] at stays
    cases stays
    exact False.elim lasts

/-- The flag is up for a run, for a newer one, or for one that was revoked. -/
theorem processing_iff_of_active_or_newer (signals : f.desk.view.Signals s) {run : Run}
    (only : ∀ active, f.desk.active = some active → active = run ∨ run.number < active.number) :
    f.desk.processing = true ↔ f.desk.active = some run ∨
      (∃ newer, f.desk.active = some newer ∧ run.number < newer.number) ∨
        s.Revoked f.desk.events := by
  have flag : f.desk.processing = true ↔ f.desk.active.isSome ∨ s.Revoked f.desk.events :=
    signals.flag
  rw [flag, ← or_assoc, Option.isSome_iff_exists]
  refine or_congr_left ?_
  constructor
  · rintro ⟨active, hactive⟩
    rcases only active hactive with rfl | newer
    · exact .inl hactive
    · exact .inr ⟨active, hactive, newer⟩
  · rintro (hactive | ⟨newer, hactive, -⟩)
    · exact ⟨run, hactive⟩
    · exact ⟨newer, hactive⟩

/-- However a stream ends, and whatever the observers do: its run is not active any more,
    unless it was active until then and the provider's stream could not be closed; and it
    never becomes active again. From then on the flag is up exactly if that exception holds
    on, or a newer run is active, or the run that was announced last was revoked by an
    observer of its announcement. -/
theorem ended_stream_releases_run (before : List Move) (m : Move) (place : Nat) (stage : Stage)
    (run : Run) (hstage : (Floor.run s {} before).stages[place]? = some stage)
    (lasts : stage.Lasts run)
    (ended : ((Floor.run s {} before).step s m).1.stages[place]? = some .over) :
    let f := Floor.run s {} before
    let g := (f.step s m).1
    (g.desk.active = some run ↔ f.desk.active = some run ∧ stage.Fails s run m) ∧
      ∀ after : List Move,
        let h := g.run s after
        (h.desk.active = some run → g.desk.active = some run) ∧
          (h.desk.processing = true ↔ h.desk.active = some run ∨
            (∃ newer, h.desk.active = some newer ∧ run.number < newer.number) ∨
              s.Revoked h.desk.events) := by
  intro f g
  have ordered : f.Ordered := ordered_run s before
  have signals : f.desk.view.Signals s :=
    signals_run (signals_initial s) Coordinator.Ordered.initial before
  have advances : f.Advances s m g (f.step s m).2 := step_advances s ordered.suits m
  have ordered' : g.Ordered := ordered.step s m
  -- A run begun later has a higher number, so this one does not come back.
  have begun : run.number < f.desk.view.nextRun :=
    ordered.numbered place stage run hstage lasts.run_eq
  refine ⟨ordered.active_iff_of_ended hstage lasts ended, ?_⟩
  intro after h
  have renews : g.desk.view.Renews h.desk.view := ordered'.renews_run s after
  refine ⟨renews.active_of (Nat.lt_of_lt_of_le begun advances.renews.1), ?_⟩
  apply processing_iff_of_active_or_newer (signals_run (advances.signals signals) ordered' after)
  intro active hactive
  rcases (advances.renews.trans renews).2 active hactive with earlier | fresh
  · exact ordered.active_or_newer hstage lasts.run_eq earlier
  · exact .inr (Nat.lt_of_lt_of_le begun fresh)

def unclosable : Setting where
  closing _ := .raises (.system .runtime (some "aclose failed"))

def opened : List Move :=
  [.stream { action := Builtin.makeConcise, selection := "Some text" }, .pull 0 0, .text 0 "Text"]

theorem unclosable_stream_keeps_run :
    ((Floor.run unclosable {} opened).step unclosable (.close 0 0)).1.desk.active =
      some ⟨1, "rewrite.make_concise", 0⟩ :=
  (ended_stream_releases_run opened (.close 0 0) 0
    (.shown ⟨1, "rewrite.make_concise", 0⟩
      ⟨"suggestion-1", "Some text", "Text", Builtin.makeConcise, default, true⟩)
    ⟨1, "rewrite.make_concise", 0⟩ rfl rfl rfl).1.2 ⟨rfl, trivial, _, rfl⟩

/-- A stream that cannot be closed leaves its run active and the flag up when its iterator
    is closed. A run that is revoked when it is announced leaves the flag up when its stream
    is over. -/
theorem ended_stream_keeps_flag_up :
    (((Floor.run unclosable {} opened).step unclosable (.close 0 0)).1.stages = [.over] ∧
        ((Floor.run unclosable {} opened).step unclosable (.close 0 0)).1.desk.active =
          some ⟨1, "rewrite.make_concise", 0⟩ ∧
        ((Floor.run unclosable {} opened).step unclosable (.close 0 0)).1.desk.processing = true) ∧
      (Floor.run impatient {} opened).stages = [.over] ∧
        (Floor.run impatient {} opened).desk.active = none ∧
        (Floor.run impatient {} opened).desk.processing = true :=
  ⟨⟨rfl, rfl, rfl⟩, rfl, rfl, rfl⟩

end Floor

end ActionEngine.Coordinator
