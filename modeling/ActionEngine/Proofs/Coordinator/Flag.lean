import ActionEngine.Proofs.Coordinator.Advance
import Mathlib.Data.List.DropRight

/-!
# The processing flag

A run is announced before the flag is raised for it. If an observer answers the
announcement by more than accepting, the run is gone when the flag goes up, and nothing
takes the flag down again until another run begins. In every other case the flag is up
exactly while a run is active, whatever the observers do.
-/

namespace ActionEngine.Coordinator

/-- The events up to the last one that announces a run. -/
def announced (events : List Event) : List Event :=
  events.rdropWhile fun e => !e.announces

/-- An observer answered the last announcement of a run by more than accepting. -/
def Setting.Revoked (s : Setting) (events : List Event) : Prop :=
  announced events ≠ [] ∧ s.Revokes (announced events)

theorem announced_append {events quiet : List Event} (h : ∀ e ∈ quiet, e.announces = false) :
    announced (events ++ quiet) = announced events := by
  induction quiet using List.reverseRecOn with
  | nil => rw [List.append_nil]
  | append_singleton quiet e ih =>
      have silent : e.announces = false := h e (by simp)
      rw [← ih fun e' member => h e' (List.mem_append_left _ member), ← List.append_assoc]
      unfold announced
      exact List.rdropWhile_concat_pos _ _ _ (by simp [silent])

theorem announced_concat {e : Event} (h : e.announces = true) (events : List Event) :
    announced (events ++ [e]) = events ++ [e] := by
  unfold announced
  exact List.rdropWhile_concat_neg _ _ _ (by simp [h])

variable {s : Setting} {v v' : View}

theorem Setting.revoked_iff_of_quiet (quiet : v.Publishes v' fun e => e.announces = false) :
    s.Revoked v'.events ↔ s.Revoked v.events := by
  obtain ⟨published, hevents, silent⟩ := quiet
  unfold Setting.Revoked
  rw [hevents, announced_append silent]

theorem Setting.revoked_heard_iff {e : Event} (h : e.announces = true) (events : List Event) :
    s.Revoked (events ++ s.heard e) ↔ s.Revokes (events ++ [e]) := by
  unfold Setting.heard
  cases visible : s.handlers == 0 with
  | true =>
      -- Without handlers nobody revokes anything.
      have nobody : ∀ events, ¬s.Revokes events := by
        intro events revokes
        rw [revokes.1] at visible
        cases visible
      exact iff_of_false (fun revoked => nobody _ revoked.2) (nobody _)
  | false =>
      unfold Setting.Revoked
      rw [if_neg (by simp), announced_concat h]
      exact and_iff_right (by simp)

namespace View

/-- The flag is up exactly while a run is active, or the last one was revoked when it was
    announced. -/
structure Signals (s : Setting) (v : View) : Prop where
  flag : v.processing = true ↔ v.active.isSome ∨ s.Revoked v.events
  gone : s.Revoked v.events → v.active = none

namespace Signals

theorem of_quiet (signals : v.Signals s) (quiet : v.Publishes v' fun e => e.announces = false)
    (runs : v'.active = v.active ∧ v'.processing = v.processing ∨
      v.active.isSome ∧ v'.active = none ∧ v'.processing = false) : v'.Signals s := by
  have same : s.Revoked v'.events ↔ s.Revoked v.events := Setting.revoked_iff_of_quiet quiet
  rcases runs with ⟨active, flag⟩ | ⟨busy, vacant, down⟩
  · constructor
    · rw [active, flag, same]
      exact signals.flag
    · rw [active, same]
      exact signals.gone
  · have kept : ¬s.Revoked v'.events := by
      intro revoked
      rw [signals.gone (same.1 revoked)] at busy
      cases busy
    constructor
    · rw [vacant, down]
      simp [kept]
    · intro revoked
      exact vacant

theorem cedes (signals : v.Signals s) (cedes : v.Cedes v') : v'.Signals s :=
  signals.of_quiet (cedes.quiet.mono fun _ h => Event.announces_eq_false_of_settles h)
    (cedes.runs.imp_left fun h => ⟨h.1, h.2.1⟩)

theorem shows {w : View} {next : Lifecycle.State} (signals : v.Signals s)
    (entered : (v.entered s next).Cedes w) (result : next.IsResult) : w.Signals s := by
  have shown : (v.entered s next).Signals s := by
    refine signals.of_quiet (.entered ?_) (.inl ⟨rfl, rfl⟩)
    cases next with
    | ready suggestion => rfl
    | failed message => rfl
    | _ => exact result.elim
  exact shown.cedes entered

/-- When a run begins, the flag goes up, and the run is active unless it was revoked. -/
theorem of_starts {run : Run} {action : Action} (starts : v.Starts s run action v') :
    v'.Signals s := by
  obtain ⟨w, announced, vacates, raised⟩ := starts
  -- The flag goes up after the announcement, whatever became of the run meanwhile.
  have revoked : s.Revoked (w.flagged s true).events ↔ w.active = none := by
    have quiet := announced.quiet.mono fun _ h => Event.announces_eq_false_of_settles h
    rw [Setting.revoked_iff_of_quiet (.flagged rfl), Setting.revoked_iff_of_quiet quiet, vacates]
    exact Setting.revoked_heard_iff rfl v.events
  have up : (w.flagged s true).Signals s := by
    constructor
    · rw [revoked]
      cases h : w.active with
      | none => exact iff_of_true rfl (.inr rfl)
      | some r => exact iff_of_true rfl (.inl (congrArg Option.isSome h))
    · exact revoked.1
  exact up.cedes raised

end Signals

end View

theorem Course.signals {m : Move} {old new : Stage} {outputs : List Output}
    (course : Course s v m old v' new outputs) (signals : v.Signals s) : v'.Signals s := by
  -- Only the beginning of a run raises the flag. All other turns show a result at most, and
  -- take the run away together with the flag.
  cases course with
  | ignored deaf shows => exact signals
  | refused before early after shows => exact signals
  | begun task opens starts shows => exact .of_starts starts
  | concluded entered finishes =>
      rcases entered with rfl | ⟨-, next, result, entered⟩
      · exact signals.cedes finishes.cedes
      · exact (signals.shows entered result).cedes finishes.cedes
  | skipped place current move => exact signals
  | resumed task current => exact signals
  | shown place chunk current move nonempty entered =>
      exact signals.shows entered trivial
  | ended place current move entered finishes =>
      exact (signals.shows entered trivial).cedes finishes.cedes
  | failed streams current move entered finishes after shows =>
      exact (signals.shows entered trivial).cedes finishes.cedes
  | left streams departs leaves shows => exact signals.cedes leaves.cedes
  | dropped streams stale after shows => exact signals
  | shut place move finishes => exact signals.cedes finishes.cedes
  | unclosed fails shows => exact signals

namespace Floor

variable {f g : Floor} {m : Move} {outputs : List Output}

theorem Advances.signals (advances : f.Advances s m g outputs)
    (signals : f.desk.view.Signals s) : g.desk.view.Signals s := by
  cases advances with
  | absent => exact signals
  | taken hplace hold course => exact course.signals signals
  | started course => exact course.signals signals
  | made i => exact signals
  | controlled c task reply cedes => exact signals.cedes cedes

theorem signals_run (signals : f.desk.view.Signals s) (ordered : f.Ordered)
    (moves : List Move) : (f.run s moves).desk.view.Signals s := by
  induction moves generalizing f with
  | nil => exact signals
  | cons m moves ih =>
      exact ih ((step_advances s ordered.suits m).signals signals) (ordered.step s m)

theorem signals_initial (s : Setting) : ({} : Floor).desk.view.Signals s where
  flag := by
    have never : ¬s.Revoked [] := fun revoked => revoked.1 rfl
    exact iff_of_false Bool.false_ne_true (not_or.2 ⟨Bool.false_ne_true, never⟩)
  gone _ := rfl

/-- Whatever the observers do and however runs overlap, at every suspension point the flag
    is up exactly if a run is active, or if the run that was announced last was revoked by
    an observer of its announcement; then no run is active. So once every invocation has
    ended, and none because its stream could not be closed, the flag is up exactly in the
    second case. -/
theorem flag_up_iff (s : Setting) (moves : List Move) :
    ((Floor.run s {} moves).desk.processing = true ↔
        (∃ run, (Floor.run s {} moves).desk.active = some run) ∨
          s.Revoked (Floor.run s {} moves).desk.events) ∧
      (s.Revoked (Floor.run s {} moves).desk.events →
        (Floor.run s {} moves).desk.active = none) ∧
      (Floor.Closes s {} moves →
        (∀ stage ∈ (Floor.run s {} moves).stages, stage.run? = none) →
          ((Floor.run s {} moves).desk.processing = true ↔
            s.Revoked (Floor.run s {} moves).desk.events)) := by
  have signals := signals_run (signals_initial s) Coordinator.Ordered.initial moves
  have carries : Floor.Closes s {} moves → (Floor.run s {} moves).Carries :=
    Carries.run (fun run h => by cases h) Coordinator.Ordered.initial
  generalize Floor.run s {} moves = f at signals carries
  have flag : f.desk.processing = true ↔
      (∃ run, f.desk.active = some run) ∨ s.Revoked f.desk.events := by
    rw [← Option.isSome_iff_exists]
    exact signals.flag
  refine ⟨flag, signals.gone, ?_⟩
  -- An active run would belong to an invocation that has not ended.
  intro closes ended
  have idle : ¬∃ run, f.desk.active = some run := by
    rintro ⟨run, active⟩
    obtain ⟨place, stage, hstage, hrun⟩ := carries closes run active
    rw [ended stage (List.mem_of_getElem? hstage)] at hrun
    cases hrun
  rw [flag]
  exact or_iff_right idle

/-- An observer cancels every run as soon as it is announced. -/
def impatient : Setting where
  react events :=
    match events.getLast? with
    | some (.stateChanged _ (.loading _)) => [.cancel]
    | _ => []

/-- A single request, and the reply to it. -/
def answered : List Move :=
  [.execute { action := Builtin.improveClarity, selection := "Some text" } 0, .text 0 "Clear text"]

theorem answered_closes : Floor.Closes impatient {} answered := by
  refine ⟨?_, ?_, trivial⟩
  · rintro ⟨place, stage, run, hplace, -⟩
    cases hplace
  · rintro ⟨place, stage, run, -, -, -, fails⟩
    cases stage <;> first | exact fails | exact fails.1

theorem flag_up_after_revoked_run :
    Floor.Closes impatient {} answered ∧
      impatient.Revoked (Floor.run impatient {} answered).desk.events :=
  ⟨answered_closes, ((flag_up_iff impatient answered).2.2 answered_closes (by decide)).1 rfl⟩

/-- The flag stays up without an active run, while the request waits and after it is over. -/
theorem revoked_run_leaves_flag_up :
    ((Floor.run impatient {} (answered.take 1)).desk.active = none ∧
        (Floor.run impatient {} (answered.take 1)).desk.processing = true) ∧
      (Floor.run impatient {} answered).desk.active = none ∧
        (Floor.run impatient {} answered).desk.processing = true ∧
          ∀ stage ∈ (Floor.run impatient {} answered).stages, stage.run? = none :=
  ⟨⟨rfl, rfl⟩, rfl, rfl, by decide⟩

end Floor

end ActionEngine.Coordinator
