import ActionEngine.Action.Builtin
import ActionEngine.Proofs.Coordinator.Order
import ActionEngine.Proofs.Coordinator.Publication

/-!
# The desk and the invocations agree

The active run, the processing flag and the state of the lifecycle are set at different
moments. `Consistent` ties them to the stages of the invocations; a turn of any of
them keeps it, and so does every control, whatever the order in which they come.
-/

namespace ActionEngine.Coordinator

/-- Every change of state that was published is a permitted one. -/
def View.Sound (v : View) : Prop :=
  ∀ previous current, Event.stateChanged previous current ∈ v.events →
    previous.check current = .ok ()

/-- What is seen of the desk and the stages of the invocations agree. -/
structure Consistent (v : View) (stages : List Stage) : Prop where
  /-- The flag is up exactly while a run is active. -/
  flag : v.processing = v.active.isSome
  /-- The active run is the one that began last. -/
  newest : ∀ run, v.active = some run → run.number + 1 = v.nextRun
  /-- The active run is the run of an invocation. -/
  carried : ∀ run, v.active = some run →
    ∃ (place : Nat) (stage : Stage), stages[place]? = some stage ∧ stage.run? = some run
  /-- Runs are numbered as they begin. -/
  numbered : ∀ (place : Nat) (stage : Stage) (run : Run), stages[place]? = some stage →
    stage.run? = some run → run.number < v.nextRun
  /-- No two invocations share a run. -/
  apart : ∀ (p q : Nat) (stage stage' : Stage) (run run' : Run),
    stages[p]? = some stage → stages[q]? = some stage' → stage.run? = some run →
      stage'.run? = some run' → run.number = run'.number → p = q
  /-- Every stage fits the desk. -/
  fits : ∀ (place : Nat) (stage : Stage), stages[place]? = some stage → stage.Fits v
  /-- Only permitted changes of state were published. -/
  sound : v.Sound

abbrev Floor.Consistent (f : Floor) : Prop :=
  Coordinator.Consistent f.desk.view f.stages

theorem View.Sound.of_publishes {v v' : View} (sound : v.Sound) {P : Event → Prop}
    (publishes : v.Publishes v' P)
    (permitted : ∀ previous current, P (.stateChanged previous current) →
      previous.check current = .ok ()) : v'.Sound := by
  obtain ⟨published, hevents, hP⟩ := publishes
  intro previous current h
  rw [hevents] at h
  rcases List.mem_append.1 h with h | h
  · exact sound previous current h
  · exact permitted previous current (hP _ h)

/-! ### What a turn keeps -/

/-- A turn from one view and stage to the next keeps the desk and all invocations in
    agreement. -/
structure Admissible (v : View) (old : Stage) (v' : View) (new : Stage) : Prop where
  flag : v'.processing = v'.active.isSome
  newest : ∀ run, v'.active = some run → run.number + 1 = v'.nextRun
  grows : v.nextRun ≤ v'.nextRun
  numbered : ∀ run, new.run? = some run →
    old.run? = some run ∨ v.nextRun ≤ run.number ∧ run.number < v'.nextRun
  /-- The run that is active now is the one that took the turn, or it was so before and
      its lifecycle was left alone. -/
  carried : ∀ run, v'.active = some run → new.run? = some run ∨
    v.active = some run ∧ old.run? ≠ some run ∧ v'.lifecycle = v.lifecycle
  /-- No earlier run becomes the active one again. -/
  renewed : ∀ run, v'.active = some run → v.active = some run ∨ v.nextRun ≤ run.number
  fits : new.Fits v'

/-- A turn that takes the active run away. -/
theorem Admissible.of_vacated {v v' : View} {old new : Stage} {s : Setting}
    (next : v'.nextRun = v.nextRun)
    (same : ∀ run, new.run? = some run → old.run? = some run) (fits : new.Fits (v'.vacated s)) :
    Admissible v old (v'.vacated s) new where
  flag := rfl
  newest run h := by cases h
  grows := by simp [next]
  numbered run h := .inl (same run h)
  carried run h := by cases h
  renewed run h := by cases h
  fits := fits

theorem Stage.Begins.run?_eq {stage : Stage} {run : Run} {action : Action}
    (begins : stage.Begins run action) : stage.run? = some run := by
  cases stage with
  | waitingReply r i target => exact congrArg some begins.1
  | waitingChunk r snapshot task => exact congrArg some begins.1
  | _ => exact begins.elim

/-- The stage of a run fits the desk on which the run has just begun. -/
theorem Stage.Begins.fits {s : Setting} {v : View} {stage : Stage} {action : Action}
    {task : Nat} (begins : stage.Begins (v.upcoming action task) action) :
    stage.Fits (v.begun s action task) := by
  cases stage with
  | waitingReply r i target =>
      obtain ⟨rfl, rfl⟩ := begins
      exact ⟨rfl, fun _ => rfl⟩
  | waitingChunk r snapshot t =>
      obtain ⟨rfl, rfl⟩ := begins
      exact ⟨rfl, fun _ => .inl rfl⟩
  | _ => exact begins.elim

theorem Turn.admissible {s : Setting} {v v' : View} {m : Move} {old new : Stage}
    {outputs : List Output} (turn : Turn s v m old v' new outputs)
    (flag : v.processing = v.active.isSome)
    (newest : ∀ run, v.active = some run → run.number + 1 = v.nextRun)
    (fits : old.Fits v) : Admissible v old v' new := by
  cases turn with
  | ignored late =>
      refine ⟨flag, newest, Nat.le_refl _, fun run h => .inl h, ?_, fun run h => .inl h, fits⟩
      intro run h
      by_cases same : old.run? = some run
      · exact .inl same
      · exact .inr ⟨h, same, rfl⟩
  | refused before after shows =>
      refine ⟨flag, newest, Nat.le_refl _, ?_, ?_, fun run h => .inl h, ?_⟩
      · intro run h
        rw [after] at h
        cases h
      · intro run h
        exact .inr ⟨h, by simp [before], rfl⟩
      · exact Stage.fits_of_run?_eq_none after
  | begun action task before begins requests =>
      have hrun := begins.run?_eq
      -- The new run has the number that was next, and the flag is up because it was raised.
      refine ⟨rfl, ?_, Nat.le_succ _, ?_, ?_, ?_, begins.fits⟩
      · intro run h
        cases h
        rfl
      · intro run h
        rw [hrun] at h
        cases h
        exact .inr ⟨Nat.le_refl _, Nat.lt_succ_self _⟩
      · intro run h
        cases h
        exact .inl hrun
      · intro run h
        cases h
        exact .inr (Nat.le_refl _)
  | @kept _ run snapshot task current before =>
      refine ⟨flag, newest, Nat.le_refl _, ?_, ?_, fun r h => .inl h, ?_⟩
      · intro r h
        cases h
        rcases before with ⟨t, rfl⟩ | rfl <;> exact .inl rfl
      · intro r h
        rw [current] at h
        exact .inl h
      -- A stream that was shown may have anything on offer that it was shown with.
      · rcases before with ⟨t, rfl⟩ | rfl
        · exact fits
        · exact ⟨fits.1, fun h => .inr (fits.2 h)⟩
  | shown place chunk current move nonempty permitted =>
      refine ⟨flag, newest, Nat.le_refl _, fun r h => .inl h, ?_, fun r h => .inl h, ?_⟩
      · intro r h
        exact .inl (current.symm.trans h)
      · exact ⟨fits.1, fun _ => ⟨rfl, rfl⟩⟩
  | ended place current move permitted =>
      exact .of_vacated rfl (fun r h => h) (by simp [Stage.Fits])
  | answered place text id current move permitted =>
      exact .of_vacated rfl (fun r h => by cases h) trivial
  | failed closing current before move closes permitted =>
      exact .of_vacated rfl (fun r h => by cases h) trivial
  | left current before shows =>
      exact .of_vacated rfl (fun r h => by cases h) trivial
  | @dropped _ run _ stale before late =>
      refine ⟨flag, newest, Nat.le_refl _, ?_, ?_, fun r h => .inl h, trivial⟩
      · intro r h
        cases h
      · intro r h
        refine .inr ⟨h, ?_, rfl⟩
        -- The run of a stage that is dropped is not the active one.
        intro same
        exact stale (h.trans (same.symm.trans before))

theorem Admissible.orderly {v v' : View} {old new : Stage} (admissible : Admissible v old v' new) :
    Orderly v old v' new where
  newest := admissible.newest
  grows := admissible.grows
  numbered := admissible.numbered
  active run h := (admissible.carried run h).imp_right fun h => ⟨h.1, h.2.2⟩
  suits := admissible.fits.suits

/-! ### What a floor keeps -/

namespace Consistent

theorem initial : ({} : Floor).Consistent where
  flag := rfl
  newest run h := by cases h
  carried run h := by cases h
  numbered place stage run h := by cases h
  apart p q stage stage' run run' h := by cases h
  fits place stage h := by cases h
  sound previous current h := by cases h

variable {v v' : View} {stages : List Stage}

theorem ordered (consistent : Consistent v stages) : Ordered v stages where
  newest := consistent.newest
  numbered := consistent.numbered
  apart := consistent.apart
  named place stage run active hstage hrun hactive same := by
    obtain ⟨q, other, hother, hrun'⟩ := consistent.carried active hactive
    obtain rfl := consistent.apart place q stage other run active hstage hother hrun hrun' same
    rw [hstage] at hother
    cases hother
    exact Option.some.inj (hrun.symm.trans hrun')
  suits place stage hstage := (consistent.fits place stage hstage).suits

/-- No stream waits until it is closed, so every stage fits the desk. -/
theorem of_ordered (ordered : Ordered v stages) (flag : v.processing = v.active.isSome)
    (busy : ∀ stage ∈ stages, ∃ earlier, stage.Fits earlier)
    (carried : ∀ run, v.active = some run →
      ∃ (place : Nat) (stage : Stage), stages[place]? = some stage ∧ stage.run? = some run)
    (sound : v.Sound) : Consistent v stages := by
  refine ⟨flag, ordered.newest, carried, ordered.numbered, ordered.apart, ?_, sound⟩
  intro place stage hstage
  rcases (ordered.suits place stage hstage).fits_or_waits with fits | ⟨run, outputs, task, rfl⟩
  · exact fits
  · obtain ⟨earlier, fits⟩ := busy _ (List.mem_of_getElem? hstage)
    exact fits.elim

theorem busy (consistent : Consistent v stages) :
    ∀ stage ∈ stages, ∃ earlier, stage.Fits earlier := by
  intro stage member
  obtain ⟨place, hstage⟩ := List.mem_iff_getElem?.1 member
  exact ⟨v, consistent.fits place stage hstage⟩

/-- An admissible turn of one invocation keeps the agreement. -/
theorem put (consistent : Consistent v stages) {place : Nat} {old new : Stage}
    (hold : stages[place]? = some old) (admissible : Admissible v old v' new)
    (sound : v'.Sound) : Consistent v' (stages.set place new) := by
  refine .of_ordered (consistent.ordered.put hold admissible.orderly) admissible.flag ?_ ?_ sound
  · intro stage member
    rcases List.mem_or_eq_of_mem_set member with before | rfl
    · exact consistent.busy stage before
    · exact ⟨v', admissible.fits⟩
  · intro run active
    rcases admissible.carried run active with h | ⟨before, other, _⟩
    · have hlt : place < stages.length := (List.getElem?_eq_some_iff.1 hold).1
      exact ⟨place, new, List.getElem?_set_self hlt, h⟩
    · obtain ⟨q, stage, hstage, hrun⟩ := consistent.carried run before
      have hq : q ≠ place := by
        rintro rfl
        rw [hold] at hstage
        cases hstage
        exact other hrun
      exact ⟨q, stage, by rw [List.getElem?_set_ne hq.symm, hstage], hrun⟩

/-- A stream of which nothing was asked yet changes nothing. -/
theorem add_unopened (consistent : Consistent v stages) (i : Invocation) :
    Consistent v (stages ++ [.unopened i]) := by
  refine .of_ordered (consistent.ordered.add_unopened i) consistent.flag ?_ ?_ consistent.sound
  · intro stage member
    rcases List.mem_append.1 member with before | last
    · exact consistent.busy stage before
    · rw [List.mem_singleton.1 last]
      exact ⟨v, trivial⟩
  · intro run active
    obtain ⟨q, stage, hstage, hrun⟩ := consistent.carried run active
    have hlt : q < stages.length := (List.getElem?_eq_some_iff.1 hstage).1
    exact ⟨q, stage, by rw [List.getElem?_append_left hlt, hstage], hrun⟩

/-- Without an active run any state of the lifecycle is consistent. -/
theorem of_vacant (consistent : Consistent v stages) (vacant : v'.active = none)
    (flag : v'.processing = false) (next : v'.nextRun = v.nextRun) (sound : v'.Sound) :
    Consistent v' stages := by
  have gone : ∀ run, v'.active ≠ some run := by simp [vacant]
  refine .of_ordered (consistent.ordered.mono next fun run h => absurd h (gone run)) ?_
    consistent.busy ?_ sound
  · rw [vacant, flag]
    rfl
  · intro run h
    exact absurd h (gone run)

/-- A control takes the active run away or leaves everything as it is. -/
theorem controlled (consistent : Consistent v stages) (s : Setting) (c : Control) :
    Consistent (v.controlled s c).1 stages := by
  have sound : (v.controlled s c).1.Sound := by
    refine consistent.sound.of_publishes (v.controlled_publishes s c) ?_
    intro previous current idle
    rw [idle previous current rfl]
    cases previous <;> rfl
  rcases v.controlled_cases s c with h | h | h
  · rw [h]
    exact consistent
  · rw [h] at sound ⊢
    exact consistent.of_vacant (View.dismissed_active s v)
      (View.dismissed_processing consistent.flag) (View.dismissed_nextRun s v) sound
  · rw [h] at sound ⊢
    exact consistent.of_vacant (View.aborted_active s v)
      (View.aborted_processing consistent.flag) (View.aborted_nextRun s v) sound

theorem turned (consistent : Consistent v stages) {s : Setting} {m : Move} (place : Nat)
    {old new : Stage} {outputs : List Output} (hold : stages[place]? = some old)
    (turn : Turn s v m old v' new outputs) : Consistent v' (stages.set place new) := by
  have admissible := turn.admissible consistent.flag consistent.newest
    (consistent.fits place old hold)
  exact consistent.put hold admissible
    (consistent.sound.of_publishes turn.publishes fun _ _ due => due.1)

theorem of_steps {f g : Floor} (consistent : f.Consistent) {s : Setting} {m : Move}
    {outputs : List Output} (steps : f.Steps s m g outputs) : g.Consistent := by
  cases steps with
  | absent => exact consistent
  | taken hplace hold turn => exact consistent.turned _ hold turn
  | @started i task new d _ turn =>
      -- The request first stands at the end without a run, and then takes its turn there.
      have last := (consistent.add_unopened i).turned f.stages.length (by simp) turn
      simpa using last
  | made i => exact consistent.add_unopened i
  | controlled c task view replies =>
      change Coordinator.Consistent _ f.stages
      rw [view]
      exact consistent.controlled s c

/-- Every move keeps the desk and the invocations in agreement. -/
theorem step {f : Floor} (consistent : f.Consistent) {s : Setting} (calm : s.Calm) (m : Move) :
    (f.step s m).1.Consistent :=
  consistent.of_steps (Floor.step_steps calm consistent.fits m)

theorem run {f : Floor} (consistent : f.Consistent) {s : Setting} (calm : s.Calm)
    (moves : List Move) : (f.run s moves).Consistent := by
  induction moves generalizing f with
  | nil => exact consistent
  | cons m moves ih => exact ih (consistent.step calm m)

end Consistent

/-! ### Every reachable state -/

/-- What the lifecycle shows while the active run is the one of a stage: a single request
    is loading, and a stream is loading until its last snapshot is on offer. -/
def Stage.Working (run : Run) (state : Lifecycle.State) : Stage → Prop
  | .waitingReply r i _ =>
      r = run ∧ i.action.id = run.action ∧ state = .loading i.action
  | .waitingChunk r snapshot _ =>
      r = run ∧ snapshot.source.id = run.action ∧
        (state = .loading snapshot.source ∨ state = .ready snapshot ∧ snapshot.streaming = true)
  | .shown r snapshot =>
      r = run ∧ snapshot.source.id = run.action ∧
        state = .ready snapshot ∧ snapshot.streaming = true
  | _ => False

theorem Stage.Fits.working {v : View} {stage : Stage} {run : Run} (fits : stage.Fits v)
    (hrun : stage.run? = some run) (active : v.active = some run) :
    stage.Working run v.lifecycle.state := by
  cases stage with
  | waitingReply r i target =>
      cases hrun
      exact ⟨rfl, fits.1.symm, fits.2 active⟩
  | waitingChunk r snapshot task =>
      cases hrun
      exact ⟨rfl, fits.1.symm, fits.2 active⟩
  | shown r snapshot =>
      cases hrun
      exact ⟨rfl, fits.1.symm, fits.2 active⟩
  | shownLast r =>
      cases hrun
      exact absurd active fits
  | waitingClose r outputs task => exact fits.elim
  | _ => cases hrun

theorem Floor.Steps.fault_of_invalid {s : Setting} {f g : Floor} {m : Move}
    {outputs : List Output} (steps : f.Steps s m g outputs) {error : EngineError}
    {cause : Option Fault} (h : Output.raised (.engine error) cause ∈ outputs)
    (kind : error.kind = .invalidTransition) : m.fault? = some (.engine error) := by
  cases steps with
  | absent => cases h
  | taken hplace hold turn => exact turn.fault_of_invalid h kind
  | started turn => exact turn.fault_of_invalid h kind
  | made i => cases h
  | controlled c task view replies => cases List.mem_singleton.1 h

/-- In every state that any order of moves leads to, processing is on exactly while a run
    is active; the active run is the one that began last, it belongs to one invocation,
    and the lifecycle is loading its action or offers the last snapshot of its stream. The
    coordinator attempts no change of state that is not permitted: it has published none,
    and an invalid transition is raised only if the provider itself raised it. -/
theorem reachable_floor_agrees {s : Setting} (calm : s.Calm) (moves : List Move) :
    (((Floor.run s {} moves).desk.processing = true ↔
        ∃ run, (Floor.run s {} moves).desk.active = some run) ∧
      (∀ run, (Floor.run s {} moves).desk.active = some run →
        run.number + 1 = (Floor.run s {} moves).desk.nextRun ∧
          ∃ place stage, (Floor.run s {} moves).stages[place]? = some stage ∧
            stage.Working run (Floor.run s {} moves).desk.lifecycle.state ∧
              ∀ (q : Nat) (other : Stage), (Floor.run s {} moves).stages[q]? = some other →
                other.run? = some run → q = place)) ∧
      (∀ previous current,
        Event.stateChanged previous current ∈ (Floor.run s {} moves).desk.events →
          previous.check current = .ok ()) ∧
      ∀ (m : Move) (error : EngineError) (cause : Option Fault),
        Output.raised (.engine error) cause ∈ ((Floor.run s {} moves).step s m).2 →
          error.kind = .invalidTransition → m.fault? = some (.engine error) := by
  have consistent := Consistent.initial.run calm moves
  generalize Floor.run s {} moves = f at consistent
  refine ⟨⟨?_, ?_⟩, consistent.sound, ?_⟩
  · have flag : f.desk.processing = f.desk.active.isSome := consistent.flag
    rw [flag, Option.isSome_iff_exists]
  · intro run active
    obtain ⟨place, stage, hstage, hrun⟩ := consistent.carried run active
    refine ⟨consistent.newest run active, place, stage, hstage, ?_, ?_⟩
    · exact (consistent.fits place stage hstage).working hrun active
    · intro q other hother hrun'
      exact consistent.apart q place other stage run run hother hstage hrun' hrun rfl
  · intro m error cause h kind
    exact (Floor.step_steps calm consistent.fits m).fault_of_invalid h kind

/-- A stream supersedes a single request and shows its first chunk. -/
def overlap : List Move :=
  [.execute { action := Builtin.improveClarity, selection := "Some text" } 0,
    .stream { action := Builtin.makeConcise, selection := "Some text" },
    .pull 1 1, .text 1 "Text"]

theorem overlap_agrees :
    (Floor.run {} {} overlap).desk.active = some ⟨2, "rewrite.make_concise", 1⟩ ∧
      (2 + 1 = (Floor.run {} {} overlap).desk.nextRun ∧
        ∃ place stage, (Floor.run {} {} overlap).stages[place]? = some stage ∧
          stage.Working ⟨2, "rewrite.make_concise", 1⟩
              (Floor.run {} {} overlap).desk.lifecycle.state ∧
            ∀ (q : Nat) (other : Stage), (Floor.run {} {} overlap).stages[q]? = some other →
              other.run? = some ⟨2, "rewrite.make_concise", 1⟩ → q = place) :=
  ⟨rfl, (reachable_floor_agrees (s := {}) ⟨fun _ => rfl, rfl⟩ overlap).1.2
    ⟨2, "rewrite.make_concise", 1⟩ rfl⟩

/-- A failure of the provider that is an engine error already is passed on as it is, an
    invalid transition among them. -/
theorem foreign_transition_error_passes :
    Output.raised (.engine (.invalidTransition "Unusable state")) none ∈
      ((Floor.run {} {}
          [.execute { action := Builtin.improveClarity, selection := "Some text" } 0]).step {}
        (.fail 0 (.engine (.invalidTransition "Unusable state")))).2 :=
  List.mem_singleton.2 rfl

end ActionEngine.Coordinator
