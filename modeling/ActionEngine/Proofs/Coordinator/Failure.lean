import ActionEngine.Proofs.Coordinator.Release
import ActionEngine.Proofs.Coordinator.Uninterrupted

/-!
# Failures of the active run

The provider may fail while a request waits for its reply, and while a stream waits for a
chunk. If that strikes the active run, the failure is shown once, and then the run is over.
The caller gets the error that was shown, at the latest when the provider's stream is closed.
Closing it may take a while, in which other invocations go on.
-/

namespace ActionEngine

theorem Fault.summary_eq_empty_iff (fault : Fault) :
    fault.summary = "" ↔ fault.text.trimBlanks = "" ∧ fault.name = "" := by
  unfold summary
  by_cases blank : fault.text.trimBlanks = "" <;> simp [blank]

/-- What a fault of the provider is raised as, and with which cause: an error of the engine
    as it is, any other fault as an error of the provider. That has a message, since every
    fault has a name. -/
structure Fault.RaisedAs (fault : Fault) (error : EngineError) (cause : Option Fault) : Prop where
  kept : ∀ e, fault = .engine e → error = e ∧ cause = none
  wrapped : (∀ e, fault ≠ .engine e) → error = .provider fault.summary ∧ cause = some fault
  told : (∀ e, fault ≠ .engine e) → fault.name ≠ "" → error.message ≠ ""

namespace Coordinator

theorem Desk.failure_of_foreign {fault : Fault} (foreign : ∀ e, fault ≠ .engine e) :
    failure fault = (.provider fault.summary, some fault) := by
  cases fault with
  | engine e => exact absurd rfl (foreign e)
  | _ => rfl

theorem Desk.failure_raisedAs (fault : Fault) :
    fault.RaisedAs (failure fault).1 (failure fault).2 := by
  constructor
  · rintro e rfl
    exact ⟨rfl, rfl⟩
  · intro foreign
    rw [failure_of_foreign foreign]
    exact ⟨rfl, rfl⟩
  · intro foreign named
    have message : (failure fault).1.message = fault.summary := by
      simp only [failure_of_foreign foreign, EngineError.provider]
    rw [message, Ne, fault.summary_eq_empty_iff]
    exact fun empty => named empty.2

variable {s : Setting} {run : Run} {fault : Fault}

/-! ### At the desk -/

/-- How a stream closes does not matter to what is published. -/
theorem Setting.tell_closing (silent : ∀ events, s.react events = []) (closing : Run → Closing) :
    ({ s with closing } : Setting).tell = s.tell := by
  funext d e
  rw [Desk.tell_eq (s := { s with closing }) silent, Desk.tell_eq silent]

/-- The failure of the active run is shown, and takes the run away. -/
structure View.Reports (s : Setting) (v : View) (error : EngineError) (v' : View) : Prop where
  state : v'.lifecycle = v.lifecycle.move (.failed error.message)
  vacant : v'.active = none
  down : v'.processing = false
  events : v'.events = v.events ++
    (s.heard (.stateChanged v.lifecycle.state (.failed error.message)) ++
      s.heard (.processingChanged false))

theorem Desk.recordFailure_reports (silent : ∀ events, s.react events = []) {d : Desk}
    (flag : d.view.processing = d.view.active.isSome) (current : d.view.active = some run)
    (permitted : d.view.lifecycle.state.check (.failed (failure fault).1.message) = .ok ()) :
    ∃ d' : Desk,
      d.recordFailure s.tell run fault = (d', .engine (failure fault).1, (failure fault).2) ∧
        d.view.Reports s (failure fault).1 d'.view := by
  have calm : ({ s with closing := fun _ => .quiet } : Setting).Calm := ⟨silent, rfl⟩
  obtain ⟨d', recorded, view⟩ := recordFailure_current calm current permitted
  rw [Setting.tell_closing silent] at recorded
  refine ⟨d', recorded, ?_⟩
  have up : d.view.processing = true := by rw [flag, current]; rfl
  rw [view]
  refine ⟨rfl, rfl, rfl, ?_⟩
  simp only [View.vacated, View.flagged, View.entered, up, List.append_assoc]
  rfl

theorem Desk.finish_of_gone {d : Desk} (publish : Publish) (gone : d.view.active ≠ some run) :
    d.finish publish run = d := by
  unfold finish
  exact if_neg (mt (isCurrent_iff d run).1 gone)

/-! ### The end of the invocation -/

/-- The provider fails while an invocation waits for it: a request for its reply, or a stream
    for its next chunk. -/
def Stage.Struck (run : Run) (fault : Fault) (m : Move) : Stage → Prop
  | .waitingReply r _ _ => r = run ∧ ∃ place, m = .fail place fault
  | .waitingChunk r _ _ => r = run ∧ m.fault? = some fault
  | _ => False

/-- An invocation ends with some outputs: at once, or as soon as its stream is closed. -/
inductive Stage.Ends (s : Setting) (run : Run) (outputs : List Output) :
    Stage → List Output → Prop
  | now : Ends s run outputs .over outputs
  | later (task : Option Nat) (waits : s.closing run = .waits) :
      Ends s run outputs (.waitingClose run outputs task) []

theorem leave_ends {d : Desk} (closes : ∀ fault, s.closing run ≠ .raises fault)
    (gone : d.view.active ≠ some run) (outputs : List Output) :
    ∃ stage shown, leave s d run outputs = (d, stage, shown) ∧ stage.Ends s run outputs shown := by
  unfold leave
  cases closing : s.closing run with
  | quiet =>
      refine ⟨.over, outputs, ?_, .now⟩
      simp only [finishClosing, Desk.finish_of_gone s.tell gone]
  | raises fault => exact absurd closing (closes fault)
  | waits => exact ⟨_, [], rfl, .later d.current closing⟩

namespace Floor

variable {f g : Floor} {m : Move} {place : Nat} {stage : Stage}

/-- A floor is reached on which the failure was shown and the invocation ends with an error. -/
structure Fails (s : Setting) (f : Floor) (place : Nat) (run : Run) (error : EngineError)
    (cause : Option Fault) (g : Floor) (shown : List Output) : Prop where
  reports : f.desk.view.Reports s error g.desk.view
  ends : ∃ closing last, (∀ o ∈ closing, o = .streamOver) ∧ g.stages[place]? = some last ∧
    last.Ends s run (closing ++ [.raised (.engine error) cause]) shown

theorem struck_fails (silent : ∀ events, s.react events = [])
    (closes : ∀ fault, s.closing run ≠ .raises fault)
    (flag : f.desk.view.processing = f.desk.view.active.isSome)
    (current : f.desk.view.active = some run) (hplace : m.place? = some place)
    (hold : f.stages[place]? = some stage) (suits : stage.Suits f.desk.view)
    (struck : stage.Struck run fault m) :
    f.Fails s place run (Desk.failure fault).1 (Desk.failure fault).2 (f.step s m).1
      (f.step s m).2 := by
  -- The failure is recorded at the desk of the task that waits, whichever it is.
  have recorded (task : Nat) (fits : stage.Fits f.desk.view) (own : stage.run? = some run) :
      ∃ d : Desk, (f.deskFor task).recordFailure s.tell run fault =
          (d, .engine (Desk.failure fault).1, (Desk.failure fault).2) ∧
        f.desk.view.Reports s (Desk.failure fault).1 d.view :=
    Desk.recordFailure_reports (d := f.deskFor task) silent flag current
      (check_failed_of_fits _ fits own current)
  cases stage with
  | waitingReply r i target =>
      obtain ⟨rfl, q, rfl⟩ := struck
      cases hplace
      obtain ⟨d, recorded, reports⟩ := recorded r.task suits rfl
      simp only [step, hold, failSingle, recorded]
      exact ⟨reports, [], .over, List.forall_mem_nil _, put_stands hold _, .now⟩
  | waitingChunk r snapshot task =>
      obtain ⟨rfl, hfault⟩ := struck
      obtain ⟨d, recorded, reports⟩ := recorded task suits rfl
      have active : (f.deskFor task).isCurrent r = true := (Desk.isCurrent_iff _ r).2 current
      have gone : d.view.active ≠ some r := by simp [reports.vacant]
      cases m with
      | refuse q refused =>
          cases hplace
          cases hfault
          simp only [step, hold, refuseStream, if_pos active, recorded, Desk.finish_of_gone _ gone]
          exact ⟨reports, [], .over, List.forall_mem_nil _, put_stands hold _, .now⟩
      | fail q failed =>
          cases hplace
          cases hfault
          obtain ⟨last, shown, left, ends⟩ := leave_ends closes gone
            [.streamOver, .raised (.engine (Desk.failure fault).1) (Desk.failure fault).2]
          simp only [step, hold, failStream, if_pos active, recorded, left]
          exact ⟨reports, [.streamOver], last, by simp, put_stands hold _, ends⟩
      | _ => cases hfault
  | _ => exact struck.elim

theorem Ordered.gone_run (ordered : f.Ordered) (hold : f.stages[place]? = some stage)
    (own : stage.run? = some run) (gone : f.desk.active ≠ some run) (moves : List Move) :
    (f.run s moves).desk.active ≠ some run := by
  intro active
  exact gone ((ordered.renews_run s moves).active_of (ordered.numbered place stage run hold own)
    active)

/-- A stream whose run is over waits until it is closed, and others go on meanwhile. Then it
    ends with what it was to show, and nothing else happens. -/
theorem shut_ends {outputs : List Output} {task : Option Nat} (ordered : f.Ordered)
    (hold : f.stages[place]? = some (.waitingClose run outputs task))
    (gone : f.desk.active ≠ some run) {moves : List Move}
    (elsewhere : ∀ m ∈ moves, m.place? ≠ some place) :
    let h := f.run s moves
    (h.step s (.shut place none)).2 = outputs ∧
      (h.step s (.shut place none)).1.desk.view = h.desk.view ∧
        (h.step s (.shut place none)).1.stages[place]? = some .over := by
  intro h
  have waits : h.stages[place]? = some (.waitingClose run outputs task) :=
    run_elsewhere ordered hold elsewhere
  have stale : h.desk.active ≠ some run := ordered.gone_run hold rfl gone moves
  have finished :
      { h.desk with current := task }.finish s.tell run = { h.desk with current := task } :=
    Desk.finish_of_gone s.tell stale
  simp only [step, waits, finishClosing, finished]
  exact ⟨rfl, rfl, put_stands waits _⟩

/-! ### The next invocation -/

theorem launch_begins (silent : ∀ events, s.react events = []) {i : Invocation} {task : Nat}
    {target : TextRange} (launches : f.Launches i task m) (permitted : i.Permitted)
    (range : TextRange.ofValue i.target = .ok target) :
    (f.step s m).1.desk.view = f.desk.view.begun s i.action task := by
  have calm : ({ s with closing := fun _ => .quiet } : Setting).Calm := ⟨silent, rfl⟩
  have begun (d : Desk) : (d.begin s.tell i.action task).1.view = d.view.begun s i.action task := by
    have view := Desk.view_begin calm d i.action task
    rw [Setting.tell_closing silent] at view
    exact view
  cases m with
  | execute j t =>
      obtain ⟨rfl, rfl⟩ := launches
      obtain ⟨message, opened⟩ :=
        openSingle_permitted (s := s) (d := f.deskFor t) permitted range t
      simp only [step, add, opened, Desk.view_remark]
      exact begun (f.deskFor t)
  | pull place t =>
      obtain ⟨unopened, rfl⟩ := launches
      obtain ⟨message, opened⟩ :=
        openStream_permitted (s := s) (d := f.deskFor t) permitted range t
      simp only [step, unopened, put, opened, Desk.view_remark]
      exact begun ((f.deskFor t).newSuggestion s).1
  | _ => exact launches.elim

/-- While nothing is going on, the start of an invocation is announced, and then that
    processing has begun. -/
theorem launch_announces (silent : ∀ events, s.react events = []) {i : Invocation} {task : Nat}
    {target : TextRange} (down : f.desk.processing = false) (launches : f.Launches i task m)
    (permitted : i.Permitted) (range : TextRange.ofValue i.target = .ok target) :
    (f.step s m).1.desk.events = f.desk.events ++
        (s.heard (.stateChanged f.desk.lifecycle.state (.loading i.action)) ++
          s.heard (.processingChanged true)) ∧
      (f.step s m).1.desk.lifecycle.state = .loading i.action ∧
      (f.step s m).1.desk.active = some ⟨f.desk.nextRun, i.action.id, task⟩ ∧
      (f.step s m).1.desk.processing = true := by
  have begun := launch_begins silent launches permitted range
  refine ⟨?_, congrArg (·.lifecycle.state) begun, congrArg View.active begun,
    congrArg View.processing begun⟩
  have lowered : f.desk.view.processing = false := down
  have events := congrArg View.events begun
  simp only [View.begun, View.flagged, View.entered, lowered, List.append_assoc] at events
  exact events

/-- As long as no other invocation has begun, a floor without an active run has none. -/
theorem Ordered.idle_run (ordered : f.Ordered) (idle : f.desk.active = none) {moves : List Move}
    (next : (f.run s moves).desk.nextRun = f.desk.nextRun) :
    (f.run s moves).desk.active = none := by
  cases active : (f.run s moves).desk.active with
  | none => rfl
  | some r =>
      have newest := (ordered.run s moves).newest r active
      rcases (ordered.renews_run s moves).2 r active with before | fresh
      · rw [show f.desk.view.active = none from idle] at before
        cases before
      · -- The newest run would have begun before and after the number was given.
        change r.number + 1 = (f.run s moves).desk.nextRun at newest
        change f.desk.nextRun ≤ r.number at fresh
        omega

/-- While observers only record, the flag is up exactly while a run is active. -/
theorem flag_run (silent : ∀ events, s.react events = []) (moves : List Move) :
    (Floor.run s {} moves).desk.processing = (Floor.run s {} moves).desk.active.isSome := by
  have never : ¬s.Revoked (Floor.run s {} moves).desk.events := by
    rintro ⟨-, -, c, reacts, -⟩
    rw [silent] at reacts
    cases reacts
  have signals := signals_run (signals_initial s) Coordinator.Ordered.initial moves
  rw [Bool.eq_iff_iff]
  exact signals.flag.trans (or_iff_left never)

/-- Whatever happened before, while observers only record: a failure of the provider that
    strikes the active run is published once, and then that processing is over. No run is
    active any more. The caller gets the error that was published, with the move or, if the
    provider's stream has to be waited for, as soon as it is closed, which publishes nothing.
    The next invocation is announced and begins its run as after any other end. -/
theorem failure_shown_once (silent : ∀ events, s.react events = []) (before : List Move) (m : Move)
    (place : Nat) (stage : Stage) (run : Run) (fault : Fault) (hplace : m.place? = some place)
    (hstage : (Floor.run s {} before).stages[place]? = some stage)
    (struck : stage.Struck run fault m)
    (current : (Floor.run s {} before).desk.active = some run)
    (closes : ∀ fault, s.closing run ≠ .raises fault) :
    let f := Floor.run s {} before
    let g := (f.step s m).1
    ∃ (error : EngineError) (cause : Option Fault), fault.RaisedAs error cause ∧
      g.desk.events = f.desk.events ++
        (s.heard (.stateChanged f.desk.lifecycle.state (.failed error.message)) ++
          s.heard (.processingChanged false)) ∧
      g.desk.lifecycle.state = .failed error.message ∧ g.desk.active = none ∧
      g.desk.processing = false ∧
      (∃ closing : List Output, (∀ o ∈ closing, o = .streamOver) ∧
        ((f.step s m).2 = closing ++ [.raised (.engine error) cause] ∧
            g.stages[place]? = some .over ∨
          s.closing run = .waits ∧ (f.step s m).2 = [] ∧
            ∀ between : List Move, (∀ m ∈ between, m.place? ≠ some place) →
              let h := g.run s between
              (h.step s (.shut place none)).2 = closing ++ [.raised (.engine error) cause] ∧
                (h.step s (.shut place none)).1.desk.events = h.desk.events ∧
                (h.step s (.shut place none)).1.stages[place]? = some .over)) ∧
      ∀ between : List Move, (g.run s between).desk.nextRun = g.desk.nextRun →
        let h := g.run s between
        ∀ (next : Move) (i : Invocation) (task : Nat) (target : TextRange),
          h.Launches i task next → i.Permitted → TextRange.ofValue i.target = .ok target →
            let k := (h.step s next).1
            k.desk.events = h.desk.events ++
                (s.heard (.stateChanged h.desk.lifecycle.state (.loading i.action)) ++
                  s.heard (.processingChanged true)) ∧
              k.desk.lifecycle.state = .loading i.action ∧
              k.desk.active = some ⟨h.desk.nextRun, i.action.id, task⟩ ∧
              k.desk.processing = true := by
  intro f g
  have ordered : f.Ordered := ordered_run s before
  have ordered' : g.Ordered := ordered.step s m
  obtain ⟨reports, closing, last, quiet, hlast, ends⟩ := struck_fails silent closes
    (flag_run silent before) current hplace hstage (ordered.suits place stage hstage) struck
  have vacant : g.desk.active = none := reports.vacant
  refine ⟨_, _, Desk.failure_raisedAs fault, reports.events,
    congrArg Lifecycle.state reports.state, vacant, reports.down, ⟨closing, quiet, ?_⟩, ?_⟩
  · generalize (f.step s m).2 = shown at ends
    -- The caller hears of it now, or once the stream it waits for is closed.
    cases ends with
    | now => exact .inl ⟨rfl, hlast⟩
    | later task waits =>
        refine .inr ⟨waits, rfl, ?_⟩
        intro between elsewhere h
        have gone : g.desk.active ≠ some run := by simp [vacant]
        obtain ⟨shown, view, ended⟩ := shut_ends (s := s) ordered' hlast gone elsewhere
        exact ⟨shown, congrArg View.events view, ended⟩
  · intro between next h m' i task target launches permitted range
    have idle : h.desk.active = none := ordered'.idle_run vacant next
    have down : h.desk.processing = false := by
      have flag := flag_run silent (before ++ m :: between)
      rw [run_append] at flag
      change h.desk.processing = h.desk.active.isSome at flag
      rw [idle] at flag
      exact flag
    exact launch_announces silent down launches permitted range

/-- A stream that has shown its first chunk fails while it waits for the second. -/
theorem failure_after_first_chunk :
    (Floor.run {} {} (opened ++ [.pull 0 0])).desk.active =
        some ⟨1, "rewrite.make_concise", 0⟩ ∧
      ∃ (error : EngineError) (cause : Option Fault),
        (Fault.system .runtime (some "connection lost")).RaisedAs error cause ∧
        ((Floor.run {} {} (opened ++ [.pull 0 0])).step {}
            (.fail 0 (.system .runtime (some "connection lost")))).1.desk.lifecycle.state =
          .failed error.message := by
  obtain ⟨error, cause, raised, -, failed, -⟩ := failure_shown_once (s := {}) (fun _ => rfl)
    (opened ++ [.pull 0 0]) (.fail 0 (.system .runtime (some "connection lost"))) 0
    (.waitingChunk ⟨1, "rewrite.make_concise", 0⟩
      ⟨"suggestion-1", "Some text", "Text", Builtin.makeConcise, default, true⟩ 0)
    ⟨1, "rewrite.make_concise", 0⟩ (.system .runtime (some "connection lost"))
    rfl rfl ⟨rfl, rfl⟩ rfl (fun _ h => by cases h)
  exact ⟨rfl, error, cause, raised, failed⟩

end Floor

end Coordinator

end ActionEngine
