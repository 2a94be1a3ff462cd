import ActionEngine.Proofs.Coordinator.Flag
import ActionEngine.Proofs.Lifecycle.Calls

/-!
# The events record every change

An observer that only listens knows as much as one that asks. Between any two desks the
published events lead from the state and the flag of the first to those of the second,
change by change; nothing is published twice, out of order or not at all. This holds of
every operation, for any way of publishing that notes an event before anything else, and
so of every move, whatever the observers do and however streams close.
-/

namespace ActionEngine

def Event.flagChange? : Event → Option Bool
  | .processingChanged on => some on
  | _ => none

def flagChanges (events : List Event) : List Bool :=
  events.filterMap Event.flagChange?

/-- Changes of a flag lead from its first value to its last: each turns it over. -/
def Alternates : Bool → List Bool → Bool → Prop
  | first, [], last => first = last
  | first, on :: changes, last => on = !first ∧ Alternates on changes last

namespace Alternates

variable {first middle last : Bool} {changes more : List Bool}

theorem append (h : Alternates first changes middle) (h' : Alternates middle more last) :
    Alternates first (changes ++ more) last := by
  induction changes generalizing first with
  | nil => exact h ▸ h'
  | cons on changes ih => exact ⟨h.1, ih h.2⟩

/-- The last value is the one that was set last. -/
theorem eq_or_set (h : Alternates first changes last) :
    changes = [] ∧ first = last ∨ last ∈ changes := by
  induction changes generalizing first with
  | nil => exact .inl ⟨rfl, h⟩
  | cons on changes ih =>
      right
      rcases ih h.2 with ⟨-, same⟩ | set
      · exact same ▸ List.mem_cons_self
      · exact List.mem_cons_of_mem _ set

end Alternates

/-- Events that settle lead to the idle state, or to the flag being down. So there are none if
    they lead to another state and the flag is up. -/
theorem eq_nil_of_settles {events : List Event} {first last : Lifecycle.State} {on : Bool}
    (settles : ∀ e ∈ events, e.settles = true) (states : first.Leads (stateChanges events) last)
    (busy : last ≠ .idle) (flags : Alternates on (flagChanges events) true) : events = [] := by
  have noState : stateChanges events = [] := by
    rcases states.eq_or_entered with ⟨none, -⟩ | ⟨previous, entered⟩
    · exact none
    · obtain ⟨e, he, change⟩ := List.mem_filterMap.1 entered
      cases e <;> cases change
      cases last <;> first | exact absurd rfl busy | exact absurd (settles _ he) Bool.false_ne_true
  have noFlag : flagChanges events = [] := by
    rcases flags.eq_or_set with ⟨none, -⟩ | set
    · exact none
    · obtain ⟨e, he, change⟩ := List.mem_filterMap.1 set
      cases e <;> cases change
      exact absurd (settles _ he) Bool.false_ne_true
  refine List.eq_nil_iff_forall_not_mem.2 ?_
  intro e he
  have unchanged := List.filterMap_eq_nil_iff.1 noState e he
  have unset := List.filterMap_eq_nil_iff.1 noFlag e he
  have settled := settles e he
  cases e with
  | stateChanged previous current => cases unchanged
  | processingChanged on => cases unset
  | _ => cases settled

namespace Coordinator

/-! ### Between two views -/

/-- These events were published between two views, and record what happened there. -/
structure View.Told (v : View) (published : List Event) (v' : View) : Prop where
  events : v'.events = v.events ++ published
  states : v.lifecycle.state.Leads (stateChanges published) v'.lifecycle.state
  counted : v'.lifecycle.transitions = v.lifecycle.transitions + (stateChanges published).length
  flags : Alternates v.processing (flagChanges published) v'.processing

/-- What was published between two views records what happened there. -/
def View.Records (v v' : View) : Prop :=
  ∃ published, v.Told published v'

namespace View.Records

variable {v v' v'' : View}

theorem refl (v : View) : v.Records v :=
  ⟨[], (List.append_nil _).symm, rfl, rfl, rfl⟩

/-- First nothing that is recorded changes, and then the rest happens. -/
theorem after_same (rest : v'.Records v'') (lifecycle : v'.lifecycle = v.lifecycle)
    (flag : v'.processing = v.processing) (events : v'.events = v.events) : v.Records v'' := by
  obtain ⟨published, told⟩ := rest
  refine ⟨published, ?_, ?_, ?_, ?_⟩
  · rw [← events]
    exact told.events
  · rw [← lifecycle]
    exact told.states
  · rw [← lifecycle]
    exact told.counted
  · rw [← flag]
    exact told.flags

/-- Nothing that is recorded has changed. -/
theorem same (lifecycle : v'.lifecycle = v.lifecycle) (flag : v'.processing = v.processing)
    (events : v'.events = v.events) : v.Records v' :=
  after_same (refl v') lifecycle flag events

theorem trans (first : v.Records v') (second : v'.Records v'') : v.Records v'' := by
  obtain ⟨early, told⟩ := first
  obtain ⟨late, told'⟩ := second
  refine ⟨early ++ late, ?_, ?_, ?_, ?_⟩
  · rw [told'.events, told.events, List.append_assoc]
  · unfold stateChanges
    rw [List.filterMap_append]
    exact told.states.append told'.states
  · unfold stateChanges
    rw [List.filterMap_append, List.length_append, told'.counted, told.counted, Nat.add_assoc]
    rfl
  · unfold flagChanges
    rw [List.filterMap_append]
    exact told.flags.append told'.flags

/-- A permitted state is entered and told. -/
theorem moved {next : Lifecycle.State} (permitted : v.lifecycle.state.check next = .ok ()) :
    v.Records { v with
      lifecycle := v.lifecycle.move next
      events := v.events ++ [.stateChanged v.lifecycle.state next] } :=
  ⟨_, rfl, ⟨rfl, Lifecycle.State.permits_of_check permitted, rfl⟩, rfl, rfl⟩

/-- The flag is turned over and told. -/
theorem turned {on : Bool} (changed : ¬v.processing = on) :
    v.Records { v with processing := on, events := v.events ++ [.processingChanged on] } := by
  refine ⟨_, rfl, rfl, rfl, ?_, rfl⟩
  cases on <;> simpa using changed

end View.Records

/-! ### Operations -/

/-- A way of publishing notes the event first, and records whatever else happens. -/
def Desk.Publish.Notes (publish : Publish) : Prop :=
  ∀ d e, View.Records { d.view with events := d.view.events ++ [e] } (publish d e).view

namespace Desk

section Publish

variable {publish : Publish} (notes : publish.Notes) (d : Desk)
include notes

theorem setProcessing_records (on : Bool) :
    d.view.Records (d.setProcessing publish on).view := by
  unfold setProcessing
  by_cases same : d.processing = on
  · rw [if_pos same]
    exact .refl d.view
  · rw [if_neg same]
    exact (View.Records.turned (v := d.view) same).trans (notes { d with processing := on } _)

theorem enter_records {next : Lifecycle.State}
    (permitted : d.lifecycle.state.check next = .ok ()) :
    d.view.Records (d.enter publish next).view :=
  (View.Records.moved (v := d.view) permitted).trans
    (notes { d with lifecycle := d.lifecycle.move next } _)

theorem vacated_records :
    d.view.Records (setProcessing publish { d with active := none } false).view :=
  .after_same (setProcessing_records notes { d with active := none } false) rfl rfl rfl

theorem retire_records : d.view.Records (d.retire publish).view := by
  unfold retire
  split
  · exact .refl d.view
  · exact vacated_records notes d

theorem finish_records (run : Run) : d.view.Records (d.finish publish run).view := by
  unfold finish
  split
  · exact vacated_records notes d
  · exact .refl d.view

theorem dismiss_records : d.view.Records (d.dismiss publish).view := by
  unfold dismiss reset
  split
  · exact retire_records notes d
  · refine (retire_records notes d).trans (enter_records notes (d.retire publish) ?_)
    cases (d.retire publish).lifecycle.state <;> rfl

theorem control_records (c : Control) : d.view.Records (d.control publish c).1.view := by
  cases c with
  | accept =>
      unfold control accept
      cases d.lifecycle.state.suggestion? with
      | none => exact .refl d.view
      | some suggestion => exact dismiss_records notes d
  | reject => exact dismiss_records notes d
  | clear => exact dismiss_records notes d
  | cancel =>
      unfold control cancel
      cases d.active with
      | none => exact .refl d.view
      | some run =>
          dsimp only
          rw [view_askToStop]
          exact .after_same (retire_records notes _) rfl rfl rfl

theorem answers_record (e : Event) (controls : List Control) :
    d.view.Records (controls.foldl (answer publish e) d).view := by
  induction controls generalizing d with
  | nil => exact .refl d.view
  | cons c controls ih => exact (control_records notes d c).trans (ih (answer publish e d c))

theorem begin_records (action : Action) (task : Nat) :
    d.view.Records (d.begin publish action task).1.view := by
  obtain ⟨d', view, begun⟩ := begin_eq d publish action task
  rw [begun]
  have same : d.view.Records d'.view := by
    rw [view]
    exact .same rfl rfl rfl
  refine (same.trans (enter_records notes d' ?_)).trans (setProcessing_records notes _ true)
  cases d'.lifecycle.state <;> rfl

variable {d}

theorem tryEnter_records {d' : Desk} {next : Lifecycle.State}
    (h : d.tryEnter publish next = .ok d') : d.view.Records d'.view := by
  cases permitted : d.lifecycle.state.check next with
  | ok _ =>
      rw [tryEnter_ok publish permitted] at h
      cases h
      exact enter_records notes d permitted
  | error refusal =>
      unfold tryEnter Lifecycle.enter at h
      rw [permitted] at h
      cases h

theorem recordFailure_records (run : Run) (fault : Fault) :
    d.view.Records (d.recordFailure publish run fault).1.view := by
  unfold recordFailure
  split
  · dsimp only
    split
    · rename_i failed
      exact (tryEnter_records notes failed).trans (finish_records notes _ run)
    · exact .refl d.view
  · exact .refl d.view

end Publish

variable (s : Setting)

theorem publishWithin_notes (depth : Nat) : (publishWithin s depth).Notes := by
  induction depth with
  | zero => exact fun d e => .refl _
  | succ depth ih => exact fun d e => answers_record ih (d.record s.handlers e) e _

theorem tell_notes {s : Setting} (watched : s.handlers ≠ 0) : Publish.Notes s.tell := by
  intro d e
  unfold Setting.tell
  rw [if_neg (by simpa using watched)]
  exact publishWithin_notes s _ d e

end Desk

/-! ### Segments -/

section Segments

variable {s : Setting} (watched : s.handlers ≠ 0) (d : Desk)

theorem receive_view (s : Setting) (d : Desk) (i : Invocation) : (receive s d i).1.view = d.view :=
  (receive_sound s d i).view

include watched

theorem openSingle_records (i : Invocation) (task : Nat) :
    d.view.Records (openSingle s d i task).1.view := by
  have received := receive_view s d i
  unfold openSingle
  dsimp only
  rw [← received]
  split
  · exact .refl _
  · exact .refl _
  · exact Desk.begin_records (Desk.tell_notes watched) _ i.action task

theorem openStream_records (i : Invocation) (task : Nat) :
    d.view.Records (openStream s d i task).1.view := by
  have received := receive_view s d i
  unfold openStream
  dsimp only
  rw [← received]
  split
  · exact .refl _
  · exact .refl _
  · exact Desk.begin_records (Desk.tell_notes watched) ((receive s d i).1.newSuggestion s).1
      i.action task

theorem settle_records (run : Run) (i : Invocation) (target : TextRange) (text : String) :
    d.view.Records (settle s d run i target text).1.view := by
  unfold settle
  split
  · dsimp only
    split
    · rename_i entered
      exact (Desk.tryEnter_records (d := (d.newSuggestion s).1) (Desk.tell_notes watched)
        entered).trans (Desk.finish_records (Desk.tell_notes watched) _ run)
    · exact Desk.finish_records (Desk.tell_notes watched) (d.newSuggestion s).1 run
  · exact .refl d.view

theorem finishClosing_records (run : Run) (outputs : List Output) (fault : Option Fault) :
    d.view.Records (finishClosing s d run outputs fault).1.view := by
  cases fault with
  | none => exact Desk.finish_records (Desk.tell_notes watched) d run
  | some fault => exact .refl d.view

theorem leave_records (run : Run) (outputs : List Output) :
    d.view.Records (leave s d run outputs).1.view := by
  unfold leave
  cases s.closing run with
  | quiet => exact finishClosing_records watched d run outputs none
  | raises fault => exact .refl d.view
  | waits => exact .refl d.view

theorem stopEarly_records (run : Run) : d.view.Records (stopEarly s d run).1.view :=
  leave_records watched (d.remark _ _) run _

theorem refuseStream_records (run : Run) (fault : Fault) :
    d.view.Records (refuseStream s d run fault).1.view := by
  unfold refuseStream
  split
  · exact (Desk.recordFailure_records (Desk.tell_notes watched) run fault).trans
      (Desk.finish_records (Desk.tell_notes watched) _ run)
  · exact Desk.finish_records (Desk.tell_notes watched) (d.remark _ _) run

theorem failStream_records (run : Run) (fault : Fault) :
    d.view.Records (failStream s d run fault).1.view := by
  unfold failStream
  split
  · exact (Desk.recordFailure_records (Desk.tell_notes watched) run fault).trans
      (leave_records watched _ run _)
  · exact leave_records watched (d.remark _ _) run _

theorem feedChunk_records (run : Run) (snapshot : Suggestion) (task : Nat) (chunk : String) :
    d.view.Records (feedChunk s d run snapshot task chunk).1.view := by
  unfold feedChunk
  split
  · exact stopEarly_records watched d run
  · split
    · exact .refl d.view
    · dsimp only
      split
      · rename_i entered
        exact Desk.tryEnter_records (Desk.tell_notes watched) entered
      · exact failStream_records watched d run _

theorem endStream_records (run : Run) (snapshot : Suggestion) :
    d.view.Records (endStream s d run snapshot).1.view := by
  unfold endStream
  split
  · exact stopEarly_records watched d run
  · dsimp only
    split
    · rename_i entered
      exact (Desk.tryEnter_records (Desk.tell_notes watched) entered).trans
        (Desk.finish_records (Desk.tell_notes watched) _ run)
    · exact failStream_records watched d run _

theorem resume_records (run : Run) (snapshot : Suggestion) (task : Nat) :
    d.view.Records (resume s d run snapshot task).1.view := by
  unfold resume
  split
  · exact .refl d.view
  · exact stopEarly_records watched d run

/-- Every turn is recorded, at whatever stage the invocation stands. -/
theorem turn_records (m : Move) (stage : Stage) :
    d.view.Records (m.turn s d stage).1.view := by
  cases stage with
  | unopened i =>
      cases m with
      | pull p task => exact openStream_records watched { d with current := some task } i task
      | _ => exact .refl d.view
  | waitingCitation i fault task =>
      cases m with
      | searched p =>
          dsimp only [Move.turn, finishSearch]
          rw [view_searched]
          exact .refl d.view
      | _ => exact .refl d.view
  | waitingReply run i target =>
      have told := Desk.tell_notes watched
      cases m with
      | text p text => exact settle_records watched { d with current := some run.task } run i _ text
      | fail p fault =>
          exact Desk.recordFailure_records (d := { d with current := some run.task }) told run fault
      | interrupt p => exact Desk.finish_records told { d with current := some run.task } run
      | _ => exact .refl d.view
  | waitingChunk run snapshot task =>
      cases m with
      | refuse p fault =>
          exact refuseStream_records watched { d with current := some task } run fault
      | text p chunk =>
          exact feedChunk_records watched { d with current := some task } run snapshot task chunk
      | ending p => exact endStream_records watched { d with current := some task } run snapshot
      | fail p fault => exact failStream_records watched { d with current := some task } run fault
      | interrupt p => exact leave_records watched { d with current := some task } run _
      | _ => exact .refl d.view
  | shown run snapshot =>
      cases m with
      | pull p task =>
          exact resume_records watched { d with current := some task } run snapshot task
      | close p task => exact leave_records watched { d with current := some task } run _
      | _ => exact .refl d.view
  | shownLast run =>
      cases m with
      | pull p task => exact leave_records watched { d with current := some task } run _
      | close p task => exact leave_records watched { d with current := some task } run _
      | _ => exact .refl d.view
  | waitingClose run outputs task =>
      cases m with
      | shut p fault =>
          exact finishClosing_records watched { d with current := task } run outputs fault
      | _ => exact .refl d.view
  | «over» => cases m <;> exact .refl d.view

end Segments

/-! ### Moves -/

namespace Floor

/-- If the active run is another one than before, it has begun in this move. -/
theorem Advances.starts_of_ne {s : Setting} {f g : Floor} {m : Move} {outputs : List Output}
    (advances : f.Advances s m g outputs) {old new : Run}
    (before : f.desk.view.active = some old) (after : g.desk.view.active = some new)
    (other : new ≠ old) :
    ∃ action task, f.desk.view.Starts s (f.desk.view.upcoming action task) action g.desk.view := by
  have kept : ¬f.desk.view.Keeps g.desk.view := by
    intro keeps
    exact other (Option.some.inj ((keeps.2 new after).symm.trans before))
  have of_course {stage next : Stage}
      (course : Course s f.desk.view m stage g.desk.view next outputs) :
      ∃ action task,
        f.desk.view.Starts s (f.desk.view.upcoming action task) action g.desk.view := by
    rcases course.starts_or_keeps with ⟨i, task, -, -, starts⟩ | ⟨keeps, -⟩
    · exact ⟨i.action, task, starts⟩
    · exact absurd keeps kept
  cases advances with
  | absent => exact absurd (View.Cedes.refl f.desk.view).keeps kept
  | taken hplace hold course => exact of_course course
  | started course => exact of_course course
  | made i => exact absurd (View.Cedes.refl f.desk.view).keeps kept
  | controlled c task reply cedes => exact absurd cedes.keeps kept

section Watched

variable {s : Setting} (watched : s.handlers ≠ 0)
include watched

/-- Whatever happened in a move is recorded by the events that it published. -/
theorem step_records (f : Floor) (m : Move) :
    f.desk.view.Records (f.step s m).1.desk.view := by
  have does := step_does s f m
  generalize f.step s m = after at does ⊢
  cases does with
  | absent hplace missing => exact .refl f.desk.view
  | taken hplace hold => exact turn_records watched f.desk m _
  | started i task => exact openSingle_records watched (f.deskFor task) i task
  | made i => exact .refl f.desk.view
  | controlled c task =>
      exact Desk.control_records (Desk.tell_notes watched) { f.desk with current := task } c

theorem run_records (f : Floor) (moves : List Move) :
    f.desk.view.Records (f.run s moves).desk.view := by
  induction moves generalizing f with
  | nil => exact .refl f.desk.view
  | cons m moves ih => exact (step_records watched f m).trans (ih (f.step s m).1)

/-- A run that begins in place of another one, and is not taken away at once, publishes nothing
    but that its action is loading. -/
theorem Advances.supersedes {f g : Floor} {m : Move} {outputs : List Output}
    (advances : f.Advances s m g outputs) (records : f.desk.view.Records g.desk.view)
    (signals : f.desk.view.Signals s) {old new : Run} (before : f.desk.view.active = some old)
    (after : g.desk.view.active = some new) (other : new ≠ old) :
    ∃ action : Action, new.action = action.id ∧
      g.desk.view.events =
        f.desk.view.events ++ [.stateChanged f.desk.view.lifecycle.state (.loading action)] := by
  obtain ⟨action, task, starts⟩ := advances.starts_of_ne before after other
  obtain ⟨rfl, loading⟩ := starts.active_of after
  refine ⟨action, rfl, ?_⟩
  have up : f.desk.view.processing = true := signals.flag.2 (.inl (by rw [before]; rfl))
  obtain ⟨w, announced, -, raised⟩ := starts
  obtain ⟨active, flag, -⟩ := raised.active_of after
  obtain ⟨-, stays, -⟩ := announced.active_of active
  -- The flag is up all the time, so that raising it publishes nothing.
  have silent : (w.flagged s true).events = w.events := by
    unfold View.flagged
    rw [if_pos (stays.trans up)]
    exact List.append_nil _
  -- What observers do in between can only settle things, and nothing is left to be settled:
  -- the new run is active and loading at the end.
  obtain ⟨early, hearly, settles⟩ := announced.quiet
  obtain ⟨late, hlate, settles'⟩ := raised.quiet
  have heard : s.heard (.stateChanged f.desk.view.lifecycle.state (.loading action)) =
      [.stateChanged f.desk.view.lifecycle.state (.loading action)] :=
    if_neg (by simpa using watched)
  have events : g.desk.view.events = f.desk.view.events ++
      ([.stateChanged f.desk.view.lifecycle.state (.loading action)] ++ (early ++ late)) := by
    rw [hlate, silent, hearly]
    unfold View.entered
    dsimp only
    rw [heard]
    simp only [List.append_assoc]
  obtain ⟨published, told⟩ := records
  -- The events of the move are known in two ways, which are compared now.
  have same : published =
      [.stateChanged f.desk.view.lifecycle.state (.loading action)] ++ (early ++ late) :=
    List.append_cancel_left (told.events.symm.trans events)
  have states := told.states
  have flags := told.flags
  rw [same] at states flags
  have nothing : early ++ late = [] := by
    have raised' : g.desk.view.processing = true := flag
    rw [raised'] at flags
    refine eq_nil_of_settles ?_ states.2.2 ?_ flags
    · intro e he
      exact (List.mem_append.1 he).elim (settles e) (settles' e)
    · rw [loading]
      exact Lifecycle.State.noConfusion
  rw [events, nothing, List.append_nil]

/-- Whatever the observers do and however streams close, at every moment the changes of state
    among the events so far lead from the idle state to the present one, each permitted and
    each going on from the one before; there are as many as the lifecycle counts. The changes
    of the flag alternate, beginning with up, and end with the present flag. A run that takes
    the place of an active one publishes that its action is loading, and nothing else. -/
theorem events_tell_state (moves : List Move) :
    Lifecycle.State.Leads .idle (stateChanges (Floor.run s {} moves).desk.events)
        (Floor.run s {} moves).desk.lifecycle.state ∧
      (Floor.run s {} moves).desk.lifecycle.transitions =
        (stateChanges (Floor.run s {} moves).desk.events).length ∧
      Alternates false (flagChanges (Floor.run s {} moves).desk.events)
        (Floor.run s {} moves).desk.processing ∧
      ∀ (m : Move) (old new : Run), (Floor.run s {} moves).desk.active = some old →
        ((Floor.run s {} moves).step s m).1.desk.active = some new → new ≠ old →
          ∃ action : Action, new.action = action.id ∧
            ((Floor.run s {} moves).step s m).1.desk.events =
              (Floor.run s {} moves).desk.events ++
                [.stateChanged (Floor.run s {} moves).desk.lifecycle.state (.loading action)] := by
  obtain ⟨published, told⟩ := run_records watched {} moves
  have ordered := ordered_run s moves
  have signals := signals_run (signals_initial s) Coordinator.Ordered.initial moves
  generalize Floor.run s {} moves = f at told ordered signals
  have events : f.desk.events = published := told.events
  have counted : f.desk.lifecycle.transitions = 0 + (stateChanges published).length := told.counted
  refine ⟨events ▸ told.states, ?_, events ▸ told.flags, ?_⟩
  · rw [counted, events, Nat.zero_add]
  · intro m old new before after other
    exact (step_advances s ordered.suits m).supersedes watched (step_records watched f m) signals
      before after other

end Watched

/-- A stream takes the place of a single request that still waits for its reply. -/
theorem superseding_stream_tells_loading :
    ({} : Setting).handlers ≠ 0 ∧
      (Floor.run {} {} (overlap.take 2)).desk.active = some ⟨1, "rewrite.improve_clarity", 0⟩ ∧
      ((Floor.run {} {} (overlap.take 2)).step {} (.pull 1 1)).1.desk.active =
        some ⟨2, "rewrite.make_concise", 1⟩ ∧
      ∃ action : Action, "rewrite.make_concise" = action.id ∧
        ((Floor.run {} {} (overlap.take 2)).step {} (.pull 1 1)).1.desk.events =
          (Floor.run {} {} (overlap.take 2)).desk.events ++
            [.stateChanged (.loading Builtin.improveClarity) (.loading action)] :=
  ⟨by decide, rfl, rfl, (events_tell_state (s := {}) (by decide) (overlap.take 2)).2.2.2
    (.pull 1 1) ⟨1, "rewrite.improve_clarity", 0⟩ ⟨2, "rewrite.make_concise", 1⟩ rfl rfl
    (by decide)⟩

end Floor

end Coordinator

end ActionEngine
