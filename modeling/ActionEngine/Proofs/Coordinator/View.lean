import ActionEngine.Coordinator.Desk

/-!
# What others see of a desk

The lifecycle, the active run, the processing flag, the runs that were cancelled, the
number of the next run and the events so far are all that the outside can tell of a
desk. While observers only record,
every operation of the desk is a function of this view. The lemmas of this file give
that function for each operation, so that no later proof has to open one.
-/

namespace ActionEngine.Coordinator

/-- Observers only record, and the provider's streams close without a fault. -/
structure Setting.Calm (s : Setting) : Prop where
  silent : ∀ events, s.react events = []
  closes : s.closing = fun _ => .quiet

/-- The events that are seen when one is published; without handlers nobody sees it. -/
def Setting.heard (s : Setting) (e : Event) : List Event :=
  if s.handlers == 0 then [] else [e]

/-- What others see of a desk. -/
structure View where
  lifecycle : Lifecycle
  active : Option Run
  processing : Bool
  cancelled : List Nat
  nextRun : Nat
  events : List Event

namespace View

def entered (s : Setting) (v : View) (next : Lifecycle.State) : View :=
  { v with lifecycle := v.lifecycle.move next
           events := v.events ++ s.heard (.stateChanged v.lifecycle.state next) }

/-- The flag is set; only a change is published. -/
def flagged (s : Setting) (v : View) (on : Bool) : View :=
  { v with processing := on
           events := v.events ++ if v.processing = on then [] else s.heard (.processingChanged on) }

def vacated (s : Setting) (v : View) : View :=
  flagged s { v with active := none } false

def retiredMessage (v : View) (run : Run) : String :=
  run.retiredMessage (v.cancelled.contains run.number)

def upcoming (v : View) (action : Action) (task : Nat) : Run :=
  ⟨v.nextRun, action.id, task⟩

/-- The next run begins. -/
def begun (s : Setting) (v : View) (action : Action) (task : Nat) : View :=
  flagged s (entered s { v with nextRun := v.nextRun + 1, active := some (v.upcoming action task) }
    (.loading action)) true

/-- The active run is taken away, if there is one. -/
def released (s : Setting) (v : View) : View :=
  if v.active.isSome then v.vacated s else v

/-- The suggestion is dropped, and whatever is going on. -/
def dismissed (s : Setting) (v : View) : View :=
  if v.lifecycle.state.isIdle then v.released s else (v.released s).entered s .idle

/-- The active run is cancelled. -/
def aborted (s : Setting) (v : View) : View :=
  match v.active with
  | none => v
  | some run => vacated s { v with cancelled := v.cancelled ++ [run.number] }

def controlled (s : Setting) (v : View) : Control → View × Reply
  | .accept =>
      match v.lifecycle.state.suggestion? with
      | none => (v, .text none)
      | some suggestion => (v.dismissed s, .text (some suggestion.text))
  | .reject => (v.dismissed s, .nothing)
  | .clear => (v.dismissed s, .nothing)
  | .cancel => (v.aborted s, .flag v.active.isSome)

variable (s : Setting) (v : View)

/-- Whatever is controlled, nothing happens, or the suggestion is dropped, or the active
    run is cancelled. -/
theorem controlled_cases (c : Control) :
    (v.controlled s c).1 = v ∨ (v.controlled s c).1 = v.dismissed s ∨
      (v.controlled s c).1 = v.aborted s := by
  cases c with
  | accept =>
      unfold controlled
      dsimp only
      split
      · exact .inl rfl
      · exact .inr (.inl rfl)
  | reject => exact .inr (.inl rfl)
  | clear => exact .inr (.inl rfl)
  | cancel => exact .inr (.inr rfl)

@[simp] theorem entered_state (next : Lifecycle.State) :
    (v.entered s next).lifecycle.state = next := rfl

@[simp] theorem entered_active (next : Lifecycle.State) :
    (v.entered s next).active = v.active := rfl

@[simp] theorem entered_processing (next : Lifecycle.State) :
    (v.entered s next).processing = v.processing := rfl

@[simp] theorem entered_nextRun (next : Lifecycle.State) :
    (v.entered s next).nextRun = v.nextRun := rfl

@[simp] theorem vacated_lifecycle : (v.vacated s).lifecycle = v.lifecycle := rfl

@[simp] theorem vacated_active : (v.vacated s).active = none := rfl

@[simp] theorem vacated_processing : (v.vacated s).processing = false := rfl

@[simp] theorem vacated_nextRun : (v.vacated s).nextRun = v.nextRun := rfl

@[simp] theorem released_lifecycle : (v.released s).lifecycle = v.lifecycle := by
  unfold released
  split <;> rfl

@[simp] theorem released_active : (v.released s).active = none := by
  unfold released
  split
  · rfl
  · simpa using ‹¬v.active.isSome = true›

@[simp] theorem dismissed_active : (v.dismissed s).active = none := by
  unfold dismissed
  split <;> simp

@[simp] theorem aborted_active : (v.aborted s).active = none := by
  unfold aborted
  split
  · assumption
  · rfl

@[simp] theorem released_nextRun : (v.released s).nextRun = v.nextRun := by
  unfold released
  split <;> rfl

@[simp] theorem dismissed_nextRun : (v.dismissed s).nextRun = v.nextRun := by
  unfold dismissed
  split <;> simp

@[simp] theorem aborted_nextRun : (v.aborted s).nextRun = v.nextRun := by
  unfold aborted
  split <;> rfl

variable {s v} in
theorem released_processing (flag : v.processing = v.active.isSome) :
    (v.released s).processing = false := by
  unfold released
  split
  · rfl
  · simpa [flag] using ‹¬v.active.isSome = true›

variable {s v} in
theorem dismissed_processing (flag : v.processing = v.active.isSome) :
    (v.dismissed s).processing = false := by
  unfold dismissed
  split <;> simp [released_processing flag]

variable {s v} in
theorem aborted_processing (flag : v.processing = v.active.isSome) :
    (v.aborted s).processing = false := by
  unfold aborted
  split
  · simp [flag, ‹v.active = none›]
  · rfl

end View

namespace Desk

def view (d : Desk) : View :=
  ⟨d.lifecycle, d.active, d.processing, d.cancelled, d.nextRun, d.events⟩

/-! ### Bookkeeping that nobody sees -/

@[simp] theorem view_remark (d : Desk) (level : Log.Level) (message : String) :
    (d.remark level message).view = d.view := rfl

@[simp] theorem view_newSuggestion (s : Setting) (d : Desk) :
    (d.newSuggestion s).1.view = d.view := rfl

@[simp] theorem view_askToStop (d : Desk) (task : Nat) : (d.askToStop task).view = d.view := by
  unfold askToStop
  split <;> rfl

theorem isCurrent_iff (d : Desk) (run : Run) :
    d.isCurrent run = true ↔ d.view.active = some run := by
  simp [isCurrent, view]

/-! ### Operations that publish -/

section Calm

variable {s : Setting}

theorem tell_eq (silent : ∀ events, s.react events = []) (d : Desk) (e : Event) :
    s.tell d e = if s.handlers == 0 then d else d.record s.handlers e := by
  unfold Setting.tell publishWithin
  simp only [silent, List.foldl_nil]

theorem view_tell (calm : s.Calm) (d : Desk) (e : Event) :
    (s.tell d e).view = { d.view with events := d.view.events ++ s.heard e } := by
  rw [tell_eq calm.silent]
  unfold Setting.heard
  split
  · simp [view]
  · rfl

theorem view_setProcessing (calm : s.Calm) (d : Desk) (on : Bool) :
    (d.setProcessing s.tell on).view = d.view.flagged s on := by
  unfold setProcessing View.flagged
  by_cases h : d.processing = on
  · simp [view, h]
  · rw [if_neg h, view_tell calm]
    simp [view, h]

theorem view_enter (calm : s.Calm) (d : Desk) (next : Lifecycle.State) :
    (d.enter s.tell next).view = d.view.entered s next := by
  unfold enter
  rw [view_tell calm]
  rfl

/-- A run that is active is taken away, otherwise nothing happens. -/
theorem view_retire (calm : s.Calm) (d : Desk) :
    (d.retire s.tell).view = d.view.released s := by
  unfold retire View.released
  cases h : d.active with
  | none => simp [view, h]
  | some run =>
      rw [view_setProcessing calm, if_pos (by simp [view, h])]
      rfl

theorem view_finish (calm : s.Calm) (d : Desk) (run : Run) :
    (d.finish s.tell run).view =
      if d.view.active = some run then d.view.vacated s else d.view := by
  unfold finish
  by_cases h : d.view.active = some run
  · rw [if_pos ((isCurrent_iff d run).2 h), if_pos h, view_setProcessing calm]
    rfl
  · rw [if_neg (mt (isCurrent_iff d run).1 h), if_neg h]

theorem view_reset (calm : s.Calm) (d : Desk) :
    (d.reset s.tell).view =
      if d.view.lifecycle.state.isIdle then d.view else d.view.entered s .idle := by
  unfold reset
  by_cases h : d.lifecycle.state.isIdle
  · rw [if_pos h, if_pos (by simpa [view] using h)]
  · rw [if_neg h, if_neg (by simpa [view] using h)]
    exact view_enter calm d .idle

theorem view_dismiss (calm : s.Calm) (d : Desk) :
    (d.dismiss s.tell).view = d.view.dismissed s := by
  unfold dismiss View.dismissed
  rw [view_reset calm, view_retire calm, View.released_lifecycle]

theorem view_accept (calm : s.Calm) (d : Desk) :
    (d.control s.tell .accept).1.view = (d.view.controlled s .accept).1 ∧
      (d.control s.tell .accept).2 = (d.view.controlled s .accept).2 := by
  change (d.accept s.tell).1.view = _ ∧ Reply.text (d.accept s.tell).2 = _
  have same : d.view.lifecycle.state.suggestion? = d.lifecycle.state.suggestion? := rfl
  unfold accept View.controlled
  dsimp only
  rw [same]
  cases d.lifecycle.state.suggestion? with
  | none => exact ⟨rfl, rfl⟩
  | some suggestion => exact ⟨view_dismiss calm d, rfl⟩

theorem view_cancel (calm : s.Calm) (d : Desk) :
    (d.control s.tell .cancel).1.view = (d.view.controlled s .cancel).1 ∧
      (d.control s.tell .cancel).2 = (d.view.controlled s .cancel).2 := by
  change (d.cancel s.tell).1.view = d.view.aborted s ∧
    Reply.flag (d.cancel s.tell).2 = .flag d.active.isSome
  have same : d.view.active = d.active := rfl
  unfold cancel View.aborted
  rw [same]
  cases h : d.active with
  | none => exact ⟨rfl, rfl⟩
  | some run =>
      refine ⟨?_, rfl⟩
      dsimp only
      rw [view_askToStop, view_retire calm]
      exact if_pos (by simp [view, remark, h])

theorem view_control (calm : s.Calm) (d : Desk) (c : Control) :
    (d.control s.tell c).1.view = (d.view.controlled s c).1 ∧
      (d.control s.tell c).2 = (d.view.controlled s c).2 := by
  cases c with
  | accept => exact view_accept calm d
  | reject => exact ⟨view_dismiss calm d, rfl⟩
  | clear => exact ⟨view_dismiss calm d, rfl⟩
  | cancel => exact view_cancel calm d

theorem begin_run (d : Desk) (publish : Publish) (action : Action) (task : Nat) :
    (d.begin publish action task).2 = d.view.upcoming action task := rfl

theorem view_begin (calm : s.Calm) (d : Desk) (action : Action) (task : Nat) :
    (d.begin s.tell action task).1.view = d.view.begun s action task := by
  unfold begin View.begun
  simp only [view_setProcessing calm, view_enter calm]
  cases d.active <;> rfl

/-- A permitted state is entered in any case. -/
theorem tryEnter_ok {d : Desk} {next : Lifecycle.State} (publish : Publish)
    (h : d.view.lifecycle.state.check next = .ok ()) :
    d.tryEnter publish next = .ok (d.enter publish next) := by
  change d.lifecycle.state.check next = .ok () at h
  simp only [tryEnter, Lifecycle.enter, h]
  rfl

theorem recordFailure_current (calm : s.Calm) {d : Desk} {run : Run} {fault : Fault}
    (current : d.view.active = some run)
    (permitted : d.view.lifecycle.state.check (.failed (failure fault).1.message) = .ok ()) :
    ∃ d' : Desk,
      d.recordFailure s.tell run fault = (d', .engine (failure fault).1, (failure fault).2) ∧
      d'.view = (d.view.entered s (.failed (failure fault).1.message)).vacated s := by
  unfold recordFailure
  rw [if_pos ((isCurrent_iff d run).2 current)]
  dsimp only
  rw [tryEnter_ok _ (by simpa using permitted)]
  refine ⟨_, rfl, ?_⟩
  rw [view_finish calm, view_enter calm, View.entered_active, if_pos (by simpa using current)]
  rfl

theorem recordFailure_stale (publish : Publish) {d : Desk} {run : Run} (fault : Fault)
    (stale : d.view.active ≠ some run) :
    ∃ d' : Desk,
      d.recordFailure publish run fault =
        (d', .engine (.superseded (d.view.retiredMessage run)), some fault) ∧
      d'.view = d.view := by
  unfold recordFailure
  rw [if_neg (mt (isCurrent_iff d run).1 stale)]
  exact ⟨_, rfl, rfl⟩

end Calm

end Desk

end ActionEngine.Coordinator
