import ActionEngine.Proofs.Coordinator.Moves
import ActionEngine.Proofs.Coordinator.View
import ActionEngine.Proofs.TextRange

/-!
# What one turn of an invocation can do

Invocations take turns: a move lets one of them go on from one suspension point to the
next. `Turn` lists what can come of that, and every segment is one of its cases, as long
as the stage fits the desk. Later proofs look at the cases of `Turn` and not at the
segments.
-/

namespace ActionEngine.Coordinator

/-- The run of an invocation that has begun one and is not over. -/
def Stage.run? : Stage → Option Run
  | .unopened _ => none
  | .waitingCitation .. => none
  | .waitingReply run _ _ => some run
  | .waitingChunk run _ _ => some run
  | .shown run _ => some run
  | .shownLast run => some run
  | .waitingClose run _ _ => some run
  | .over => none

/-- The fault of the provider that a move brings. -/
def Move.fault? : Move → Option Fault
  | .refuse _ fault => some fault
  | .fail _ fault => some fault
  | _ => none

/-- What the state of the lifecycle is while the run of a stage is the active one. A
    stream has shown nothing yet, or its last snapshot is on offer. No stream has to be
    waited for while it is closed. -/
def Stage.Fits (v : View) : Stage → Prop
  | .waitingReply run i _ =>
      run.action = i.action.id ∧
        (v.active = some run → v.lifecycle.state = .loading i.action)
  | .waitingChunk run snapshot _ =>
      run.action = snapshot.source.id ∧
        (v.active = some run → v.lifecycle.state = .loading snapshot.source ∨
          v.lifecycle.state = .ready snapshot ∧ snapshot.streaming = true)
  | .shown run snapshot =>
      run.action = snapshot.source.id ∧
        (v.active = some run → v.lifecycle.state = .ready snapshot ∧ snapshot.streaming = true)
  | .shownLast run => v.active ≠ some run
  | .waitingClose .. => False
  | _ => True

/-- What an invocation shows once its run was retired: a late reply or failure of a
    single request ends as superseded, and a stream just ends. -/
def Stage.Late (v : View) (m : Move) (outputs : List Output) : Stage → Prop
  | .waitingReply run _ _ =>
      match m with
      | .text _ _ => outputs = [.raised (.engine (.superseded (v.retiredMessage run))) none]
      | .fail _ fault =>
          outputs = [.raised (.engine (.superseded (v.retiredMessage run))) (some fault)]
      | .interrupt _ => outputs = [.cancelled]
      | _ => outputs = []
  | _ => ∀ o ∈ outputs, o = .streamOver ∨ o = .stopped ∨ o = .closed ∨ o = .cancelled

/-- What an invocation shows as long as it has begun no run. -/
def Output.Preliminary : Output → Prop
  | .citation _ => True
  | .citationAwaited => True
  | .closed => True
  | .cancelled => True
  | .raised fault cause =>
      cause = none ∧ ∀ error, fault = .engine error → error.kind ≠ .invalidTransition
  | _ => False

/-- The stage of an invocation whose run has just begun. -/
def Stage.Begins (run : Run) (action : Action) : Stage → Prop
  | .waitingReply r i _ => r = run ∧ i.action = action
  | .waitingChunk r snapshot _ => r = run ∧ snapshot.source = action
  | _ => False

/-- What a turn can do: from a stage of an invocation to the view of the desk, the next
    stage and the outputs. -/
inductive Turn (s : Setting) (v : View) (m : Move) :
    Stage → View → Stage → List Output → Prop
  /-- The move does not fit the stage. -/
  | ignored {old : Stage} {outputs : List Output} (late : old.Late v m outputs) :
      Turn s v m old v old outputs
  /-- No run begins, or not yet. -/
  | refused {old new : Stage} {outputs : List Output} (before : old.run? = none)
      (after : new.run? = none) (shows : ∀ o ∈ outputs, o.Preliminary) :
      Turn s v m old v new outputs
  /-- A run begins. -/
  | begun {old new : Stage} {request : Output} (action : Action) (task : Nat)
      (before : old.run? = none) (begins : new.Begins (v.upcoming action task) action)
      (requests : ∃ system user budget,
        request = .complete system user budget ∨ request = .stream system user budget) :
      Turn s v m old (v.begun s action task) new [request]
  /-- A stream goes on waiting. -/
  | kept {old : Stage} {run : Run} {snapshot : Suggestion} (task : Nat)
      (current : v.active = some run)
      (before : (∃ t, old = .waitingChunk run snapshot t) ∨ old = .shown run snapshot) :
      Turn s v m old v (.waitingChunk run snapshot task) []
  /-- A chunk is shown. -/
  | shown {run : Run} {snapshot : Suggestion} {task : Nat} (place : Nat) (chunk : String)
      (current : v.active = some run) (move : m = .text place chunk) (nonempty : chunk ≠ "")
      (permitted : v.lifecycle.state.check (.ready (snapshot.withChunk chunk)) = .ok ()) :
      Turn s v m (.waitingChunk run snapshot task)
        (v.entered s (.ready (snapshot.withChunk chunk)))
        (.shown run (snapshot.withChunk chunk)) [.yielded (snapshot.withChunk chunk)]
  /-- The stream of the active run ends. -/
  | ended {run : Run} {snapshot : Suggestion} {task : Nat} (place : Nat)
      (current : v.active = some run) (move : m = .ending place)
      (permitted : v.lifecycle.state.check (.ready snapshot.finished) = .ok ()) :
      Turn s v m (.waitingChunk run snapshot task)
        ((v.entered s (.ready snapshot.finished)).vacated s)
        (.shownLast run) [.streamOver, .yielded snapshot.finished]
  /-- The reply for the active run comes. -/
  | answered {run : Run} {i : Invocation} {target : TextRange} (place : Nat) (text id : String)
      (current : v.active = some run) (move : m = .text place text)
      (permitted : v.lifecycle.state.check
        (.ready ⟨id, i.selection, text, i.action, target, false⟩) = .ok ()) :
      Turn s v m (.waitingReply run i target)
        ((v.entered s (.ready ⟨id, i.selection, text, i.action, target, false⟩)).vacated s)
        .over [.returned ⟨id, i.selection, text, i.action, target, false⟩]
  /-- The provider fails the active run. -/
  | failed {old : Stage} {run : Run} {fault : Fault} (closing : List Output)
      (current : v.active = some run) (before : old.run? = some run)
      (move : m.fault? = some fault) (closes : ∀ o ∈ closing, o = .streamOver)
      (permitted : v.lifecycle.state.check
        (.failed (Desk.failure fault).1.message) = .ok ()) :
      Turn s v m old
        ((v.entered s (.failed (Desk.failure fault).1.message)).vacated s) .over
        (closing ++ [.raised (.engine (Desk.failure fault).1) (Desk.failure fault).2])
  /-- The active run is left without a result. -/
  | left {old : Stage} {run : Run} {outputs : List Output} (current : v.active = some run)
      (before : old.run? = some run)
      (shows : ∀ o ∈ outputs, o = .streamOver ∨ o = .closed ∨ o = .cancelled) :
      Turn s v m old (v.vacated s) .over outputs
  /-- A run that was retired ends. -/
  | dropped {old : Stage} {run : Run} {outputs : List Output} (stale : v.active ≠ some run)
      (before : old.run? = some run) (late : old.Late v m outputs) :
      Turn s v m old v .over outputs

abbrev Segment.IsTurn (s : Setting) (v : View) (m : Move) (old : Stage) (segment : Segment) :
    Prop :=
  Turn s v m old segment.1.view segment.2.1 segment.2.2

section Calm

variable {s : Setting}

/-! ### Before a run begins -/

theorem view_searched (d : Desk) (i : Invocation) (fault : Option Fault) :
    (searched d i fault).view = d.view := by
  unfold searched
  split <;> rfl

theorem handledExternally_preliminary (i : Invocation) :
    (Output.raised (handledExternally i) none).Preliminary := by
  refine ⟨rfl, ?_⟩
  intro error h
  cases h
  exact EngineError.Kind.noConfusion

/-- The checks on an invocation change nothing that others see. -/
structure Reception.Sound (v : View) (result : Desk × List Output × Reception) : Prop where
  view : result.1.view = v
  shows : ∀ o ∈ result.2.1, o.Preliminary
  refuses : ∀ fault, result.2.2 = .refused fault → (Output.raised fault none).Preliminary
  accepts : ∀ target, result.2.2 = .accepted target → result.2.1 = []

theorem routeExternally_sound (s : Setting) (d : Desk) (i : Invocation) :
    Reception.Sound d.view (routeExternally s d i) := by
  unfold routeExternally
  split
  · exact ⟨rfl, by simp, fun _ h => by cases h; exact handledExternally_preliminary i, by simp⟩
  · dsimp only
    split
    · exact ⟨rfl, by simp [Output.Preliminary], by simp, by simp⟩
    · exact ⟨view_searched _ _ _, by simp [Output.Preliminary],
        fun _ h => by cases h; exact handledExternally_preliminary i, by simp⟩

theorem receive_sound (s : Setting) (d : Desk) (i : Invocation) :
    Reception.Sound d.view (receive s d i) := by
  unfold receive
  split
  · refine ⟨rfl, by simp, ?_, by simp⟩
    intro fault h
    cases h
    refine ⟨rfl, ?_⟩
    intro error h
    cases h
    exact EngineError.Kind.noConfusion
  · split
    · exact routeExternally_sound s d i
    · cases h : TextRange.ofValue i.target with
      | ok target => exact ⟨rfl, by simp, by simp, by simp⟩
      | error fault =>
          refine ⟨rfl, by simp, ?_, by simp⟩
          intro other hother
          cases hother
          obtain ⟨kind, message, rfl⟩ := TextRange.ofValue_failsBySystem i.target fault h
          exact ⟨rfl, by simp⟩

namespace Reception.Sound

variable {v : View} {m : Move} {old : Stage} {d : Desk} {outputs : List Output}
  {fault : Fault} {waiting : Option Fault}

theorem refused (sound : Reception.Sound v (d, outputs, .refused fault))
    (before : old.run? = none) :
    Segment.IsTurn s v m old (d, .over, outputs ++ [.raised fault none]) := by
  refine sound.view ▸ .refused before rfl ?_
  intro o ho
  rcases List.mem_append.1 ho with ho | ho
  · exact sound.shows o ho
  · rw [List.mem_singleton.1 ho]
    exact sound.refuses fault rfl

theorem searching (sound : Reception.Sound v (d, outputs, .searching waiting))
    (before : old.run? = none) (i : Invocation) (task : Nat) :
    Segment.IsTurn s v m old (d, .waitingCitation i waiting task, outputs) :=
  sound.view ▸ .refused before rfl sound.shows

end Reception.Sound

theorem openSingle_isTurn (calm : s.Calm) (d : Desk) (i : Invocation) (task : Nat) (m : Move)
    {old : Stage} (before : old.run? = none) :
    (openSingle s d i task).IsTurn s d.view m old := by
  have sound := receive_sound s d i
  unfold openSingle
  rcases h : receive s d i with ⟨d', outputs, reception⟩
  rw [h] at sound
  cases reception with
  | refused fault => exact sound.refused before
  | searching fault => exact sound.searching before i task
  | accepted target =>
      have noOutput : outputs = [] := sound.accepts target rfl
      have view : d'.view = d.view := sound.view
      dsimp only [Segment.IsTurn]
      rw [noOutput, Desk.view_remark, Desk.view_begin calm, Desk.begin_run, view]
      exact .begun i.action task before ⟨rfl, rfl⟩ ⟨_, _, _, .inl rfl⟩

theorem openStream_isTurn (calm : s.Calm) (d : Desk) (i : Invocation) (task : Nat) (m : Move)
    {old : Stage} (before : old.run? = none) :
    (openStream s d i task).IsTurn s d.view m old := by
  have sound := receive_sound s d i
  unfold openStream
  rcases h : receive s d i with ⟨d', outputs, reception⟩
  rw [h] at sound
  cases reception with
  | refused fault => exact sound.refused before
  | searching fault => exact sound.searching before i task
  | accepted target =>
      have noOutput : outputs = [] := sound.accepts target rfl
      have view : d'.view = d.view := sound.view
      dsimp only [Segment.IsTurn]
      rw [noOutput, Desk.view_remark, Desk.view_begin calm, Desk.begin_run,
        Desk.view_newSuggestion, view]
      exact .begun i.action task before ⟨rfl, rfl⟩ ⟨_, _, _, .inr rfl⟩

/-! ### What a fitting stage permits -/

theorem check_failed_of_fits {v : View} {old : Stage} {run : Run} (message : String)
    (fits : old.Fits v) (before : old.run? = some run) (current : v.active = some run) :
    v.lifecycle.state.check (.failed message) = .ok () := by
  cases old with
  | waitingReply r i target =>
      cases before
      rw [fits.2 current]
      rfl
  | waitingChunk r snapshot task =>
      cases before
      rcases fits.2 current with h | ⟨h, _⟩ <;> rw [h] <;> rfl
  | shown r snapshot =>
      cases before
      rw [(fits.2 current).1]
      rfl
  | shownLast r =>
      cases before
      exact absurd current fits
  | waitingClose r outputs task => exact fits.elim
  | _ => cases before

/-- The failure of the active run is recorded, and takes the run away. -/
theorem recordFailure_isTurn (calm : s.Calm) {d : Desk} {run : Run} {old : Stage} {m : Move}
    {fault : Fault} (fits : old.Fits d.view) (before : old.run? = some run)
    (current : d.view.active = some run) (move : m.fault? = some fault) :
    ∃ d' : Desk, d.recordFailure s.tell run fault =
        (d', .engine (Desk.failure fault).1, (Desk.failure fault).2) ∧
      d'.view.active ≠ some run ∧
      ∀ closing, (∀ o ∈ closing, o = .streamOver) →
        Turn s d.view m old d'.view .over
          (closing ++ [.raised (.engine (Desk.failure fault).1) (Desk.failure fault).2]) := by
  have permitted := check_failed_of_fits (Desk.failure fault).1.message fits before current
  obtain ⟨d', recorded, view⟩ := Desk.recordFailure_current calm current permitted
  refine ⟨d', recorded, ?_, ?_⟩
  · rw [view, View.vacated_active]
    simp
  · intro closing closes
    rw [view]
    exact .failed closing current before move closes permitted

/-- A stream that waits may offer any snapshot of its own suggestion. -/
theorem check_ready_of_fits {v : View} {run : Run} {snapshot : Suggestion} {task : Nat}
    (next : Suggestion) (fits : (Stage.waitingChunk run snapshot task).Fits v)
    (current : v.active = some run) (same : next.id = snapshot.id) :
    v.lifecycle.state.check (.ready next) = .ok () := by
  rcases fits.2 current with h | ⟨h, _⟩
  · rw [h]
    rfl
  · rw [h]
    simp [Lifecycle.State.check, Lifecycle.State.mayPrecede, Lifecycle.State.sameSuggestion, same]

/-! ### Single requests -/

theorem settle_isTurn (calm : s.Calm) {d : Desk} {run : Run} {i : Invocation} {target : TextRange}
    (fits : (Stage.waitingReply run i target).Fits d.view) (place : Nat) (text : String) :
    (settle s d run i target text).IsTurn s d.view (.text place text)
      (.waitingReply run i target) := by
  unfold settle
  dsimp only
  by_cases current : d.view.active = some run
  · have permitted (next : Suggestion) : d.view.lifecycle.state.check (.ready next) = .ok () := by
      rw [fits.2 current]
      rfl
    rw [if_pos ((Desk.isCurrent_iff _ run).2 current),
      Desk.tryEnter_ok (d := (d.newSuggestion s).1) s.tell (permitted _)]
    dsimp only [Segment.IsTurn]
    rw [Desk.view_finish calm, Desk.view_enter calm, Desk.view_newSuggestion,
      View.entered_active, if_pos current]
    exact .answered place text (s.suggestionId d.nextSuggestion) current rfl (permitted _)
  · rw [if_neg (mt (Desk.isCurrent_iff _ run).1 current)]
    exact .dropped current rfl rfl

theorem failSingle_isTurn (calm : s.Calm) {d : Desk} {run : Run} {i : Invocation}
    {target : TextRange} (fits : (Stage.waitingReply run i target).Fits d.view) (place : Nat)
    (fault : Fault) :
    (failSingle s d run fault).IsTurn s d.view (.fail place fault)
      (.waitingReply run i target) := by
  unfold failSingle
  by_cases current : d.view.active = some run
  · obtain ⟨d', recorded, -, turn⟩ :=
      recordFailure_isTurn (m := .fail place fault) calm fits rfl current rfl
    rw [recorded]
    exact turn [] (by simp)
  · obtain ⟨d', recorded, view⟩ := Desk.recordFailure_stale s.tell fault current
    rw [recorded]
    dsimp only [Segment.IsTurn]
    rw [view]
    exact .dropped current rfl rfl

theorem interruptSingle_isTurn (calm : s.Calm) (d : Desk) (run : Run) (i : Invocation)
    (target : TextRange) (place : Nat) :
    (interruptSingle s d run).IsTurn s d.view (.interrupt place) (.waitingReply run i target) := by
  unfold interruptSingle
  dsimp only [Segment.IsTurn]
  rw [Desk.view_finish calm]
  by_cases current : d.view.active = some run
  · rw [if_pos current]
    exact .left current rfl (by simp)
  · rw [if_neg current]
    exact .dropped current rfl rfl

/-! ### Streams -/

/-- The stage is one of a stream that has begun its run. -/
def Stage.Streams (run : Run) : Stage → Prop
  | .waitingChunk r _ _ => r = run
  | .shown r _ => r = run
  | .shownLast r => r = run
  | _ => False

theorem Stage.Streams.run_eq {old : Stage} {run : Run} (streams : old.Streams run) :
    old.run? = some run := by
  cases old with
  | waitingChunk r snapshot task => exact congrArg some streams
  | shown r snapshot => exact congrArg some streams
  | shownLast r => exact congrArg some streams
  | _ => exact streams.elim

theorem Stage.Streams.late {old : Stage} {run : Run} (streams : old.Streams run) (v : View)
    (m : Move) {outputs : List Output}
    (h : ∀ o ∈ outputs, o = .streamOver ∨ o = .stopped ∨ o = .closed ∨ o = .cancelled) :
    old.Late v m outputs := by
  cases old with
  | waitingReply r i target => exact streams.elim
  | _ => exact h

/-- A stream is left by an outside decision: its run is taken away if it is active. -/
theorem leave_isTurn (calm : s.Calm) (d : Desk) {run : Run} {old : Stage} (m : Move)
    (outputs : List Output) (streams : old.Streams run)
    (shows : ∀ o ∈ outputs, o = .streamOver ∨ o = .closed ∨ o = .cancelled) :
    (leave s d run outputs).IsTurn s d.view m old := by
  unfold leave
  rw [calm.closes]
  dsimp only [Segment.IsTurn, finishClosing]
  rw [Desk.view_finish calm]
  by_cases current : d.view.active = some run
  · rw [if_pos current]
    exact .left current streams.run_eq shows
  · rw [if_neg current]
    refine .dropped current streams.run_eq (streams.late _ _ ?_)
    intro o ho
    rcases shows o ho with h | h | h <;> simp [h]

/-- A stream whose run was retired ends without a word. -/
theorem leave_isTurn_of_stale (calm : s.Calm) {d : Desk} {run : Run} {old : Stage} (m : Move)
    (outputs : List Output) (streams : old.Streams run) (stale : d.view.active ≠ some run)
    (shows : ∀ o ∈ outputs, o = .streamOver ∨ o = .stopped) :
    (leave s d run outputs).IsTurn s d.view m old := by
  unfold leave
  rw [calm.closes]
  dsimp only [Segment.IsTurn, finishClosing]
  rw [Desk.view_finish calm, if_neg stale]
  refine .dropped stale streams.run_eq (streams.late _ _ ?_)
  intro o ho
  rcases shows o ho with h | h <;> simp [h]

theorem stopEarly_isTurn (calm : s.Calm) {d : Desk} {run : Run} {old : Stage} (m : Move)
    (streams : old.Streams run) (stale : d.view.active ≠ some run) :
    (stopEarly s d run).IsTurn s d.view m old :=
  leave_isTurn_of_stale (d := d.remark _ _) calm m _ streams stale (by simp)

theorem failStream_isTurn (calm : s.Calm) {d : Desk} {run : Run} {old : Stage} {m : Move}
    {fault : Fault} (fits : old.Fits d.view) (streams : old.Streams run)
    (move : m.fault? = some fault) : (failStream s d run fault).IsTurn s d.view m old := by
  unfold failStream
  by_cases current : d.view.active = some run
  · obtain ⟨d', recorded, gone, turn⟩ :=
      recordFailure_isTurn calm fits streams.run_eq current move
    rw [if_pos ((Desk.isCurrent_iff d run).2 current), recorded]
    unfold leave
    rw [calm.closes]
    dsimp only [Segment.IsTurn, finishClosing]
    rw [Desk.view_finish calm, if_neg gone]
    exact turn [.streamOver] (by simp)
  · rw [if_neg (mt (Desk.isCurrent_iff d run).1 current)]
    exact leave_isTurn_of_stale (d := d.remark _ _) calm m _ streams current (by simp)

theorem refuseStream_isTurn (calm : s.Calm) {d : Desk} {run : Run} {old : Stage} {m : Move}
    {fault : Fault} (fits : old.Fits d.view) (streams : old.Streams run)
    (move : m.fault? = some fault) : (refuseStream s d run fault).IsTurn s d.view m old := by
  unfold refuseStream
  by_cases current : d.view.active = some run
  · obtain ⟨d', recorded, gone, turn⟩ :=
      recordFailure_isTurn calm fits streams.run_eq current move
    rw [if_pos ((Desk.isCurrent_iff d run).2 current), recorded]
    dsimp only [Segment.IsTurn]
    rw [Desk.view_finish calm, if_neg gone]
    exact turn [] (by simp)
  · rw [if_neg (mt (Desk.isCurrent_iff d run).1 current)]
    dsimp only [Segment.IsTurn]
    rw [Desk.view_finish calm, Desk.view_remark, if_neg current]
    exact .dropped current streams.run_eq (streams.late _ _ (by simp))

theorem feedChunk_isTurn (calm : s.Calm) {d : Desk} {run : Run} {snapshot : Suggestion}
    {task : Nat} (fits : (Stage.waitingChunk run snapshot task).Fits d.view) (place : Nat)
    (chunk : String) :
    (feedChunk s d run snapshot task chunk).IsTurn s d.view (.text place chunk)
      (.waitingChunk run snapshot task) := by
  unfold feedChunk
  by_cases current : d.view.active = some run
  · rw [if_neg (by simpa using (Desk.isCurrent_iff d run).2 current)]
    by_cases empty : chunk = ""
    · rw [if_pos (by simpa using empty)]
      exact .kept task current (.inl ⟨task, rfl⟩)
    · rw [if_neg (by simpa using empty)]
      have permitted := check_ready_of_fits (snapshot.withChunk chunk) fits current rfl
      dsimp only
      rw [Desk.tryEnter_ok _ permitted]
      dsimp only [Segment.IsTurn]
      rw [Desk.view_enter calm]
      exact .shown place chunk current rfl empty permitted
  · rw [if_pos (by simpa using mt (Desk.isCurrent_iff d run).1 current)]
    exact stopEarly_isTurn calm _ rfl current

theorem endStream_isTurn (calm : s.Calm) {d : Desk} {run : Run} {snapshot : Suggestion}
    {task : Nat} (fits : (Stage.waitingChunk run snapshot task).Fits d.view) (place : Nat) :
    (endStream s d run snapshot).IsTurn s d.view (.ending place)
      (.waitingChunk run snapshot task) := by
  unfold endStream
  by_cases current : d.view.active = some run
  · rw [if_neg (by simpa using (Desk.isCurrent_iff d run).2 current)]
    have permitted := check_ready_of_fits snapshot.finished fits current rfl
    dsimp only
    rw [Desk.tryEnter_ok _ permitted]
    dsimp only [Segment.IsTurn]
    rw [Desk.view_finish calm, Desk.view_enter calm, View.entered_active, if_pos current]
    exact .ended place current rfl permitted
  · rw [if_pos (by simpa using mt (Desk.isCurrent_iff d run).1 current)]
    exact stopEarly_isTurn calm _ rfl current

theorem resume_isTurn (calm : s.Calm) (d : Desk) (run : Run) (snapshot : Suggestion)
    (task : Nat) (m : Move) :
    (resume s d run snapshot task).IsTurn s d.view m (.shown run snapshot) := by
  unfold resume
  by_cases current : d.view.active = some run
  · rw [if_pos ((Desk.isCurrent_iff d run).2 current)]
    exact .kept task current (.inr rfl)
  · rw [if_neg (mt (Desk.isCurrent_iff d run).1 current)]
    exact stopEarly_isTurn calm m rfl current

end Calm

end ActionEngine.Coordinator
