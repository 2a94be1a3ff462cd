import ActionEngine.Proofs.Coordinator.Answers
import ActionEngine.Proofs.Coordinator.Order

/-!
# A turn among observers

`Turn` says what one turn of an invocation does while observers only record and streams
are closed at once. `Course` drops both assumptions: observers may answer any event by any
control, and a stream may have to be waited for when it is closed, or fail. It says less
about the views in between, and tells apart what the later proofs need: which chunk a turn
takes, which snapshot it shows, and whether the run is still active when the invocation is
over.
-/

namespace ActionEngine.Coordinator

/-- Some observer answers the last of these events by more than accepting. -/
def Setting.Revokes (s : Setting) (events : List Event) : Prop :=
  (s.handlers == 0) = false ∧ ∃ c ∈ s.react events, c ≠ .accept

/-- A run is finished: it is taken away if it is the active one. -/
def View.Finishes (s : Setting) (run : Run) (v v' : View) : Prop :=
  v.active = some run ∧ (v.vacated s).Cedes v' ∨ v.active ≠ some run ∧ v' = v

def Output.snapshot? : Output → Option Suggestion
  | .yielded snapshot => some snapshot
  | _ => none

/-- Where the stream of a run is left: it is over, or waits until it is closed, and shows no
    snapshot then. -/
def Stage.Left (run : Run) : Stage → Prop
  | .over => True
  | .waitingClose r outputs _ => r = run ∧ outputs.filterMap Output.snapshot? = []
  | _ => False

/-- The stream of a run is left. If it is closed at once, the run is finished. -/
def View.Leaves (s : Setting) (run : Run) (v v' : View) (new : Stage) : Prop :=
  s.closing run = .quiet ∧ new = .over ∧ v.Finishes s run v' ∨
    (∃ fault, s.closing run = .raises fault) ∧ new = .over ∧ v' = v ∨
    s.closing run = .waits ∧ (∃ outputs task, new = .waitingClose run outputs task ∧
      outputs.filterMap Output.snapshot? = []) ∧ v' = v

/-- A run begins. It is announced, and then the flag is raised, even if an observer took the
    run away when it was announced. -/
def View.Starts (s : Setting) (run : Run) (action : Action) (v v' : View) : Prop :=
  ∃ w, View.Cedes
      (View.entered s { v with nextRun := v.nextRun + 1, active := some run } (.loading action)) w ∧
    (w.active = none ↔
      s.Revokes (v.events ++ [.stateChanged v.lifecycle.state (.loading action)])) ∧
    (w.flagged s true).Cedes v'

namespace View

variable {s : Setting} {v w v' : View} {run : Run} {action : Action}

theorem Finishes.not_active (finishes : v.Finishes s run v') : v'.active ≠ some run := by
  rcases finishes with ⟨-, cedes⟩ | ⟨stale, rfl⟩
  · rw [(cedes.vacant (View.vacated_active s v)).1]
    simp
  · exact stale

theorem Finishes.eq_of_stale (finishes : v.Finishes s run v') (stale : v.active ≠ some run) :
    v' = v := by
  rcases finishes with ⟨current, -⟩ | ⟨-, same⟩
  · exact absurd current stale
  · exact same

theorem Finishes.cedes (finishes : v.Finishes s run v') : v.Cedes v' := by
  rcases finishes with ⟨current, cedes⟩ | ⟨-, rfl⟩
  · have same : v.released s = v.vacated s := by
      unfold released
      rw [current]
      rfl
    exact (same ▸ Cedes.released s v).trans cedes
  · exact .refl v'

/-- A run that shows a state and is then finished leaves no run behind. -/
theorem Finishes.vacates {next : Lifecycle.State} (finishes : w.Finishes s run v')
    (current : v.active = some run) (entered : (v.entered s next).Cedes w) :
    v'.active = none ∧ v'.processing = false := by
  rcases finishes with ⟨-, cedes⟩ | ⟨stale, rfl⟩
  · exact cedes.vacant (View.vacated_active s w)
  -- An observer of the state that was shown has taken the run away first.
  · rcases entered.runs with ⟨active, -, -⟩ | ⟨-, vacant, down⟩
    · exact absurd (active.trans current) stale
    · exact ⟨vacant, down⟩

theorem Leaves.left {new : Stage} (leaves : v.Leaves s run v' new) : new.Left run := by
  rcases leaves with ⟨-, rfl, -⟩ | ⟨-, rfl, -⟩ | ⟨-, ⟨outputs, task, rfl, shows⟩, -⟩
  · trivial
  · trivial
  · exact ⟨rfl, shows⟩

theorem Leaves.eq_of_stale {new : Stage} (leaves : v.Leaves s run v' new)
    (stale : v.active ≠ some run) : v' = v := by
  rcases leaves with ⟨-, -, finishes⟩ | ⟨-, -, same⟩ | ⟨-, -, same⟩
  · exact finishes.eq_of_stale stale
  · exact same
  · exact same

theorem Leaves.cedes {new : Stage} (leaves : v.Leaves s run v' new) : v.Cedes v' := by
  rcases leaves with ⟨-, -, finishes⟩ | ⟨-, -, rfl⟩ | ⟨-, -, rfl⟩
  · exact finishes.cedes
  · exact .refl v'
  · exact .refl v'

/-- A run stays active when its stream is over only if closing the stream failed. -/
theorem Leaves.active_iff (leaves : v.Leaves s run v' .over) :
    v'.active = some run ↔ v.active = some run ∧ ∃ fault, s.closing run = .raises fault := by
  rcases leaves with ⟨quiet, -, finishes⟩ | ⟨raises, -, rfl⟩ | ⟨-, ⟨outputs, task, stays, -⟩, -⟩
  · constructor
    · intro active
      exact absurd active finishes.not_active
    · rintro ⟨-, fault, closes⟩
      rw [quiet] at closes
      cases closes
  · exact ⟨fun active => ⟨active, raises⟩, fun h => h.1⟩
  · cases stays

theorem Starts.nextRun (starts : v.Starts s run action v') : v'.nextRun = v.nextRun + 1 := by
  obtain ⟨w, announced, -, raised⟩ := starts
  exact raised.next.trans announced.next

theorem Starts.active_of (starts : v.Starts s run action v') {r : Run}
    (h : v'.active = some r) : r = run ∧ v'.lifecycle.state = .loading action := by
  obtain ⟨w, announced, -, raised⟩ := starts
  obtain ⟨active, -, same⟩ := raised.active_of h
  obtain ⟨active', -, same'⟩ := announced.active_of active
  refine ⟨(Option.some.inj active').symm, ?_⟩
  rw [same]
  exact congrArg Lifecycle.state same'

end View

namespace Desk

variable (s : Setting) (d : Desk)

theorem finish_finishes (run : Run) : d.view.Finishes s run (d.finish s.tell run).view := by
  unfold finish
  by_cases current : d.view.active = some run
  · rw [if_pos ((isCurrent_iff d run).2 current)]
    exact .inl ⟨current, flagged_cedes (tell_hears s) { d with active := none } false⟩
  · rw [if_neg (mt (isCurrent_iff d run).1 current)]
    exact .inr ⟨current, rfl⟩

/-- Accepting finds nothing while an action is loading; every other answer takes the run
    away. -/
theorem answers_vacate_iff {publish : Publish} (hears : s.Hears publish) (e : Event)
    (controls : List Control) {d : Desk} {run : Run} {action : Action}
    (busy : d.active = some run) (loading : d.lifecycle.state = .loading action) :
    (controls.foldl (answer publish e) d).view.active = none ↔ ∃ c ∈ controls, c ≠ .accept := by
  -- On the answers in their turn. Accepts in front leave the desk as it is; the first answer
  -- of another kind takes the run away, and nothing gives it back.
  induction controls generalizing d with
  | nil =>
      have active : d.view.active = some run := busy
      simp [active]
  | cons c controls ih =>
      rw [List.foldl_cons]
      by_cases h : c = .accept
      · subst h
        have same : answer publish e d .accept =
            { d with reactions := d.reactions ++ [⟨e, .accept, .text none⟩] } := by
          unfold answer control accept
          rw [loading]
          rfl
        rw [same, ih (d := { d with reactions := d.reactions ++ [⟨e, .accept, .text none⟩] })
          busy loading]
        simp
      · have vacant : (answer publish e d c).view.active = none := control_vacates hears d h
        have stays := (answers_cede hears (answer publish e d c) e controls).vacant vacant
        exact ⟨fun _ => ⟨c, List.mem_cons_self, h⟩, fun _ => stays.1⟩

theorem enter_vacates_iff {run : Run} (action : Action) (busy : d.active = some run) :
    (d.enter s.tell (.loading action)).view.active = none ↔
      s.Revokes (d.events ++ [.stateChanged d.lifecycle.state (.loading action)]) := by
  unfold enter Setting.Revokes
  -- Without handlers nobody answers.
  cases visible : s.handlers == 0 with
  | true =>
      have silent : (s.tell { d with lifecycle := d.lifecycle.move (.loading action) }
          (.stateChanged d.lifecycle.state (.loading action))).view.active = some run := by
        unfold Setting.tell
        rw [visible]
        exact busy
      simp [silent]
  | false =>
      rw [tell_eq_answers s visible]
      have vacates := answers_vacate_iff s (tell_hears s)
        (.stateChanged d.lifecycle.state (.loading action))
        (s.react (d.events ++ [.stateChanged d.lifecycle.state (.loading action)]))
        (d := record s.handlers { d with lifecycle := d.lifecycle.move (.loading action) }
          (.stateChanged d.lifecycle.state (.loading action))) busy rfl
      exact vacates.trans ⟨fun h => ⟨rfl, h⟩, fun h => h.2⟩

theorem begin_eq (publish : Publish) (action : Action) (task : Nat) :
    ∃ d', d'.view = { d.view with
        nextRun := d.nextRun + 1, active := some (d.view.upcoming action task) } ∧
      (d.begin publish action task).1 =
        setProcessing publish (enter publish d' (.loading action)) true := by
  unfold begin
  cases d.active with
  | none => exact ⟨_, rfl, rfl⟩
  | some previous => exact ⟨_, rfl, rfl⟩

theorem begin_starts (action : Action) (task : Nat) :
    d.view.Starts s (d.view.upcoming action task) action (d.begin s.tell action task).1.view := by
  obtain ⟨d', view, begun⟩ := begin_eq d s.tell action task
  rw [begun]
  have busy : d'.active = some (d.view.upcoming action task) := congrArg View.active view
  have entered := entered_cedes (tell_hears s) d' (.loading action)
  have vacates := enter_vacates_iff s d' action busy
  have events : d'.events = d.events := congrArg View.events view
  have lifecycle : d'.lifecycle = d.lifecycle := congrArg View.lifecycle view
  rw [view] at entered
  rw [events, lifecycle] at vacates
  exact ⟨_, entered, vacates, flagged_cedes (tell_hears s) _ true⟩

theorem recordFailure_shows {d : Desk} {run : Run} {fault : Fault}
    (current : d.view.active = some run)
    (permitted : d.view.lifecycle.state.check (.failed (failure fault).1.message) = .ok ()) :
    ∃ d' w, d.recordFailure s.tell run fault =
        (d', .engine (failure fault).1, (failure fault).2) ∧
      (d.view.entered s (.failed (failure fault).1.message)).Cedes w ∧
      w.Finishes s run d'.view := by
  unfold recordFailure
  rw [if_pos ((isCurrent_iff d run).2 current)]
  dsimp only
  rw [tryEnter_ok _ (by simpa using permitted)]
  exact ⟨_, _, rfl, entered_cedes (tell_hears s) (d.remark _ _) _, finish_finishes s _ run⟩

end Desk

/-! ### The turns -/

/-- The chunk that a move brings to a stream whose run is active. -/
def Stage.chunk? (v : View) (m : Move) : Stage → Option String
  | .waitingChunk run _ _ =>
      match m with
      | .text _ chunk => if v.active = some run then some chunk else none
      | _ => none
  | _ => none

/-- The move ends a stream normally, while its run is active. -/
def Stage.ends (v : View) (m : Move) : Stage → Bool
  | .waitingChunk run _ _ =>
      match m with
      | .ending _ => v.active = some run
      | _ => false
  | _ => false

/-- The move brings no chunk and does not end the stream. -/
def Stage.Deaf (v : View) (m : Move) (stage : Stage) : Prop :=
  stage.chunk? v m = none ∧ stage.ends v m = false

/-- An outside decision to leave an invocation: its task is cancelled, or its iterator
    closed. -/
def Move.Departs : Move → Prop
  | .interrupt _ => True
  | .close .. => True
  | _ => False

theorem Move.Departs.fault?_eq_none {m : Move} (departs : m.Departs) : m.fault? = none := by
  cases m <;> first | rfl | exact departs.elim

/-- A stream that is waited for is not closed: its task is cancelled, or closing it fails. -/
def Move.FailsToClose : Move → Prop
  | .interrupt _ => True
  | .shut _ fault => fault.isSome
  | _ => False

/-- In this turn the provider's stream cannot be closed: it was waited for, or it fails at once
    when the stream of a run is left from outside. -/
def Stage.Fails (s : Setting) (run : Run) (m : Move) : Stage → Prop
  | .waitingReply .. => False
  | .waitingClose .. => m.FailsToClose
  | _ => m.Departs ∧ ∃ fault, s.closing run = .raises fault

theorem Stage.Streams.fails_iff {s : Setting} {stage : Stage} {run : Run}
    (streams : stage.Streams run) (m : Move) :
    stage.Fails s run m ↔ m.Departs ∧ ∃ fault, s.closing run = .raises fault := by
  cases stage with
  | waitingReply r i target => exact streams.elim
  | waitingClose r outputs task => exact streams.elim
  | _ => exact Iff.rfl

/-- The stage in which a run begins an invocation. A move that lets an earlier invocation
    take a turn begins no single request. -/
def Stage.Opens (m : Move) (run : Run) (i : Invocation) : Stage → Prop
  | .waitingReply r j _ => m.place? = none ∧ r = run ∧ j = i
  | .waitingChunk r snapshot _ =>
      r = run ∧ ∃ id target, TextRange.ofValue i.target = .ok target ∧
        snapshot = ⟨id, i.selection, "", i.action, target, true⟩
  | _ => False

/-- What a turn can do, whatever the observers do and however the stream closes. -/
inductive Course (s : Setting) (v : View) (m : Move) :
    Stage → View → Stage → List Output → Prop
  /-- The move does not fit the stage. -/
  | ignored {old : Stage} {outputs : List Output} (deaf : old.Deaf v m)
      (shows : outputs.filterMap Output.snapshot? = []) : Course s v m old v old outputs
  /-- No run begins, or not yet. -/
  | refused {old new : Stage} {outputs : List Output} (before : old.run? = none)
      (early : old ≠ .over)
      (after : new = .over ∨ ∃ i fault task, new = .waitingCitation i fault task)
      (shows : outputs.filterMap Output.snapshot? = []) : Course s v m old v new outputs
  /-- A run begins. -/
  | begun {i : Invocation} {new : Stage} {v' : View} {outputs : List Output} (task : Nat)
      (opens : new.Opens m (v.upcoming i.action task) i)
      (starts : v.Starts s (v.upcoming i.action task) i.action v')
      (shows : outputs.filterMap Output.snapshot? = []) : Course s v m (.unopened i) v' new outputs
  /-- A single request ends, with a result or without one. -/
  | concluded {run : Run} {i : Invocation} {target : TextRange} {w v' : View}
      {outputs : List Output}
      (entered : w = v ∨ v.active = some run ∧ ∃ next : Lifecycle.State,
        next.IsResult ∧ (v.entered s next).Cedes w)
      (finishes : w.Finishes s run v') : Course s v m (.waitingReply run i target) v' .over outputs
  /-- An empty chunk is skipped. -/
  | skipped {run : Run} {snapshot : Suggestion} {task : Nat} (place : Nat)
      (current : v.active = some run) (move : m = .text place "") :
      Course s v m (.waitingChunk run snapshot task) v (.waitingChunk run snapshot task) []
  /-- A stream goes on after a snapshot. -/
  | resumed {run : Run} {snapshot : Suggestion} (task : Nat) (current : v.active = some run) :
      Course s v m (.shown run snapshot) v (.waitingChunk run snapshot task) []
  /-- A chunk is shown. -/
  | shown {run : Run} {snapshot : Suggestion} {task : Nat} {v' : View} (place : Nat)
      (chunk : String) (current : v.active = some run) (move : m = .text place chunk)
      (nonempty : chunk ≠ "")
      (entered : (v.entered s (.ready (snapshot.withChunk chunk))).Cedes v') :
      Course s v m (.waitingChunk run snapshot task) v' (.shown run (snapshot.withChunk chunk))
        [.yielded (snapshot.withChunk chunk)]
  /-- The stream of the active run ends normally. -/
  | ended {run : Run} {snapshot : Suggestion} {task : Nat} {w v' : View} (place : Nat)
      (current : v.active = some run) (move : m = .ending place)
      (entered : (v.entered s (.ready snapshot.finished)).Cedes w)
      (finishes : w.Finishes s run v') :
      Course s v m (.waitingChunk run snapshot task) v' (.shownLast run)
        [.streamOver, .yielded snapshot.finished]
  /-- The provider fails the active run of a stream. -/
  | failed {old new : Stage} {run : Run} {fault : Fault} {message : String} {w v' : View}
      {outputs : List Output} (streams : old.Streams run) (current : v.active = some run)
      (move : m.fault? = some fault) (entered : (v.entered s (.failed message)).Cedes w)
      (finishes : w.Finishes s run v') (after : new.Left run)
      (shows : outputs.filterMap Output.snapshot? = []) : Course s v m old v' new outputs
  /-- A stream is left by an outside decision. -/
  | left {old new : Stage} {run : Run} {v' : View} {outputs : List Output}
      (streams : old.Streams run) (departs : m.Departs) (leaves : v.Leaves s run v' new)
      (shows : outputs.filterMap Output.snapshot? = []) : Course s v m old v' new outputs
  /-- A stream whose run is no longer active ends. -/
  | dropped {old new : Stage} {run : Run} {outputs : List Output} (streams : old.Streams run)
      (stale : v.active ≠ some run) (after : new.Left run)
      (shows : outputs.filterMap Output.snapshot? = []) : Course s v m old v new outputs
  /-- A stream that was waited for is closed. -/
  | shut {run : Run} {outputs : List Output} {task : Option Nat} {v' : View} (place : Nat)
      (move : m = .shut place none) (finishes : v.Finishes s run v') :
      Course s v m (.waitingClose run outputs task) v' .over outputs
  /-- A stream that was waited for cannot be closed. -/
  | unclosed {run : Run} {last outputs : List Output} {task : Option Nat}
      (fails : m.FailsToClose) (shows : outputs.filterMap Output.snapshot? = []) :
      Course s v m (.waitingClose run last task) v .over outputs

abbrev Segment.IsCourse (s : Setting) (v : View) (m : Move) (old : Stage) (segment : Segment) :
    Prop :=
  Course s v m old segment.1.view segment.2.1 segment.2.2

variable {s : Setting} {m : Move} {old : Stage} {run : Run}

/-! ### Before a run begins -/

theorem Output.Preliminary.snapshot?_eq_none {o : Output} (h : o.Preliminary) :
    o.snapshot? = none := by
  cases o with
  | yielded snapshot => exact h.elim
  | _ => rfl

theorem Reception.Sound.shows_nothing {v : View} {result : Desk × List Output × Reception}
    (sound : Reception.Sound v result) : result.2.1.filterMap Output.snapshot? = [] := by
  rw [List.filterMap_eq_nil_iff]
  intro o ho
  exact (sound.shows o ho).snapshot?_eq_none

theorem receive_accepted {d : Desk} {i : Invocation} {target : TextRange}
    (h : (receive s d i).2.2 = .accepted target) : TextRange.ofValue i.target = .ok target := by
  unfold receive routeExternally at h
  split at h
  · cases h
  · split at h
    · split at h
      · cases h
      · dsimp only at h
        split at h <;> cases h
    · split at h
      · cases h
      · cases h
        assumption

theorem openSingle_course (d : Desk) (i : Invocation) (task : Nat) (hm : m.place? = none) :
    (openSingle s d i task).IsCourse s d.view m (.unopened i) := by
  have sound := receive_sound s d i
  have nothing := sound.shows_nothing
  unfold openSingle
  rcases h : receive s d i with ⟨d', outputs, reception⟩
  rw [h] at sound nothing
  have view : d'.view = d.view := sound.view
  dsimp only [Segment.IsCourse] at nothing ⊢
  rw [← view]
  cases reception with
  | refused fault =>
      refine .refused rfl (by simp) (.inl rfl) ?_
      rw [List.filterMap_append, nothing]
      rfl
  | searching fault => exact .refused rfl (by simp) (.inr ⟨i, fault, task, rfl⟩) nothing
  | accepted target =>
      refine .begun task ⟨hm, rfl, rfl⟩ (Desk.begin_starts s d' i.action task) ?_
      rw [List.filterMap_append, nothing]
      rfl

theorem openStream_course (d : Desk) (i : Invocation) (task : Nat) (m : Move) :
    (openStream s d i task).IsCourse s d.view m (.unopened i) := by
  have sound := receive_sound s d i
  have nothing := sound.shows_nothing
  unfold openStream
  rcases h : receive s d i with ⟨d', outputs, reception⟩
  rw [h] at sound nothing
  have view : d'.view = d.view := sound.view
  dsimp only [Segment.IsCourse] at nothing ⊢
  rw [← view]
  cases reception with
  | refused fault =>
      refine .refused rfl (by simp) (.inl rfl) ?_
      rw [List.filterMap_append, nothing]
      rfl
  | searching fault => exact .refused rfl (by simp) (.inr ⟨i, fault, task, rfl⟩) nothing
  | accepted target =>
      have accepted : TextRange.ofValue i.target = .ok target :=
        receive_accepted (s := s) (d := d) (by rw [h])
      refine .begun task ⟨rfl, _, target, accepted, rfl⟩
        (Desk.begin_starts s (d'.newSuggestion s).1 i.action task) ?_
      rw [List.filterMap_append, nothing]
      rfl

/-! ### Single requests -/

theorem settle_course {d : Desk} {i : Invocation} {target : TextRange}
    (fits : (Stage.waitingReply run i target).Fits d.view) (m : Move) (text : String) :
    (settle s d run i target text).IsCourse s d.view m (.waitingReply run i target) := by
  unfold settle
  dsimp only
  by_cases current : d.view.active = some run
  · have permitted (next : Suggestion) : d.view.lifecycle.state.check (.ready next) = .ok () := by
      rw [fits.2 current]
      rfl
    rw [if_pos ((Desk.isCurrent_iff _ run).2 current),
      Desk.tryEnter_ok (d := (d.newSuggestion s).1) s.tell (permitted _)]
    exact .concluded (.inr ⟨current, .ready _, trivial,
      Desk.entered_cedes (Desk.tell_hears s) (d.newSuggestion s).1 _⟩)
      (Desk.finish_finishes s _ run)
  · rw [if_neg (mt (Desk.isCurrent_iff _ run).1 current)]
    exact .concluded (.inl rfl) (.inr ⟨current, rfl⟩)

theorem failSingle_course {d : Desk} {i : Invocation} {target : TextRange}
    (fits : (Stage.waitingReply run i target).Fits d.view) (m : Move) (fault : Fault) :
    (failSingle s d run fault).IsCourse s d.view m (.waitingReply run i target) := by
  unfold failSingle
  by_cases current : d.view.active = some run
  · have permitted := check_failed_of_fits (Desk.failure fault).1.message fits rfl current
    obtain ⟨d', w, recorded, entered, finishes⟩ := Desk.recordFailure_shows s current permitted
    rw [recorded]
    exact .concluded (.inr ⟨current, .failed _, trivial, entered⟩) finishes
  · obtain ⟨d', recorded, view⟩ := Desk.recordFailure_stale s.tell fault current
    rw [recorded]
    exact .concluded (.inl rfl) (.inr ⟨current, view⟩)

/-! ### Streams -/

theorem leave_leaves (s : Setting) (d : Desk) (run : Run) {outputs : List Output}
    (shows : outputs.filterMap Output.snapshot? = []) :
    d.view.Leaves s run (leave s d run outputs).1.view (leave s d run outputs).2.1 := by
  unfold leave
  cases closes : s.closing run with
  | quiet => exact .inl ⟨closes, rfl, Desk.finish_finishes s d run⟩
  | raises fault => exact .inr (.inl ⟨⟨fault, closes⟩, rfl, rfl⟩)
  | waits => exact .inr (.inr ⟨closes, ⟨outputs, d.current, rfl, shows⟩, rfl⟩)

theorem leave_shows (s : Setting) (d : Desk) (run : Run) {outputs : List Output}
    (shows : outputs.filterMap Output.snapshot? = []) :
    (leave s d run outputs).2.2.filterMap Output.snapshot? = [] := by
  unfold leave
  cases s.closing run with
  | quiet => exact shows
  | raises fault => rfl
  | waits => rfl

theorem leave_course (d : Desk) (streams : old.Streams run) (departs : m.Departs)
    {outputs : List Output} (shows : outputs.filterMap Output.snapshot? = []) :
    (leave s d run outputs).IsCourse s d.view m old :=
  .left streams departs (leave_leaves s d run shows) (leave_shows s d run shows)

theorem leave_course_of_stale {d : Desk} (streams : old.Streams run)
    (stale : d.view.active ≠ some run) {outputs : List Output}
    (shows : outputs.filterMap Output.snapshot? = []) :
    (leave s d run outputs).IsCourse s d.view m old := by
  have leaves := leave_leaves s d run shows
  dsimp only [Segment.IsCourse]
  rw [leaves.eq_of_stale stale]
  exact .dropped streams stale leaves.left (leave_shows s d run shows)

theorem stopEarly_course {d : Desk} (streams : old.Streams run)
    (stale : d.view.active ≠ some run) : (stopEarly s d run).IsCourse s d.view m old :=
  leave_course_of_stale (d := d.remark _ _) streams stale rfl

theorem failStream_course {d : Desk} {fault : Fault} (fits : old.Fits d.view)
    (streams : old.Streams run) (move : m.fault? = some fault) :
    (failStream s d run fault).IsCourse s d.view m old := by
  unfold failStream
  by_cases current : d.view.active = some run
  · have permitted :=
      check_failed_of_fits (Desk.failure fault).1.message fits streams.run_eq current
    obtain ⟨d', w, recorded, entered, finishes⟩ := Desk.recordFailure_shows s current permitted
    rw [if_pos ((Desk.isCurrent_iff d run).2 current), recorded]
    dsimp only [Segment.IsCourse]
    have shows : [Output.streamOver, .raised (.engine (Desk.failure fault).1)
        (Desk.failure fault).2].filterMap Output.snapshot? = [] := rfl
    have leaves := leave_leaves s d' run shows
    rw [leaves.eq_of_stale finishes.not_active]
    exact .failed streams current move entered finishes leaves.left (leave_shows s d' run shows)
  · rw [if_neg (mt (Desk.isCurrent_iff d run).1 current)]
    exact leave_course_of_stale (d := d.remark _ _) streams current rfl

theorem refuseStream_course {d : Desk} {fault : Fault} (fits : old.Fits d.view)
    (streams : old.Streams run) (move : m.fault? = some fault) :
    (refuseStream s d run fault).IsCourse s d.view m old := by
  unfold refuseStream
  by_cases current : d.view.active = some run
  · have permitted :=
      check_failed_of_fits (Desk.failure fault).1.message fits streams.run_eq current
    obtain ⟨d', w, recorded, entered, finishes⟩ := Desk.recordFailure_shows s current permitted
    rw [if_pos ((Desk.isCurrent_iff d run).2 current), recorded]
    dsimp only [Segment.IsCourse]
    rw [(Desk.finish_finishes s d' run).eq_of_stale finishes.not_active]
    exact .failed streams current move entered finishes trivial rfl
  · rw [if_neg (mt (Desk.isCurrent_iff d run).1 current)]
    dsimp only [Segment.IsCourse]
    rw [(Desk.finish_finishes s (d.remark _ _) run).eq_of_stale current]
    exact .dropped streams current trivial rfl

theorem feedChunk_course {d : Desk} {snapshot : Suggestion} {task : Nat}
    (fits : (Stage.waitingChunk run snapshot task).Fits d.view) (place : Nat) (chunk : String) :
    (feedChunk s d run snapshot task chunk).IsCourse s d.view (.text place chunk)
      (.waitingChunk run snapshot task) := by
  unfold feedChunk
  by_cases current : d.view.active = some run
  · rw [if_neg (by simpa using (Desk.isCurrent_iff d run).2 current)]
    by_cases empty : chunk = ""
    · rw [if_pos (by simpa using empty)]
      exact .skipped place current (by rw [empty])
    · rw [if_neg (by simpa using empty)]
      have permitted := check_ready_of_fits (snapshot.withChunk chunk) fits current rfl
      dsimp only
      rw [Desk.tryEnter_ok _ permitted]
      exact .shown place chunk current rfl empty (Desk.entered_cedes (Desk.tell_hears s) d _)
  · rw [if_pos (by simpa using mt (Desk.isCurrent_iff d run).1 current)]
    exact stopEarly_course rfl current

theorem endStream_course {d : Desk} {snapshot : Suggestion} {task : Nat}
    (fits : (Stage.waitingChunk run snapshot task).Fits d.view) (place : Nat) :
    (endStream s d run snapshot).IsCourse s d.view (.ending place)
      (.waitingChunk run snapshot task) := by
  unfold endStream
  by_cases current : d.view.active = some run
  · rw [if_neg (by simpa using (Desk.isCurrent_iff d run).2 current)]
    have permitted := check_ready_of_fits snapshot.finished fits current rfl
    dsimp only
    rw [Desk.tryEnter_ok _ permitted]
    exact .ended place current rfl (Desk.entered_cedes (Desk.tell_hears s) d _)
      (Desk.finish_finishes s _ run)
  · rw [if_pos (by simpa using mt (Desk.isCurrent_iff d run).1 current)]
    exact stopEarly_course rfl current

theorem resume_course (d : Desk) (snapshot : Suggestion) (task : Nat) (m : Move) :
    (resume s d run snapshot task).IsCourse s d.view m (.shown run snapshot) := by
  unfold resume
  by_cases current : d.view.active = some run
  · rw [if_pos ((Desk.isCurrent_iff d run).2 current)]
    exact .resumed task current
  · rw [if_neg (mt (Desk.isCurrent_iff d run).1 current)]
    exact stopEarly_course rfl current

/-! ### The turns, stage by stage -/

section Turns

variable {d : Desk}

theorem unopened_course (d : Desk) (m : Move) (i : Invocation) :
    (m.turn s d (.unopened i)).IsCourse s d.view m (.unopened i) := by
  cases m with
  | pull p task => exact openStream_course { d with current := some task } i task _
  | close p task => exact .refused rfl (by simp) (.inl rfl) rfl
  | _ => exact .ignored ⟨rfl, rfl⟩ rfl

theorem waitingCitation_course (d : Desk) (m : Move) (i : Invocation) (fault : Option Fault)
    (task : Nat) : (m.turn s d (.waitingCitation i fault task)).IsCourse s d.view m
      (.waitingCitation i fault task) := by
  cases m with
  | searched p =>
      dsimp only [Segment.IsCourse, Move.turn, finishSearch]
      rw [view_searched]
      exact .refused rfl (by simp) (.inl rfl) rfl
  | interrupt p => exact .refused rfl (by simp) (.inl rfl) rfl
  | _ => exact .ignored ⟨rfl, rfl⟩ rfl

theorem waitingReply_course (m : Move) {i : Invocation} {target : TextRange}
    (fits : (Stage.waitingReply run i target).Fits d.view) :
    (m.turn s d (.waitingReply run i target)).IsCourse s d.view m
      (.waitingReply run i target) := by
  cases m with
  | text p text => exact settle_course (d := { d with current := some run.task }) fits _ text
  | fail p fault => exact failSingle_course (d := { d with current := some run.task }) fits _ fault
  | interrupt p =>
      exact .concluded (.inl rfl) (Desk.finish_finishes s { d with current := some run.task } run)
  | _ => exact .ignored ⟨rfl, rfl⟩ rfl

theorem waitingChunk_course (m : Move) {snapshot : Suggestion} {task : Nat}
    (fits : (Stage.waitingChunk run snapshot task).Fits d.view) :
    (m.turn s d (.waitingChunk run snapshot task)).IsCourse s d.view m
      (.waitingChunk run snapshot task) := by
  cases m with
  | refuse p fault => exact refuseStream_course (d := { d with current := some task }) fits rfl rfl
  | text p chunk => exact feedChunk_course (d := { d with current := some task }) fits p chunk
  | ending p => exact endStream_course (d := { d with current := some task }) fits p
  | fail p fault => exact failStream_course (d := { d with current := some task }) fits rfl rfl
  | interrupt p => exact leave_course { d with current := some task } (by rfl) (by trivial) rfl
  | _ => exact .ignored ⟨rfl, rfl⟩ rfl

theorem shown_course (d : Desk) (m : Move) (snapshot : Suggestion) :
    (m.turn s d (.shown run snapshot)).IsCourse s d.view m (.shown run snapshot) := by
  cases m with
  | pull p task => exact resume_course { d with current := some task } snapshot task _
  | close p task => exact leave_course { d with current := some task } (by rfl) (by trivial) rfl
  | _ => exact .ignored ⟨rfl, rfl⟩ rfl

theorem shownLast_course (m : Move) (fits : (Stage.shownLast run).Fits d.view) :
    (m.turn s d (.shownLast run)).IsCourse s d.view m (.shownLast run) := by
  cases m with
  | pull p task =>
      exact leave_course_of_stale (d := { d with current := some task }) (by rfl) fits rfl
  | close p task => exact leave_course { d with current := some task } (by rfl) (by trivial) rfl
  | _ => exact .ignored ⟨rfl, rfl⟩ rfl

theorem waitingClose_course (d : Desk) (m : Move) (outputs : List Output) (task : Option Nat) :
    (m.turn s d (.waitingClose run outputs task)).IsCourse s d.view m
      (.waitingClose run outputs task) := by
  cases m with
  | interrupt p => exact .unclosed (by trivial) rfl
  | shut p fault =>
      cases fault with
      | none => exact .shut p rfl (Desk.finish_finishes s { d with current := task } run)
      | some fault => exact .unclosed rfl rfl
  | _ => exact .ignored ⟨rfl, rfl⟩ rfl

theorem over_course (d : Desk) (m : Move) : (m.turn s d .over).IsCourse s d.view m .over := by
  cases m <;> exact .ignored ⟨rfl, rfl⟩ rfl

/-- Whatever the observers do, every turn is one of the cases of `Course`. -/
theorem turn_course (m : Move) (suits : old.Suits d.view) :
    (m.turn s d old).IsCourse s d.view m old := by
  cases old with
  | unopened i => exact unopened_course d m i
  | waitingCitation i fault task => exact waitingCitation_course d m i fault task
  | waitingReply run i target => exact waitingReply_course m suits
  | waitingChunk run snapshot task => exact waitingChunk_course m suits
  | shown run snapshot => exact shown_course d m snapshot
  | shownLast run => exact shownLast_course m suits
  | waitingClose run outputs task => exact waitingClose_course d m outputs task
  | «over» => exact over_course d m

end Turns

end ActionEngine.Coordinator
