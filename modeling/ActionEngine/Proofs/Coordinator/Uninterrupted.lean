import ActionEngine.Proofs.Coordinator.Snapshots

/-!
# Runs that nothing interrupts

An invocation that passes the checks, with a run that stays the active one from its start
to its end: what each of its segments does, and where it ends. A single request and a
stream of the same text end with the same suggestion on offer, apart from its id.
-/

namespace ActionEngine.Coordinator

variable {s : Setting} {i : Invocation} {target : TextRange} {run : Run} {snapshot : Suggestion}

/-- The action of an invocation may run on the selection. -/
structure Invocation.Permitted (i : Invocation) : Prop where
  selected : i.action.needsSelection = true → i.selection ≠ ""
  internal : i.action.external = false

/-! ### Segments of the active run -/

section Segments

variable {d : Desk}

theorem not_missing_selection (selected : i.action.needsSelection = true → i.selection ≠ "") :
    ¬(i.action.needsSelection && i.selection == "") = true := by
  rw [Bool.and_eq_true, beq_iff_eq]
  rintro ⟨needs, empty⟩
  exact selected needs empty

theorem receive_permitted (permitted : i.Permitted) :
    receive s d i = (d, [], match TextRange.ofValue i.target with
      | .error fault => .refused fault
      | .ok target => .accepted target) := by
  have selected := not_missing_selection permitted.selected
  have internal : ¬i.action.external = true := by simp [permitted.internal]
  unfold receive
  rw [if_neg selected, if_neg internal]
  cases TextRange.ofValue i.target <;> rfl

theorem openSingle_permitted (permitted : i.Permitted)
    (range : TextRange.ofValue i.target = .ok target) (task : Nat) :
    ∃ message, openSingle s d i task =
      ((d.begin s.tell i.action task).1.remark .info message,
        .waitingReply (d.view.upcoming i.action task) i target,
        [.complete i.prompt i.selection (s.replyBudget i.selection)]) := by
  unfold openSingle
  rw [receive_permitted permitted, range]
  exact ⟨_, rfl⟩

theorem openStream_permitted (permitted : i.Permitted)
    (range : TextRange.ofValue i.target = .ok target) (task : Nat) :
    ∃ message, openStream s d i task =
      (((d.newSuggestion s).1.begin s.tell i.action task).1.remark .info message,
        .waitingChunk (d.view.upcoming i.action task)
          ⟨(d.newSuggestion s).2, i.selection, "", i.action, target, true⟩ task,
        [.stream i.prompt i.selection s.streamBudget]) := by
  unfold openStream
  rw [receive_permitted permitted, range]
  exact ⟨_, rfl⟩

theorem open_refused {fault : Fault} (permitted : i.Permitted)
    (range : TextRange.ofValue i.target = .error fault) (task : Nat) :
    openSingle s d i task = (d, .over, [.raised fault none]) ∧
      openStream s d i task = (d, .over, [.raised fault none]) := by
  unfold openSingle openStream
  rw [receive_permitted permitted, range]
  exact ⟨rfl, rfl⟩

theorem settle_current (current : d.view.active = some run)
    (fits : (Stage.waitingReply run i target).Fits d.view) (text : String) :
    ∃ id, settle s d run i target text =
      ((((d.newSuggestion s).1.enter s.tell
          (.ready ⟨id, i.selection, text, i.action, target, false⟩)).finish s.tell run),
        .over, [.returned ⟨id, i.selection, text, i.action, target, false⟩]) := by
  have ready (next : Suggestion) : d.view.lifecycle.state.check (.ready next) = .ok () := by
    rw [fits.2 current]
    rfl
  unfold settle
  rw [if_pos ((Desk.isCurrent_iff d run).2 current)]
  dsimp only
  rw [Desk.tryEnter_ok (d := (d.newSuggestion s).1) s.tell (ready _)]
  exact ⟨_, rfl⟩

theorem feedChunk_empty (current : d.view.active = some run) (task : Nat) :
    feedChunk s d run snapshot task "" = (d, .waitingChunk run snapshot task, []) := by
  unfold feedChunk
  rw [if_neg (by simpa using (Desk.isCurrent_iff d run).2 current)]
  rfl

theorem feedChunk_current {task : Nat} (current : d.view.active = some run)
    (fits : (Stage.waitingChunk run snapshot task).Fits d.view) {chunk : String}
    (nonempty : chunk ≠ "") :
    feedChunk s d run snapshot task chunk =
      (d.enter s.tell (.ready (snapshot.withChunk chunk)), .shown run (snapshot.withChunk chunk),
        [.yielded (snapshot.withChunk chunk)]) := by
  have ready := check_ready_of_fits (snapshot.withChunk chunk) fits current rfl
  unfold feedChunk
  rw [if_neg (by simpa using (Desk.isCurrent_iff d run).2 current),
    if_neg (by simpa using nonempty)]
  dsimp only
  rw [Desk.tryEnter_ok _ ready]

theorem endStream_current {task : Nat} (current : d.view.active = some run)
    (fits : (Stage.waitingChunk run snapshot task).Fits d.view) :
    endStream s d run snapshot =
      ((d.enter s.tell (.ready snapshot.finished)).finish s.tell run, .shownLast run,
        [.streamOver, .yielded snapshot.finished]) := by
  have ready := check_ready_of_fits snapshot.finished fits current rfl
  unfold endStream
  rw [if_neg (by simpa using (Desk.isCurrent_iff d run).2 current)]
  dsimp only
  rw [Desk.tryEnter_ok _ ready]

theorem resume_current (current : d.view.active = some run) (task : Nat) :
    resume s d run snapshot task = (d, .waitingChunk run snapshot task, []) := by
  unfold resume
  rw [if_pos ((Desk.isCurrent_iff d run).2 current)]

theorem leave_quiet (calm : s.Calm) (outputs : List Output) :
    leave s d run outputs = (d.finish s.tell run, .over, outputs) := by
  unfold leave
  rw [calm.closes]
  rfl

theorem failStream_current (calm : s.Calm) {task : Nat} (current : d.view.active = some run)
    (fits : (Stage.waitingChunk run snapshot task).Fits d.view) (fault : Fault) :
    ∃ message, failStream s d run fault =
      ((((d.remark .warning message).enter s.tell (.failed (Desk.failure fault).1.message)).finish
          s.tell run).finish s.tell run, .over,
        [.streamOver, .raised (.engine (Desk.failure fault).1) (Desk.failure fault).2]) := by
  have permitted := check_failed_of_fits (Desk.failure fault).1.message fits rfl current
  have active : d.isCurrent run = true := (Desk.isCurrent_iff d run).2 current
  unfold failStream Desk.recordFailure
  rw [if_pos active, if_pos active]
  dsimp only
  rw [Desk.tryEnter_ok (d := d.remark _ _) s.tell permitted]
  dsimp only
  rw [leave_quiet calm]
  exact ⟨_, rfl⟩

end Segments

/-! ### What is left to do for others -/

/-- What the observers did and which tasks were asked to stop. -/
def Desk.chores (d : Desk) : List Reaction × List Nat :=
  (d.reactions, d.stopping)

namespace Desk

variable (silent : ∀ events, s.react events = [])

include silent

theorem chores_tell (d : Desk) (e : Event) : (s.tell d e).chores = d.chores := by
  rw [tell_eq silent]
  split <;> rfl

theorem chores_setProcessing (d : Desk) (on : Bool) :
    (d.setProcessing s.tell on).chores = d.chores := by
  unfold setProcessing
  split
  · rfl
  · exact chores_tell silent _ _

theorem chores_enter (d : Desk) (next : Lifecycle.State) :
    (d.enter s.tell next).chores = d.chores :=
  chores_tell silent _ _

theorem chores_begin (d : Desk) (action : Action) (task : Nat) :
    (d.begin s.tell action task).1.chores = d.chores := by
  unfold begin
  dsimp only
  rw [chores_setProcessing silent, chores_enter silent]
  split <;> rfl

theorem chores_finish (d : Desk) (run : Run) : (d.finish s.tell run).chores = d.chores := by
  unfold finish
  split
  · exact chores_setProcessing silent _ _
  · rfl

end Desk

/-! ### Moves of the active run -/

namespace Floor

variable {f : Floor} {place task : Nat}

/-- A move starts an invocation: a single request is made, or a stream is asked for its first
    snapshot. -/
def Launches (f : Floor) (i : Invocation) (task : Nat) : Move → Prop
  | .execute j t => j = i ∧ t = task
  | .pull place t => f.stages[place]? = some (.unopened i) ∧ t = task
  | _ => False

/-- A move leads to a floor and shows some outputs. It leaves nothing to do for others. -/
structure Goes (s : Setting) (f : Floor) (m : Move) (g : Floor) (outputs : List Output) :
    Prop where
  step : f.step s m = (g, outputs)
  chores : g.desk.chores = f.desk.chores

/-- The invocation at a place stands at a stage, and its run is the active one. -/
structure Holds (f : Floor) (place : Nat) (run : Run) (stage : Stage) : Prop where
  stands : f.stages[place]? = some stage
  active : f.desk.view.active = some run
  fits : stage.Fits f.desk.view

/-- The invocation at a place stands at a stage, no run is active, and a suggestion is on
    offer. -/
structure Rests (f : Floor) (place : Nat) (stage : Stage) (suggestion : Suggestion) : Prop where
  stands : f.stages[place]? = some stage
  vacant : f.desk.view.active = none
  offered : f.desk.view.lifecycle.state = .ready suggestion

theorem put_stands {old : Stage} (h : f.stages[place]? = some old) (segment : Segment) :
    (f.put place segment).1.stages[place]? = some segment.2.1 :=
  List.getElem?_set_self (List.getElem?_eq_some_iff.1 h).1

theorem execute_goes (calm : s.Calm) (f : Floor) (permitted : i.Permitted)
    (range : TextRange.ofValue i.target = .ok target) (task : Nat) :
    ∃ g run, f.Goes s (.execute i task) g
        [.complete i.prompt i.selection (s.replyBudget i.selection)] ∧
      g.Holds f.stages.length run (.waitingReply run i target) := by
  obtain ⟨message, opened⟩ :=
    openSingle_permitted (s := s) (d := f.deskFor task) permitted range task
  have begun := Desk.view_begin calm (f.deskFor task) i.action task
  refine ⟨_, _, ⟨congrArg f.add opened, ?_⟩, List.getElem?_concat_length, ?_, rfl, ?_⟩
  · exact Desk.chores_begin calm.silent (f.deskFor task) i.action task
  · exact congrArg View.active begun
  · intro _
    exact congrArg (·.lifecycle.state) begun

theorem open_goes (calm : s.Calm) (unopened : f.stages[place]? = some (.unopened i))
    (permitted : i.Permitted) (range : TextRange.ofValue i.target = .ok target) (task : Nat) :
    ∃ g run id, f.Goes s (.pull place task) g [.stream i.prompt i.selection s.streamBudget] ∧
      g.Holds place run
        (.waitingChunk run ⟨id, i.selection, "", i.action, target, true⟩ task) := by
  obtain ⟨message, opened⟩ :=
    openStream_permitted (s := s) (d := f.deskFor task) permitted range task
  have begun := Desk.view_begin calm ((f.deskFor task).newSuggestion s).1 i.action task
  have moved : f.step s (.pull place task) = f.put place (openStream s (f.deskFor task) i task) :=
    step_eq_turn rfl unopened
  rw [opened] at moved
  refine ⟨_, _, _, ⟨moved, ?_⟩, put_stands unopened _, ?_, rfl, ?_⟩
  · exact Desk.chores_begin calm.silent ((f.deskFor task).newSuggestion s).1 i.action task
  · exact congrArg View.active begun
  · intro _
    exact .inl (congrArg (·.lifecycle.state) begun)

namespace Holds

theorem reply_goes (calm : s.Calm) (h : f.Holds place run (.waitingReply run i target))
    (text : String) :
    ∃ g id, f.Goes s (.text place text) g
        [.returned ⟨id, i.selection, text, i.action, target, false⟩] ∧
      g.Rests place .over ⟨id, i.selection, text, i.action, target, false⟩ := by
  obtain ⟨id, settled⟩ :=
    settle_current (s := s) (d := f.deskFor run.task) h.active h.fits text
  have moved : f.step s (.text place text) =
      f.put place (settle s (f.deskFor run.task) run i target text) :=
    step_eq_turn rfl h.stands
  rw [settled] at moved
  have active : (((f.deskFor run.task).newSuggestion s).1.enter s.tell
      (.ready ⟨id, i.selection, text, i.action, target, false⟩)).view.active = some run := by
    rw [Desk.view_enter calm]
    exact h.active
  have finished := Desk.view_finish calm (((f.deskFor run.task).newSuggestion s).1.enter s.tell
    (.ready ⟨id, i.selection, text, i.action, target, false⟩)) run
  rw [if_pos active, Desk.view_enter calm] at finished
  refine ⟨_, _, ⟨moved, ?_⟩, put_stands h.stands _, ?_, ?_⟩
  · exact (Desk.chores_finish calm.silent _ run).trans (Desk.chores_enter calm.silent _ _)
  · exact congrArg View.active finished
  · exact congrArg (·.lifecycle.state) finished

theorem feed_empty_goes (h : f.Holds place run (.waitingChunk run snapshot task)) :
    ∃ g, f.Goes s (.text place "") g [] ∧
      g.Holds place run (.waitingChunk run snapshot task) := by
  have moved : f.step s (.text place "") =
      f.put place (feedChunk s (f.deskFor task) run snapshot task "") :=
    step_eq_turn rfl h.stands
  rw [feedChunk_empty (d := f.deskFor task) h.active] at moved
  exact ⟨_, ⟨moved, rfl⟩, put_stands h.stands _, h.active, h.fits⟩

theorem feed_goes (calm : s.Calm) (h : f.Holds place run (.waitingChunk run snapshot task))
    {chunk : String} (nonempty : chunk ≠ "") :
    ∃ g, f.Goes s (.text place chunk) g [.yielded (snapshot.withChunk chunk)] ∧
      g.Holds place run (.shown run (snapshot.withChunk chunk)) := by
  have moved : f.step s (.text place chunk) =
      f.put place (feedChunk s (f.deskFor task) run snapshot task chunk) :=
    step_eq_turn rfl h.stands
  rw [feedChunk_current (d := f.deskFor task) h.active h.fits nonempty] at moved
  have entered := Desk.view_enter calm (f.deskFor task) (.ready (snapshot.withChunk chunk))
  refine ⟨_, ⟨moved, Desk.chores_enter calm.silent _ _⟩, put_stands h.stands _, ?_, h.fits.1, ?_⟩
  · exact (congrArg View.active entered).trans h.active
  · intro _
    exact ⟨congrArg (·.lifecycle.state) entered, rfl⟩

theorem resume_goes (h : f.Holds place run (.shown run snapshot)) (task : Nat) :
    ∃ g, f.Goes s (.pull place task) g [] ∧
      g.Holds place run (.waitingChunk run snapshot task) := by
  have moved : f.step s (.pull place task) =
      f.put place (resume s (f.deskFor task) run snapshot task) :=
    step_eq_turn rfl h.stands
  rw [resume_current (d := f.deskFor task) h.active] at moved
  exact ⟨_, ⟨moved, rfl⟩, put_stands h.stands _, h.active, h.fits.1, fun on => .inr (h.fits.2 on)⟩

theorem end_goes (calm : s.Calm) (h : f.Holds place run (.waitingChunk run snapshot task)) :
    ∃ g, f.Goes s (.ending place) g [.streamOver, .yielded snapshot.finished] ∧
      g.Rests place (.shownLast run) snapshot.finished := by
  have moved : f.step s (.ending place) =
      f.put place (endStream s (f.deskFor task) run snapshot) :=
    step_eq_turn rfl h.stands
  rw [endStream_current (d := f.deskFor task) h.active h.fits] at moved
  have entered := Desk.view_enter calm (f.deskFor task) (.ready snapshot.finished)
  have active := (congrArg View.active entered).trans h.active
  have finished :=
    Desk.view_finish calm ((f.deskFor task).enter s.tell (.ready snapshot.finished)) run
  rw [if_pos active, entered] at finished
  refine ⟨_, ⟨moved, ?_⟩, put_stands h.stands _, ?_, ?_⟩
  · exact (Desk.chores_finish calm.silent _ run).trans (Desk.chores_enter calm.silent _ _)
  · exact congrArg View.active finished
  · exact congrArg (·.lifecycle.state) finished

theorem fail_goes (calm : s.Calm) (h : f.Holds place run (.waitingChunk run snapshot task))
    (fault : Fault) :
    ∃ g, f.Goes s (.fail place fault) g
        [.streamOver, .raised (.engine (Desk.failure fault).1) (Desk.failure fault).2] ∧
      g.stages[place]? = some .over := by
  obtain ⟨message, failed⟩ :=
    failStream_current (d := f.deskFor task) calm h.active h.fits fault
  have moved : f.step s (.fail place fault) =
      f.put place (failStream s (f.deskFor task) run fault) :=
    step_eq_turn rfl h.stands
  rw [failed] at moved
  refine ⟨_, ⟨moved, ?_⟩, put_stands h.stands _⟩
  exact ((Desk.chores_finish calm.silent _ run).trans (Desk.chores_finish calm.silent _ run)).trans
    (Desk.chores_enter calm.silent _ _)

end Holds

theorem Rests.stop_goes (calm : s.Calm) (h : f.Rests place (.shownLast run) snapshot)
    (task : Nat) :
    ∃ g, f.Goes s (.pull place task) g [.stopped] ∧ g.Rests place .over snapshot := by
  have moved : f.step s (.pull place task) =
      f.put place (leave s (f.deskFor task) run [.stopped]) :=
    step_eq_turn rfl h.stands
  have idle : (f.deskFor task).finish s.tell run = f.deskFor task := by
    refine if_neg (mt (Desk.isCurrent_iff _ run).1 ?_)
    intro active
    cases h.vacant.symm.trans active
  rw [leave_quiet calm, idle] at moved
  exact ⟨_, ⟨moved, rfl⟩, put_stands h.stands _, h.vacant, h.offered⟩

/-! ### Whole runs -/

/-- A single request up to its reply. -/
def singleRun (i : Invocation) (place task : Nat) (reply : String) : List Move :=
  [.execute i task, .text place reply]

/-- A chunk comes, and once it is shown the consumer asks for more. -/
def fed (place task : Nat) (chunk : String) : List Move :=
  if chunk = "" then [.text place chunk] else [.text place chunk, .pull place task]

/-- A stream up to its end, and to the end of what its consumer asks for. -/
def streamRun (i : Invocation) (place task : Nat) (chunks : List String) : List Move :=
  [.stream i, .pull place task] ++ chunks.flatMap (fed place task) ++
    [.ending place, .pull place task]

theorem Goes.run_cons {m : Move} {g : Floor} {outputs : List Output} (goes : f.Goes s m g outputs)
    (moves : List Move) : f.run s (m :: moves) = g.run s moves := by
  rw [run, List.foldl_cons, goes.step]
  rfl

theorem run_append (moves later : List Move) :
    f.run s (moves ++ later) = (f.run s moves).run s later :=
  List.foldl_append

theorem Holds.fed {blank : Suggestion} {taken : List String} (calm : s.Calm)
    (streaming : blank.streaming = true)
    (h : f.Holds place run (.waitingChunk run (blank.grown taken) task)) (chunk : String) :
    (f.run s (fed place task chunk)).Holds place run
      (.waitingChunk run (blank.grown (taken ++ [chunk])) task) := by
  unfold Floor.fed
  split
  · rename_i empty
    have same : blank.grown (taken ++ [chunk]) = blank.grown taken := by
      simp [Suggestion.grown, empty]
    obtain ⟨g, goes, holds⟩ := h.feed_empty_goes (s := s)
    rw [empty, goes.run_cons, ← empty, same]
    exact holds
  · rename_i nonempty
    obtain ⟨g, goes, holds⟩ := h.feed_goes calm nonempty
    obtain ⟨g', goes', holds'⟩ := holds.resume_goes (s := s) task
    rw [goes.run_cons, goes'.run_cons, ← Suggestion.withChunk_grown streaming]
    exact holds'

theorem Holds.fed_all {blank : Suggestion} {taken : List String} (calm : s.Calm)
    (streaming : blank.streaming = true)
    (h : f.Holds place run (.waitingChunk run (blank.grown taken) task)) (chunks : List String) :
    (f.run s (chunks.flatMap (Floor.fed place task))).Holds place run
      (.waitingChunk run (blank.grown (taken ++ chunks)) task) := by
  -- On the chunks; the snapshot has grown by those that were taken.
  induction chunks generalizing f taken with
  | nil => simpa [Floor.run] using h
  | cons chunk chunks ih =>
      rw [List.flatMap_cons, run_append]
      have later := ih (h.fed calm streaming chunk)
      rwa [List.append_assoc] at later

/-- A single request that nothing interrupts ends with its reply on offer. -/
theorem singleRun_rests (calm : s.Calm) (f : Floor) (permitted : i.Permitted)
    (range : TextRange.ofValue i.target = .ok target) (task : Nat) (reply : String) :
    ∃ id, (f.run s (singleRun i f.stages.length task reply)).Rests f.stages.length .over
      ⟨id, i.selection, reply, i.action, target, false⟩ := by
  obtain ⟨g, run, goes, holds⟩ := f.execute_goes calm permitted range task
  obtain ⟨g', id, goes', rests⟩ := holds.reply_goes calm reply
  unfold singleRun
  rw [goes.run_cons, goes'.run_cons]
  exact ⟨id, rests⟩

/-- A stream that nothing interrupts ends with all its chunks on offer. -/
theorem streamRun_rests (calm : s.Calm) (f : Floor) (permitted : i.Permitted)
    (range : TextRange.ofValue i.target = .ok target) (task : Nat) (chunks : List String) :
    ∃ id, (f.run s (streamRun i f.stages.length task chunks)).Rests f.stages.length .over
      ⟨id, i.selection, String.join chunks, i.action, target, false⟩ := by
  let made : Floor := { f with stages := f.stages ++ [.unopened i] }
  have unopened : made.stages[f.stages.length]? = some (.unopened i) := List.getElem?_concat_length
  have makes : f.Goes s (.stream i) made [] := ⟨rfl, rfl⟩
  obtain ⟨opened, run, id, opens, holds⟩ := open_goes calm unopened permitted range task
  have first : (⟨id, i.selection, "", i.action, target, true⟩ : Suggestion) =
      Suggestion.grown ⟨id, i.selection, "", i.action, target, true⟩ [] := rfl
  rw [first] at holds
  have taken := holds.fed_all calm rfl chunks
  obtain ⟨ended, ends, rests⟩ := taken.end_goes calm
  obtain ⟨last, stops, rests'⟩ := rests.stop_goes calm task
  refine ⟨id, ?_⟩
  unfold streamRun
  rw [List.append_assoc, List.cons_append, List.cons_append, List.nil_append, makes.run_cons,
    opens.run_cons, run_append, ends.run_cons, stops.run_cons]
  exact rests'

/-- A range that cannot be read ends a single request and a stream alike, before any run. -/
theorem refused_alike (f : Floor) {fault : Fault} (permitted : i.Permitted)
    (range : TextRange.ofValue i.target = .error fault) (task : Nat) :
    (f.step s (.execute i task)).2 = [.raised fault none] ∧
      (f.step s (.execute i task)).1.desk.view = f.desk.view ∧
      ((f.step s (.stream i)).1.step s (.pull f.stages.length task)).2 = [.raised fault none] ∧
      ((f.step s (.stream i)).1.step s (.pull f.stages.length task)).1.desk.view =
        f.desk.view := by
  obtain ⟨single, stream⟩ :=
    open_refused (s := s) (d := f.deskFor task) permitted range task
  have unopened : (f.stages ++ [.unopened i])[f.stages.length]? = some (.unopened i) :=
    List.getElem?_concat_length
  have executed :
      f.step s (.execute i task) = f.add (f.deskFor task, .over, [.raised fault none]) :=
    congrArg f.add single
  have pulled : (f.step s (.stream i)).1.step s (.pull f.stages.length task) =
      (f.step s (.stream i)).1.put f.stages.length
        (f.deskFor task, .over, [.raised fault none]) := by
    rw [step_eq_turn (f := (f.step s (.stream i)).1) rfl unopened]
    exact congrArg (Floor.put _ f.stages.length) stream
  rw [executed, pulled]
  exact ⟨rfl, rfl, rfl, rfl⟩

end Floor

end ActionEngine.Coordinator
