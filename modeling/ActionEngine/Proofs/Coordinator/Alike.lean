import ActionEngine.Proofs.Coordinator.Turn

/-!
# Nothing depends on the log

Everything remarks on what it does, but nothing reads the log again. So two desks that are
alike apart from their logs stay alike, whatever is done at both of them, and what others see
of it is the same. This goes through the publishing and the answers of observers to it: an
observer knows the events.
-/

namespace ActionEngine.Coordinator

/-- Two desks that differ at most in their logs. -/
def Desk.Alike (d d' : Desk) : Prop :=
  ∃ log, d' = { d with log }

/-- A way of publishing that does not depend on the log. -/
def Desk.Oblivious (publish : Desk.Publish) : Prop :=
  ∀ {d d' : Desk} (e : Event), d.Alike d' → (publish d e).Alike (publish d' e)

theorem Desk.tryEnter_eq (publish : Publish) (d : Desk) (next : Lifecycle.State) :
    d.tryEnter publish next =
      (d.lifecycle.state.check next).map fun _ => d.enter publish next := by
  unfold tryEnter Lifecycle.enter
  cases d.lifecycle.state.check next <;> rfl

namespace Desk.Alike

variable {d d' d'' : Desk}

theorem refl (d : Desk) : d.Alike d :=
  ⟨d.log, rfl⟩

theorem symm (alike : d.Alike d') : d'.Alike d := by
  obtain ⟨log, rfl⟩ := alike
  exact ⟨d.log, rfl⟩

theorem trans (first : d.Alike d') (second : d'.Alike d'') : d.Alike d'' := by
  obtain ⟨log, rfl⟩ := first
  obtain ⟨log', rfl⟩ := second
  exact ⟨log', rfl⟩

/-- Two results that agree, given back together with desks that are alike. -/
theorem split {α : Type} {p p' : Desk × α} (h : p.1.Alike p'.1 ∧ p.2 = p'.2) :
    ∃ (b b' : Desk) (result : α), p = (b, result) ∧ p' = (b', result) ∧ b.Alike b' :=
  ⟨p.1, p'.1, p.2, rfl, by rw [h.2], h.1⟩

theorem remarked (d : Desk) (level : Log.Level) (message : String) :
    d.Alike (d.remark level message) :=
  ⟨_, rfl⟩

theorem remark (alike : d.Alike d') (level : Log.Level) (message message' : String) :
    (d.remark level message).Alike (d'.remark level message') := by
  obtain ⟨log, rfl⟩ := alike
  exact ⟨_, rfl⟩

theorem record (alike : d.Alike d') (handlers : Nat) (e : Event) :
    (d.record handlers e).Alike (d'.record handlers e) := by
  obtain ⟨log, rfl⟩ := alike
  exact ⟨_, rfl⟩

theorem askToStop (alike : d.Alike d') (task : Nat) :
    (d.askToStop task).Alike (d'.askToStop task) := by
  obtain ⟨log, rfl⟩ := alike
  by_cases own : d.current = some task
  · simp only [Desk.askToStop, if_pos own]
    exact ⟨log, rfl⟩
  · simp only [Desk.askToStop, if_neg own]
    exact ⟨log, rfl⟩

theorem newSuggestion (alike : d.Alike d') (s : Setting) :
    (d.newSuggestion s).1.Alike (d'.newSuggestion s).1 ∧
      (d.newSuggestion s).2 = (d'.newSuggestion s).2 := by
  obtain ⟨log, rfl⟩ := alike
  exact ⟨⟨log, rfl⟩, rfl⟩

theorem active (alike : d.Alike d') : d'.active = d.active := by
  obtain ⟨log, rfl⟩ := alike
  rfl

theorem lifecycle (alike : d.Alike d') : d'.lifecycle = d.lifecycle := by
  obtain ⟨log, rfl⟩ := alike
  rfl

theorem isCurrent (alike : d.Alike d') (run : Run) : d'.isCurrent run = d.isCurrent run := by
  obtain ⟨log, rfl⟩ := alike
  rfl

theorem retiredMessage (alike : d.Alike d') (run : Run) :
    d'.retiredMessage run = d.retiredMessage run := by
  obtain ⟨log, rfl⟩ := alike
  rfl

theorem nextRun (alike : d.Alike d') : d'.nextRun = d.nextRun := by
  obtain ⟨log, rfl⟩ := alike
  rfl

theorem started (alike : d.Alike d') (number : Nat) (run : Run) :
    ({ d with nextRun := number, active := some run } : Desk).Alike
      { d' with nextRun := number, active := some run } := by
  obtain ⟨log, rfl⟩ := alike
  exact ⟨log, rfl⟩

theorem vacated (alike : d.Alike d') :
    ({ d with active := none } : Desk).Alike { d' with active := none } := by
  obtain ⟨log, rfl⟩ := alike
  exact ⟨log, rfl⟩

theorem moved (alike : d.Alike d') (lifecycle : Lifecycle) :
    ({ d with lifecycle } : Desk).Alike { d' with lifecycle } := by
  obtain ⟨log, rfl⟩ := alike
  exact ⟨log, rfl⟩

/-! ### Operations that publish -/

section Publishing

variable {publish : Publish} (oblivious : Oblivious publish)

include oblivious

theorem setProcessing (alike : d.Alike d') (on : Bool) :
    (d.setProcessing publish on).Alike (d'.setProcessing publish on) := by
  obtain ⟨log, rfl⟩ := alike
  by_cases same : d.processing = on
  · simp only [Desk.setProcessing, if_pos same]
    exact ⟨log, rfl⟩
  · simp only [Desk.setProcessing, if_neg same]
    exact oblivious _ ⟨log, rfl⟩

theorem retire (alike : d.Alike d') : (d.retire publish).Alike (d'.retire publish) := by
  simp only [Desk.retire, alike.active]
  cases d.active with
  | none => exact alike
  | some run => exact setProcessing oblivious alike.vacated false

theorem enter (alike : d.Alike d') (next : Lifecycle.State) :
    (d.enter publish next).Alike (d'.enter publish next) := by
  simp only [Desk.enter, alike.lifecycle]
  exact oblivious _ (alike.moved _)

theorem reset (alike : d.Alike d') : (d.reset publish).Alike (d'.reset publish) := by
  simp only [Desk.reset, alike.lifecycle]
  split
  · exact alike
  · exact enter oblivious alike .idle

theorem dismiss (alike : d.Alike d') : (d.dismiss publish).Alike (d'.dismiss publish) :=
  reset oblivious (retire oblivious alike)

theorem accept (alike : d.Alike d') :
    (d.accept publish).1.Alike (d'.accept publish).1 ∧
      (d.accept publish).2 = (d'.accept publish).2 := by
  simp only [Desk.accept, alike.lifecycle]
  cases d.lifecycle.state.suggestion? with
  | none => exact ⟨alike, rfl⟩
  | some suggestion => exact ⟨(dismiss oblivious alike).remark _ _ _, rfl⟩

theorem cancel (alike : d.Alike d') :
    (d.cancel publish).1.Alike (d'.cancel publish).1 ∧
      (d.cancel publish).2 = (d'.cancel publish).2 := by
  simp only [Desk.cancel, alike.active]
  cases d.active with
  | none => exact ⟨alike.remark _ _ _, rfl⟩
  | some run =>
      refine ⟨(retire oblivious ?_).askToStop run.task, rfl⟩
      obtain ⟨log, rfl⟩ := alike
      exact ⟨_, rfl⟩

theorem control (alike : d.Alike d') (c : Control) :
    (d.control publish c).1.Alike (d'.control publish c).1 ∧
      (d.control publish c).2 = (d'.control publish c).2 := by
  cases c with
  | accept => exact (accept oblivious alike).imp_right (congrArg Reply.text)
  | reject => exact ⟨dismiss oblivious alike, rfl⟩
  | clear => exact ⟨dismiss oblivious alike, rfl⟩
  | cancel => exact (cancel oblivious alike).imp_right (congrArg Reply.flag)

theorem finish (alike : d.Alike d') (run : Run) :
    (d.finish publish run).Alike (d'.finish publish run) := by
  simp only [Desk.finish, alike.isCurrent]
  split
  · exact setProcessing oblivious alike.vacated false
  · exact alike

theorem begin (alike : d.Alike d') (action : Action) (task : Nat) :
    (d.begin publish action task).1.Alike (d'.begin publish action task).1 ∧
      (d.begin publish action task).2 = (d'.begin publish action task).2 := by
  simp only [Desk.begin, alike.active, alike.nextRun]
  refine ⟨setProcessing oblivious (enter oblivious ?_ _) true, trivial⟩
  cases d.active with
  | none => exact alike.started _ _
  | some previous => exact (alike.started _ _).remark _ _ _

theorem recordFailure (alike : d.Alike d') (run : Run) (fault : Fault) :
    (d.recordFailure publish run fault).1.Alike (d'.recordFailure publish run fault).1 ∧
      (d.recordFailure publish run fault).2 = (d'.recordFailure publish run fault).2 := by
  unfold Desk.recordFailure
  rw [alike.isCurrent]
  split
  · have remarked := alike.remark .warning
      ("AI action " ++ run.action ++ " failed: " ++ (failure fault).1.text)
      ("AI action " ++ run.action ++ " failed: " ++ (failure fault).1.text)
    dsimp only
    rw [tryEnter_eq, tryEnter_eq, remarked.lifecycle]
    cases (d.remark _ _).lifecycle.state.check _ with
    | ok => exact ⟨finish oblivious (enter oblivious remarked _) run, rfl⟩
    | error refusal => exact ⟨remarked, rfl⟩
  · have message := alike.retiredMessage run
    refine ⟨alike.remark _ _ _, ?_⟩
    exact congrArg (fun m => (Fault.engine (.superseded m), some fault)) message.symm

theorem answer (alike : d.Alike d') (e : Event) (c : Control) :
    (d.answer publish e c).Alike (d'.answer publish e c) := by
  have same := (control oblivious alike c).2
  obtain ⟨log, desk⟩ := (control oblivious alike c).1
  unfold Desk.answer
  dsimp only
  rw [← same, desk]
  exact ⟨log, rfl⟩

end Publishing

end Desk.Alike

/-! ### Publishing with observers -/

namespace Desk

theorem publishWithin_oblivious (s : Setting) (depth : Nat) :
    Oblivious (publishWithin s depth) := by
  induction depth with
  | zero =>
      intro d d' e alike
      exact alike.record s.handlers e
  | succ depth ih =>
      intro d d' e alike
      have recorded := alike.record s.handlers e
      -- The observers see the same events at both desks, and give the same answers.
      have answered (controls : List Control) {b b' : Desk} (alike : b.Alike b') :
          (controls.foldl (answer (publishWithin s depth) e) b).Alike
            (controls.foldl (answer (publishWithin s depth) e) b') := by
        induction controls generalizing b b' with
        | nil => exact alike
        | cons c controls ih' => exact ih' (alike.answer ih e c)
      have same : (d'.record s.handlers e).events = (d.record s.handlers e).events := by
        obtain ⟨log, rfl⟩ := alike
        rfl
      simp only [publishWithin, same]
      exact answered _ recorded

end Desk

theorem Setting.tell_oblivious (s : Setting) : Desk.Oblivious s.tell := by
  intro d d' e alike
  have same : d'.pending = d.pending := by
    obtain ⟨log, rfl⟩ := alike
    rfl
  simp only [Setting.tell, same]
  split
  · exact alike
  · exact Desk.publishWithin_oblivious s _ e alike

/-! ### Segments -/

def Segment.Alike (segment segment' : Segment) : Prop :=
  segment.1.Alike segment'.1 ∧ segment.2 = segment'.2

theorem searched_remarks (d : Desk) (i : Invocation) (fault : Option Fault) :
    d.Alike (searched d i fault) := by
  unfold searched
  split
  · exact .remarked d _ _
  · exact .refl d

/-- The checks on an invocation only remark on it. -/
theorem receive_remarks (s : Setting) (d : Desk) (i : Invocation) :
    d.Alike (receive s d i).1 := by
  unfold receive routeExternally
  split
  · exact .refl d
  · split
    · cases s.citations with
      | none => exact .remarked d _ _
      | some search =>
          have logged : d.Alike
              { d.remark .info ("Routing " ++ i.action.id ++ " to citation manager") with
                log := (d.remark .info ("Routing " ++ i.action.id ++ " to citation manager")).log ++
                  (search (clip citationQueryLimit i.selection)).log } := ⟨_, rfl⟩
          dsimp only
          split
          · exact logged
          · exact logged.trans (searched_remarks _ i _)
    · cases TextRange.ofValue i.target <;> exact .refl d

theorem receive_snd_eq (s : Setting) (d d' : Desk) (i : Invocation) :
    (receive s d i).2 = (receive s d' i).2 := by
  unfold receive routeExternally
  split
  · rfl
  · split
    · cases s.citations with
      | none => rfl
      | some search =>
          dsimp only
          split <;> rfl
    · cases TextRange.ofValue i.target <;> rfl

namespace Desk.Alike

variable {s : Setting} {d d' : Desk}

theorem receive (alike : d.Alike d') (i : Invocation) :
    (receive s d i).1.Alike (receive s d' i).1 ∧ (receive s d i).2 = (receive s d' i).2 :=
  ⟨((receive_remarks s d i).symm.trans alike).trans (receive_remarks s d' i),
    receive_snd_eq s d d' i⟩

theorem current (alike : d.Alike d') : d'.current = d.current := by
  obtain ⟨log, rfl⟩ := alike
  rfl

theorem openSingle (alike : d.Alike d') (i : Invocation) (task : Nat) :
    Segment.Alike (openSingle s d i task) (openSingle s d' i task) := by
  obtain ⟨b, b', ⟨outputs, reception⟩, h, h', received⟩ := split (alike.receive (s := s) i)
  unfold Coordinator.openSingle
  rw [h, h']
  cases reception with
  | refused fault => exact ⟨received, rfl⟩
  | searching fault => exact ⟨received, rfl⟩
  | accepted target =>
      obtain ⟨begun, run⟩ := begin s.tell_oblivious received i.action task
      dsimp only
      rw [run]
      exact ⟨begun.remark _ _ _, rfl⟩

theorem openStream (alike : d.Alike d') (i : Invocation) (task : Nat) :
    Segment.Alike (openStream s d i task) (openStream s d' i task) := by
  obtain ⟨b, b', ⟨outputs, reception⟩, h, h', received⟩ := split (alike.receive (s := s) i)
  unfold Coordinator.openStream
  rw [h, h']
  cases reception with
  | refused fault => exact ⟨received, rfl⟩
  | searching fault => exact ⟨received, rfl⟩
  | accepted target =>
      obtain ⟨named, id⟩ := received.newSuggestion s
      obtain ⟨begun, run⟩ := begin s.tell_oblivious named i.action task
      dsimp only
      rw [run, id]
      exact ⟨begun.remark _ _ _, rfl⟩

theorem finishSearch (alike : d.Alike d') (i : Invocation) (fault : Option Fault) :
    Segment.Alike (finishSearch d i fault) (finishSearch d' i fault) :=
  ⟨((searched_remarks d i fault).symm.trans alike).trans (searched_remarks d' i fault), rfl⟩

theorem settle (alike : d.Alike d') (run : Run) (i : Invocation) (target : TextRange)
    (text : String) :
    Segment.Alike (settle s d run i target text) (settle s d' run i target text) := by
  unfold Coordinator.settle
  rw [alike.isCurrent]
  split
  · obtain ⟨named, id⟩ := alike.newSuggestion s
    dsimp only
    rw [Desk.tryEnter_eq, Desk.tryEnter_eq, named.lifecycle, id]
    cases (d.newSuggestion s).1.lifecycle.state.check _ with
    | ok => exact ⟨finish s.tell_oblivious (enter s.tell_oblivious named _) run, rfl⟩
    | error refusal => exact ⟨finish s.tell_oblivious named run, rfl⟩
  · rw [alike.retiredMessage]
    exact ⟨alike.remark _ _ _, rfl⟩

theorem failSingle (alike : d.Alike d') (run : Run) (fault : Fault) :
    Segment.Alike (failSingle s d run fault) (failSingle s d' run fault) := by
  obtain ⟨b, b', ⟨error, cause⟩, h, h', recorded⟩ :=
    split (recordFailure s.tell_oblivious alike run fault)
  simp only [Coordinator.failSingle, h, h']
  exact ⟨recorded, rfl⟩

theorem interruptSingle (alike : d.Alike d') (run : Run) :
    Segment.Alike (interruptSingle s d run) (interruptSingle s d' run) :=
  ⟨finish s.tell_oblivious alike run, rfl⟩

theorem finishClosing (alike : d.Alike d') (run : Run) (outputs : List Output)
    (fault : Option Fault) :
    Segment.Alike (finishClosing s d run outputs fault) (finishClosing s d' run outputs fault) := by
  cases fault with
  | none => exact ⟨finish s.tell_oblivious alike run, rfl⟩
  | some fault => exact ⟨alike, rfl⟩

theorem leave (alike : d.Alike d') (run : Run) (outputs : List Output) :
    Segment.Alike (leave s d run outputs) (leave s d' run outputs) := by
  unfold Coordinator.leave
  cases s.closing run with
  | quiet => exact alike.finishClosing run outputs none
  | raises fault => exact alike.finishClosing run outputs (some fault)
  | waits => exact ⟨alike, by rw [alike.current]⟩

theorem stopEarly (alike : d.Alike d') (run : Run) :
    Segment.Alike (stopEarly s d run) (stopEarly s d' run) :=
  (alike.remark _ _ _).leave run _

theorem refuseStream (alike : d.Alike d') (run : Run) (fault : Fault) :
    Segment.Alike (refuseStream s d run fault) (refuseStream s d' run fault) := by
  simp only [Coordinator.refuseStream, alike.isCurrent]
  split
  · obtain ⟨b, b', ⟨error, cause⟩, h, h', recorded⟩ :=
      split (recordFailure s.tell_oblivious alike run fault)
    rw [h, h']
    exact ⟨finish s.tell_oblivious recorded run, rfl⟩
  · exact ⟨finish s.tell_oblivious (alike.remark _ _ _) run, rfl⟩

theorem failStream (alike : d.Alike d') (run : Run) (fault : Fault) :
    Segment.Alike (failStream s d run fault) (failStream s d' run fault) := by
  simp only [Coordinator.failStream, alike.isCurrent]
  split
  · obtain ⟨b, b', ⟨error, cause⟩, h, h', recorded⟩ :=
      split (recordFailure s.tell_oblivious alike run fault)
    rw [h, h']
    exact recorded.leave run _
  · exact (alike.remark _ _ _).leave run _

theorem feedChunk (alike : d.Alike d') (run : Run) (snapshot : Suggestion) (task : Nat)
    (chunk : String) :
    Segment.Alike (feedChunk s d run snapshot task chunk)
      (feedChunk s d' run snapshot task chunk) := by
  simp only [Coordinator.feedChunk, alike.isCurrent]
  split
  · exact alike.stopEarly run
  · split
    · exact ⟨alike, rfl⟩
    · rw [Desk.tryEnter_eq, Desk.tryEnter_eq, alike.lifecycle]
      cases d.lifecycle.state.check _ with
      | ok => exact ⟨enter s.tell_oblivious alike _, rfl⟩
      | error refusal => exact alike.failStream run _

theorem endStream (alike : d.Alike d') (run : Run) (snapshot : Suggestion) :
    Segment.Alike (endStream s d run snapshot) (endStream s d' run snapshot) := by
  simp only [Coordinator.endStream, alike.isCurrent]
  split
  · exact alike.stopEarly run
  · rw [Desk.tryEnter_eq, Desk.tryEnter_eq, alike.lifecycle]
    cases d.lifecycle.state.check _ with
    | ok => exact ⟨finish s.tell_oblivious (enter s.tell_oblivious alike _) run, rfl⟩
    | error refusal => exact alike.failStream run _

theorem resume (alike : d.Alike d') (run : Run) (snapshot : Suggestion) (task : Nat) :
    Segment.Alike (resume s d run snapshot task) (resume s d' run snapshot task) := by
  simp only [Coordinator.resume, alike.isCurrent]
  split
  · exact ⟨alike, rfl⟩
  · exact alike.stopEarly run

end Desk.Alike

/-! ### Turns -/

/-- Two desks that differ at most in their logs and in the task that ran last. The next move
    brings its own task. -/
def Desk.Matches (d d' : Desk) : Prop :=
  ∃ log current, d' = { d with log, current }

namespace Desk.Matches

variable {s : Setting} {d d' d'' : Desk}

theorem refl (d : Desk) : d.Matches d :=
  ⟨d.log, d.current, rfl⟩

theorem trans (first : d.Matches d') (second : d'.Matches d'') : d.Matches d'' := by
  obtain ⟨log, current, rfl⟩ := first
  obtain ⟨log', current', rfl⟩ := second
  exact ⟨log', current', rfl⟩

theorem symm (alike : d.Matches d') : d'.Matches d := by
  obtain ⟨log, current, rfl⟩ := alike
  exact ⟨d.log, d.current, rfl⟩

theorem of_alike (alike : d.Alike d') : d.Matches d' := by
  obtain ⟨log, rfl⟩ := alike
  exact ⟨log, d.current, rfl⟩

theorem ran (d : Desk) (current : Option Nat) : d.Matches { d with current } :=
  ⟨d.log, current, rfl⟩

theorem during (alike : d.Matches d') (current : Option Nat) :
    ({ d with current } : Desk).Alike { d' with current } := by
  obtain ⟨log, last, rfl⟩ := alike
  exact ⟨log, rfl⟩

theorem turn (alike : d.Matches d') (m : Move) (stage : Stage) :
    (m.turn s d stage).1.Matches (m.turn s d' stage).1 ∧
      (m.turn s d stage).2 = (m.turn s d' stage).2 := by
  have turned {segment segment' : Segment} (h : Segment.Alike segment segment') :
      segment.1.Matches segment'.1 ∧ segment.2 = segment'.2 := h.imp_left of_alike
  -- The task of the move, or that of the stage, runs on both desks, so from here on the
  -- desks differ in their logs alone.
  cases m with
  | pull p task =>
      have run := alike.during (some task)
      cases stage with
      | unopened i => exact turned (run.openStream i task)
      | shown r snapshot => exact turned (run.resume r snapshot task)
      | shownLast r => exact turned (run.leave r _)
      | _ => exact ⟨alike, rfl⟩
  | searched p =>
      cases stage with
      | waitingCitation i fault task => exact turned ((alike.during _).finishSearch i fault)
      | _ => exact ⟨alike, rfl⟩
  | refuse p fault =>
      cases stage with
      | waitingChunk r snapshot task => exact turned ((alike.during _).refuseStream r fault)
      | _ => exact ⟨alike, rfl⟩
  | text p reply =>
      cases stage with
      | waitingReply r i target => exact turned ((alike.during _).settle r i target reply)
      | waitingChunk r snapshot task =>
          exact turned ((alike.during _).feedChunk r snapshot task reply)
      | _ => exact ⟨alike, rfl⟩
  | ending p =>
      cases stage with
      | waitingChunk r snapshot task => exact turned ((alike.during _).endStream r snapshot)
      | _ => exact ⟨alike, rfl⟩
  | fail p fault =>
      cases stage with
      | waitingReply r i target => exact turned ((alike.during _).failSingle r fault)
      | waitingChunk r snapshot task => exact turned ((alike.during _).failStream r fault)
      | _ => exact ⟨alike, rfl⟩
  | interrupt p =>
      cases stage with
      | waitingCitation i fault task => exact ⟨.of_alike (alike.during _), rfl⟩
      | waitingReply r i target => exact turned ((alike.during _).interruptSingle r)
      | waitingChunk r snapshot task => exact turned ((alike.during _).leave r _)
      | waitingClose r outputs task => exact ⟨.of_alike (alike.during _), rfl⟩
      | _ => exact ⟨alike, rfl⟩
  | close p task =>
      have run := alike.during (some task)
      cases stage with
      | shown r snapshot => exact turned (run.leave r _)
      | shownLast r => exact turned (run.leave r _)
      | _ => exact ⟨alike, rfl⟩
  | shut p fault =>
      cases stage with
      | waitingClose r outputs task => exact turned ((alike.during _).finishClosing r outputs fault)
      | _ => exact ⟨alike, rfl⟩
  | _ => cases stage <;> exact ⟨alike, rfl⟩

end Desk.Matches

end ActionEngine.Coordinator
