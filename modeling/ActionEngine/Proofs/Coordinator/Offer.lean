import ActionEngine.Proofs.Coordinator.Snapshots

/-!
# Which suggestions are offered

The lifecycle offers a suggestion under an id. An invocation offers its own id, while its run
is the active one, or the id that it has just been given; nothing else ever offers one. This
says so for every operation of the desk, for every segment of an invocation and for every
move, whatever the observers do.
-/

namespace ActionEngine

def Lifecycle.State.offer? (state : State) : Option String :=
  state.suggestion?.map Suggestion.id

/-- The event shows the suggestion with this id, before or after the change. -/
def Event.Mentions (id : String) : Event → Prop
  | .stateChanged previous current => previous.offer? = some id ∨ current.offer? = some id
  | _ => False

namespace Coordinator

/-- The id that a stream offers its snapshots under. -/
def Stage.offer? : Stage → Option String
  | .waitingChunk _ snapshot _ => some snapshot.id
  | .shown _ snapshot => some snapshot.id
  | _ => none

theorem Stage.run?_of_offer? {stage : Stage} {id : String} (h : stage.offer? = some id) :
    ∃ run, stage.run? = some run := by
  cases stage with
  | waitingChunk run snapshot task => exact ⟨run, rfl⟩
  | shown run snapshot => exact ⟨run, rfl⟩
  | _ => cases h

/-! ### Operations -/

/-- The second desk comes from the first one by bookkeeping, by news about the flag, and by
    entering states; a state that offers a suggestion has one of these ids. -/
inductive Desk.Offers (s : Setting) (ids : String → Prop) : Desk → Desk → Prop
  | kept {d d' : Desk} (lifecycle : d'.lifecycle = d.lifecycle) (events : d'.events = d.events)
      (counted : d.nextSuggestion ≤ d'.nextSuggestion) : Offers s ids d d'
  | flagged (d : Desk) (on : Bool) : Offers s ids d (s.tell d (.processingChanged on))
  | entered (d : Desk) {next : Lifecycle.State} (offered : ∀ id, next.offer? = some id → ids id) :
      Offers s ids d (d.enter s.tell next)
  | trans {d d' d'' : Desk} (first : Offers s ids d d') (second : Offers s ids d' d'') :
      Offers s ids d d''

/-- As far as events are seen, the suggestion on offer is the one that was shown to be ready
    last. -/
def Desk.Announced (s : Setting) (d : Desk) : Prop :=
  s.handlers ≠ 0 → ∀ suggestion, d.lifecycle.state = .ready suggestion →
    (d.events.filterMap Event.ready?).getLast? = some suggestion

namespace Desk.Offers

variable {s : Setting} {ids ids' : String → Prop}

theorem refl (d : Desk) : d.Offers s ids d :=
  .kept rfl rfl (Nat.le_refl _)

theorem mono {d d' : Desk} (h : d.Offers s ids d') (wider : ∀ id, ids id → ids' id) :
    d.Offers s ids' d' := by
  induction h with
  | kept lifecycle events counted => exact .kept lifecycle events counted
  | flagged d on => exact .flagged d on
  | entered d offered => exact .entered d fun id h => wider id (offered id h)
  | trans first second ih ih' => exact .trans ih ih'

/-- Bookkeeping first, and then the rest. -/
theorem after_kept {d d' d'' : Desk} (rest : d'.Offers s ids d'')
    (lifecycle : d'.lifecycle = d.lifecycle) (events : d'.events = d.events)
    (counted : d.nextSuggestion ≤ d'.nextSuggestion) : d.Offers s ids d'' :=
  .trans (.kept lifecycle events counted) rest

variable (d : Desk)

theorem remark (level : Log.Level) (message : String) : d.Offers s ids (d.remark level message) :=
  .kept rfl rfl (Nat.le_refl _)

theorem newSuggestion : d.Offers s ids (d.newSuggestion s).1 :=
  .kept rfl rfl (Nat.le_succ _)

theorem setProcessing (on : Bool) : d.Offers s ids (d.setProcessing s.tell on) := by
  unfold Desk.setProcessing
  split
  · exact refl d
  · exact .after_kept (.flagged _ on) rfl rfl (Nat.le_refl _)

theorem vacated (on : Bool) :
    d.Offers s ids (Desk.setProcessing s.tell { d with active := none } on) :=
  .after_kept (setProcessing _ on) rfl rfl (Nat.le_refl _)

theorem finish (run : Run) : d.Offers s ids (d.finish s.tell run) := by
  unfold Desk.finish
  split
  · exact vacated d false
  · exact refl d

theorem retire : d.Offers s ids (d.retire s.tell) := by
  unfold Desk.retire
  split
  · exact refl d
  · exact vacated d false

theorem dismiss : d.Offers s ids (d.dismiss s.tell) := by
  unfold Desk.dismiss Desk.reset
  split
  · exact retire d
  · exact .trans (retire d) (.entered _ (by rintro id ⟨⟩))

theorem askToStop (task : Nat) : d.Offers s ids (d.askToStop task) := by
  unfold Desk.askToStop
  split
  · exact refl d
  · exact .kept rfl rfl (Nat.le_refl _)

theorem control (c : Control) : d.Offers s ids (d.control s.tell c).1 := by
  cases c with
  | accept =>
      unfold Desk.control Desk.accept
      cases d.lifecycle.state.suggestion? with
      | none => exact refl d
      | some suggestion => exact .trans (dismiss d) (remark _ _ _)
  | reject => exact dismiss d
  | clear => exact dismiss d
  | cancel =>
      unfold Desk.control Desk.cancel
      cases d.active with
      | none => exact remark d _ _
      | some run =>
          exact .after_kept (.trans (retire _) (askToStop _ run.task)) rfl rfl (Nat.le_refl _)

theorem begin (action : Action) (task : Nat) :
    d.Offers s ids (d.begin s.tell action task).1 := by
  unfold Desk.begin
  dsimp only
  refine .trans ?_ (setProcessing _ true)
  refine .trans (.kept ?_ ?_ ?_) (.entered _ (by rintro id ⟨⟩)) <;> split <;> simp [Desk.remark]

variable {d}

theorem of_tryEnter {d' : Desk} {next : Lifecycle.State} (h : d.tryEnter s.tell next = .ok d')
    (offered : ∀ id, next.offer? = some id → ids id) : d.Offers s ids d' := by
  have entered : d' = d.enter s.tell next := by
    unfold Desk.tryEnter Lifecycle.enter at h
    cases hc : d.lifecycle.state.check next with
    | error refusal =>
        rw [hc] at h
        cases h
    | ok _ =>
        rw [hc] at h
        exact (Except.ok.inj h).symm
  rw [entered]
  exact .entered d offered

theorem recordFailure (run : Run) (fault : Fault) :
    d.Offers s ids (d.recordFailure s.tell run fault).1 := by
  unfold Desk.recordFailure
  split
  · dsimp only
    split
    · rename_i failed
      exact .trans (remark d _ _) (.trans (of_tryEnter failed (by rintro id ⟨⟩)) (finish _ run))
    · exact remark d _ _
  · exact remark d _ _

theorem searched (i : Invocation) (fault : Option Fault) :
    d.Offers s ids (searched d i fault) := by
  unfold Coordinator.searched
  split
  · exact remark d _ _
  · exact refl d

theorem receive (i : Invocation) : d.Offers s ids (receive s d i).1 := by
  unfold Coordinator.receive routeExternally
  split
  · exact refl d
  · split
    · split
      · exact remark d _ _
      · dsimp only
        have noted (log : Log) : d.Offers s ids { d with log := log } :=
          .kept rfl rfl (Nat.le_refl _)
        split
        · exact noted _
        · exact .trans (noted _) (searched i _)
    · split
      · exact refl d
      · exact refl d

/-! What this comes to when observers only record. -/

section Silent

variable (silent : ∀ events, s.react events = [])
include silent

theorem tell_frame (d : Desk) (e : Event) :
    (s.tell d e).lifecycle = d.lifecycle ∧ (s.tell d e).nextSuggestion = d.nextSuggestion ∧
      (s.tell d e).events = d.events ++ s.heard e := by
  rw [Desk.tell_eq silent]
  unfold Setting.heard
  split
  · exact ⟨rfl, rfl, (List.append_nil _).symm⟩
  · exact ⟨rfl, rfl, rfl⟩

variable {d d' : Desk}

theorem enter_frame (d : Desk) (next : Lifecycle.State) :
    (d.enter s.tell next).lifecycle.state = next ∧
      (d.enter s.tell next).nextSuggestion = d.nextSuggestion ∧
      (d.enter s.tell next).events =
        d.events ++ s.heard (.stateChanged d.lifecycle.state next) := by
  obtain ⟨lifecycle, ids, events⟩ := tell_frame silent
    { d with lifecycle := d.lifecycle.move next } (.stateChanged d.lifecycle.state next)
  exact ⟨congrArg Lifecycle.state lifecycle, ids, events⟩

theorem counted (h : d.Offers s ids d') : d.nextSuggestion ≤ d'.nextSuggestion := by
  induction h with
  | kept lifecycle events counted => exact counted
  | flagged d on => exact Nat.le_of_eq (tell_frame silent d _).2.1.symm
  | entered d offered => exact Nat.le_of_eq (enter_frame silent d _).2.1.symm
  | trans first second ih ih' => exact Nat.le_trans ih ih'

/-- What is on offer afterwards was on offer before or has one of the ids, and so has
    everything that the events in between show. -/
theorem offered (h : d.Offers s ids d') :
    (∀ id, d'.lifecycle.state.offer? = some id → d.lifecycle.state.offer? = some id ∨ ids id) ∧
      ∃ later, d'.events = d.events ++ later ∧
        ∀ e ∈ later, ∀ id, e.Mentions id → d.lifecycle.state.offer? = some id ∨ ids id := by
  -- On how the second desk comes from the first: what is on offer changes only where a state
  -- is entered.
  induction h with
  | kept lifecycle events counted =>
      rw [lifecycle, events]
      exact ⟨fun id h => .inl h, [], by simp, by simp⟩
  | flagged d on =>
      obtain ⟨lifecycle, -, events⟩ := tell_frame silent d (.processingChanged on)
      rw [lifecycle, events]
      refine ⟨fun id h => .inl h, _, rfl, ?_⟩
      intro e he id mentions
      unfold Setting.heard at he
      split at he
      · cases he
      · cases List.mem_singleton.1 he
        exact mentions.elim
  | @entered d next offered =>
      obtain ⟨state, -, events⟩ := enter_frame silent d next
      rw [state, events]
      refine ⟨fun id h => .inr (offered id h), _, rfl, ?_⟩
      intro e he id mentions
      unfold Setting.heard at he
      split at he
      · cases he
      · cases List.mem_singleton.1 he
        exact mentions.imp_right (offered id)
  | trans first second ih ih' =>
      obtain ⟨state, early, hearly, shown⟩ := ih
      obtain ⟨state', late, hlate, shown'⟩ := ih'
      refine ⟨?_, early ++ late, by rw [hlate, hearly, List.append_assoc], ?_⟩
      · intro id h
        exact (state' id h).elim (state id) .inr
      · intro e he id mentions
        rcases List.mem_append.1 he with he | he
        · exact shown e he id mentions
        · exact (shown' e he id mentions).elim (state id) .inr

theorem announced (h : d.Offers s ids d') (before : d.Announced s) : d'.Announced s := by
  induction h with
  | kept lifecycle events counted =>
      unfold Desk.Announced
      rw [lifecycle, events]
      exact before
  | flagged d on =>
      obtain ⟨lifecycle, -, events⟩ := tell_frame silent d (.processingChanged on)
      have unready : (s.heard (.processingChanged on)).filterMap Event.ready? = [] := by
        unfold Setting.heard
        split <;> rfl
      unfold Desk.Announced
      rw [lifecycle, events, List.filterMap_append, unready, List.append_nil]
      exact before
  | @entered d next offered =>
      obtain ⟨state, -, events⟩ := enter_frame silent d next
      intro visible suggestion ready
      rw [state] at ready
      have heard : s.heard (.stateChanged d.lifecycle.state next) =
          [.stateChanged d.lifecycle.state next] := if_neg (by simpa using visible)
      rw [events, heard, ready, List.filterMap_append]
      exact List.getLast?_concat
  | trans first second ih ih' => exact ih' (ih before)

end Silent

end Desk.Offers

/-! ### Segments -/

/-- The id was taken from the source of ids between the two desks. -/
def Setting.Takes (s : Setting) (d d' : Desk) (id : String) : Prop :=
  ∃ n, s.suggestionId n = id ∧ d.nextSuggestion ≤ n ∧ n < d'.nextSuggestion

/-- A segment offers what its stage offers, if its run is active, or what it takes an id for;
    and this is also what its next stage offers. -/
structure Segment.Offers (s : Setting) (d : Desk) (old : Stage) (segment : Segment) : Prop where
  desk : d.Offers s (fun id => old.offer? = some id ∧ d.active = old.run? ∨ s.Takes d segment.1 id)
    segment.1
  stage : ∀ id, segment.2.1.offer? = some id →
    old.offer? = some id ∧ segment.2.1.run? = old.run? ∨ s.Takes d segment.1 id

/-- A segment offers nothing, and neither does its next stage. -/
structure Segment.OffersNone (s : Setting) (d : Desk) (segment : Segment) : Prop where
  desk : ∀ ids, d.Offers s ids segment.1
  stage : segment.2.1.offer? = none

namespace Segment.OffersNone

variable {s : Setting} {d d' : Desk} {segment : Segment}

theorem offers (none : segment.OffersNone s d) (old : Stage) : segment.Offers s d old := by
  refine ⟨none.desk _, ?_⟩
  intro id h
  rw [none.stage] at h
  cases h

theorem after (first : ∀ ids, d.Offers s ids d') (none : segment.OffersNone s d') :
    segment.OffersNone s d :=
  ⟨fun ids => (first ids).trans (none.desk ids), none.stage⟩

end Segment.OffersNone

/-- Which task ran last does not matter for what is offered. -/
theorem Segment.Offers.ran {s : Setting} {d : Desk} {current : Option Nat} {old : Stage}
    {segment : Segment} (offers : segment.Offers s { d with current } old) :
    segment.Offers s d old :=
  ⟨.after_kept offers.desk rfl rfl (Nat.le_refl _), offers.stage⟩

/-- The desk as it is, and an invocation that offers nothing. -/
theorem offersNone_same {s : Setting} (d : Desk) {stage : Stage} (h : stage.offer? = none)
    (outputs : List Output) : Segment.OffersNone s d (d, stage, outputs) :=
  ⟨fun _ => .refl d, h⟩

section Silent

variable {s : Setting}

theorem openSingle_offersNone (d : Desk) (i : Invocation) (task : Nat) :
    (openSingle s d i task).OffersNone s d := by
  have received (ids : String → Prop) : d.Offers s ids (receive s d i).1 := .receive i
  unfold openSingle
  dsimp only
  split
  · exact ⟨received, rfl⟩
  · exact ⟨received, rfl⟩
  · exact ⟨fun ids => (received ids).trans (.trans (.begin _ i.action task) (.remark _ _ _)), rfl⟩

theorem finishSearch_offersNone (d : Desk) (i : Invocation) (fault : Option Fault) :
    (finishSearch d i fault).OffersNone s d :=
  ⟨fun _ => .searched i fault, rfl⟩

theorem failSingle_offersNone (d : Desk) (run : Run) (fault : Fault) :
    (failSingle s d run fault).OffersNone s d :=
  ⟨fun _ => .recordFailure run fault, rfl⟩

theorem interruptSingle_offersNone (d : Desk) (run : Run) :
    (interruptSingle s d run).OffersNone s d :=
  ⟨fun _ => .finish d run, rfl⟩

theorem finishClosing_offersNone (d : Desk) (run : Run) (outputs : List Output)
    (fault : Option Fault) : (finishClosing s d run outputs fault).OffersNone s d := by
  cases fault with
  | none => exact ⟨fun _ => .finish d run, rfl⟩
  | some fault => exact ⟨fun _ => .refl d, rfl⟩

theorem leave_offersNone (d : Desk) (run : Run) (outputs : List Output) :
    (leave s d run outputs).OffersNone s d := by
  unfold leave
  cases s.closing run with
  | quiet => exact finishClosing_offersNone d run outputs none
  | raises fault => exact finishClosing_offersNone d run outputs (some fault)
  | waits => exact ⟨fun _ => .refl d, rfl⟩

theorem stopEarly_offersNone (d : Desk) (run : Run) : (stopEarly s d run).OffersNone s d :=
  (leave_offersNone _ run _).after fun _ => .remark d _ _

theorem refuseStream_offersNone (d : Desk) (run : Run) (fault : Fault) :
    (refuseStream s d run fault).OffersNone s d := by
  unfold refuseStream
  split
  · exact ⟨fun _ => .trans (.recordFailure run fault) (.finish _ run), rfl⟩
  · exact ⟨fun _ => .trans (.remark d _ _) (.finish _ run), rfl⟩

theorem failStream_offersNone (d : Desk) (run : Run) (fault : Fault) :
    (failStream s d run fault).OffersNone s d := by
  unfold failStream
  split
  · exact (leave_offersNone _ run _).after fun _ => .recordFailure run fault
  · exact (leave_offersNone _ run _).after fun _ => .remark d _ _

theorem resume_offers (d : Desk) (run : Run) (snapshot : Suggestion) (task : Nat) :
    (resume s d run snapshot task).Offers s d (.shown run snapshot) := by
  unfold resume
  split
  · exact ⟨.refl d, fun id h => .inl ⟨h, rfl⟩⟩
  · exact (stopEarly_offersNone d run).offers _

theorem current_of_not {d : Desk} {run : Run} (h : ¬(!d.isCurrent run) = true) :
    d.active = some run := by
  simpa [Desk.isCurrent] using h

theorem feedChunk_offers (d : Desk) (run : Run) (snapshot : Suggestion) (task : Nat)
    (chunk : String) :
    (feedChunk s d run snapshot task chunk).Offers s d (.waitingChunk run snapshot task) := by
  unfold feedChunk
  split
  · exact (stopEarly_offersNone d run).offers _
  · have current := current_of_not ‹¬(!d.isCurrent run) = true›
    split
    · exact ⟨.refl d, fun id h => .inl ⟨h, rfl⟩⟩
    · dsimp only
      split
      · rename_i entered
        exact ⟨.of_tryEnter entered fun id h => .inl ⟨h, current⟩, fun id h => .inl ⟨h, rfl⟩⟩
      · exact (failStream_offersNone d run _).offers _

theorem endStream_offers (d : Desk) (run : Run) (snapshot : Suggestion) (task : Nat) :
    (endStream s d run snapshot).Offers s d (.waitingChunk run snapshot task) := by
  unfold endStream
  split
  · exact (stopEarly_offersNone d run).offers _
  · have current := current_of_not ‹¬(!d.isCurrent run) = true›
    dsimp only
    split
    · rename_i entered
      refine ⟨.trans (.of_tryEnter entered fun id h => .inl ⟨h, current⟩) (.finish _ run), ?_⟩
      rintro id ⟨⟩
    · exact (failStream_offersNone d run _).offers _

variable (silent : ∀ events, s.react events = [])
include silent

theorem settle_offers (d : Desk) (run : Run) (i : Invocation) (target : TextRange) (text : String)
    (old : Stage) : (settle s d run i target text).Offers s d old := by
  unfold settle
  split
  · dsimp only
    split
    · rename_i d' entered
      -- The id is taken first, so that it counts as taken for everything behind.
      have shown (ids : String → Prop) (new : ids (s.suggestionId d.nextSuggestion)) :
          (d.newSuggestion s).1.Offers s ids (d'.finish s.tell run) := by
        refine .trans (.of_tryEnter entered ?_) (.finish d' run)
        rintro id ⟨⟩
        exact new
      have taken : s.Takes d (d'.finish s.tell run) (s.suggestionId d.nextSuggestion) :=
        ⟨d.nextSuggestion, rfl, Nat.le_refl _, (shown (fun _ => True) trivial).counted silent⟩
      refine ⟨.trans (.newSuggestion d) (shown _ (.inr taken)), ?_⟩
      rintro id ⟨⟩
    · refine ⟨.trans (.newSuggestion d) (.finish _ run), ?_⟩
      rintro id ⟨⟩
  · exact ⟨.remark d _ _, by rintro id ⟨⟩⟩

theorem openStream_offers (d : Desk) (i : Invocation) (task : Nat) (old : Stage) :
    (openStream s d i task).Offers s d old := by
  have received (ids : String → Prop) : d.Offers s ids (receive s d i).1 := .receive i
  unfold openStream
  dsimp only
  split
  · exact Segment.OffersNone.offers ⟨received, rfl⟩ old
  · exact Segment.OffersNone.offers ⟨received, rfl⟩ old
  · have begun (ids : String → Prop) (message : String) :
        ((receive s d i).1.newSuggestion s).1.Offers s ids
          ((((receive s d i).1.newSuggestion s).1.begin s.tell i.action task).1.remark .info
            message) :=
      .trans (.begin _ i.action task) (.remark _ _ _)
    refine ⟨(received _).trans (.trans (.newSuggestion _) (begun _ _)), ?_⟩
    rintro id ⟨⟩
    exact .inr ⟨_, rfl, (received fun _ => False).counted silent,
      (begun (fun _ => False) _).counted silent⟩

/-- An invocation offers nothing in its turn but what its stage offers, if its run is active,
    or what it takes an id for. -/
theorem turn_offers (d : Desk) (m : Move) (stage : Stage) :
    (m.turn s d stage).Offers s d stage := by
  have still (stage : Stage) : Segment.Offers s d stage (d, stage, []) :=
    ⟨.refl d, fun id h => .inl ⟨h, rfl⟩⟩
  have left (run : Run) (outputs : List Output) (task : Nat) :
      (leave s { d with current := some task } run outputs).Offers s d stage :=
    ((leave_offersNone { d with current := some task } run outputs).offers stage).ran
  cases stage with
  | unopened i =>
      cases m with
      | pull p task => exact (openStream_offers silent { d with current := some task } i task _).ran
      | close p task => exact (offersNone_same d rfl _).offers _
      | _ => exact still _
  | waitingCitation i fault task =>
      cases m with
      | searched p =>
          exact ((finishSearch_offersNone { d with current := some task } i fault).offers _).ran
      | interrupt p => exact ((offersNone_same { d with current := some task } rfl _).offers _).ran
      | _ => exact still _
  | waitingReply run i target =>
      cases m with
      | text p text =>
          exact (settle_offers silent { d with current := some run.task } run i target text _).ran
      | fail p fault =>
          exact ((failSingle_offersNone { d with current := some run.task } run fault).offers _).ran
      | interrupt p =>
          exact ((interruptSingle_offersNone { d with current := some run.task } run).offers _).ran
      | _ => exact still _
  | waitingChunk run snapshot task =>
      cases m with
      | refuse p fault =>
          exact ((refuseStream_offersNone { d with current := some task } run fault).offers _).ran
      | text p chunk =>
          exact (feedChunk_offers { d with current := some task } run snapshot task chunk).ran
      | ending p => exact (endStream_offers { d with current := some task } run snapshot task).ran
      | fail p fault =>
          exact ((failStream_offersNone { d with current := some task } run fault).offers _).ran
      | interrupt p => exact left run _ task
      | _ => exact still _
  | shown run snapshot =>
      cases m with
      | pull p task => exact (resume_offers { d with current := some task } run snapshot task).ran
      | close p task => exact left run _ task
      | _ => exact still _
  | shownLast run =>
      cases m with
      | pull p task => exact left run _ task
      | close p task => exact left run _ task
      | _ => exact still _
  | waitingClose run outputs task =>
      cases m with
      | interrupt p => exact ((offersNone_same { d with current := task } rfl _).offers _).ran
      | shut p fault =>
          have closed :=
            finishClosing_offersNone (s := s) { d with current := task } run outputs fault
          exact (closed.offers _).ran
      | _ => exact still _
  | «over» => cases m <;> exact (offersNone_same d rfl _).offers _

end Silent

/-! ### Moves -/

/-- An invocation offers under this id, and its run is the active one. -/
def Floor.Grows (f : Floor) (id : String) : Prop :=
  ∃ (place : Nat) (stage : Stage), f.stages[place]? = some stage ∧ stage.offer? = some id ∧
    f.desk.active = stage.run?

/-- Between two floors only the invocation of the active run offered something, or an id was
    taken for what was offered; and an invocation that offers did so before, or has its id
    since. -/
structure Floor.Offers (s : Setting) (f g : Floor) : Prop where
  desk : f.desk.Offers s (fun id => f.Grows id ∨ s.Takes f.desk g.desk id) g.desk
  stages : ∀ (place : Nat) (stage : Stage) (id : String), g.stages[place]? = some stage →
    stage.offer? = some id →
      (∃ (q : Nat) (stage' : Stage), f.stages[q]? = some stage' ∧ stage'.offer? = some id ∧
          stage'.run? = stage.run?) ∨
        s.Takes f.desk g.desk id

namespace Floor

variable {s : Setting} {f : Floor}

theorem offers_refl (f : Floor) : f.Offers s f :=
  ⟨.refl f.desk, fun place stage _ hstage h => .inl ⟨place, stage, hstage, h, rfl⟩⟩

theorem offers_put {place : Nat} {old : Stage} {segment : Segment}
    (hold : f.stages[place]? = some old) (offers : segment.Offers s f.desk old) :
    f.Offers s (f.put place segment).1 := by
  constructor
  · refine offers.desk.mono ?_
    intro id h
    exact h.imp_left fun own => ⟨place, old, hold, own⟩
  · intro q stage id hstage h
    -- The invocation at this place took the turn, all others stand where they stood.
    rcases getElem?_set_cases hstage with ⟨rfl, rfl⟩ | ⟨-, before⟩
    · exact (offers.stage id h).imp_left fun own => ⟨q, old, hold, own.1, own.2.symm⟩
    · exact .inl ⟨q, stage, before, h, rfl⟩

theorem offers_add (task : Option Nat) {segment : Segment}
    (none : segment.OffersNone s { f.desk with current := task }) :
    f.Offers s (f.add segment).1 := by
  constructor
  · exact .after_kept (none.desk _) rfl rfl (Nat.le_refl _)
  · intro q stage id hstage h
    change (f.stages ++ [segment.2.1])[q]? = some stage at hstage
    rw [List.getElem?_append] at hstage
    split at hstage
    · exact .inl ⟨q, stage, hstage, h, rfl⟩
    · rw [List.mem_singleton.1 (List.mem_of_getElem? hstage), none.stage] at h
      cases h

theorem step_offers (silent : ∀ events, s.react events = []) (f : Floor) (m : Move) :
    f.Offers s (f.step s m).1 := by
  have does := step_does s f m
  generalize f.step s m = after at does ⊢
  cases does with
  | absent hplace missing => exact offers_refl f
  | taken hplace hold => exact offers_put hold (turn_offers silent f.desk m _)
  | started i task => exact offers_add (some task) (openSingle_offersNone (f.deskFor task) i task)
  | made i => exact offers_add f.desk.current (offersNone_same f.desk rfl [])
  | controlled c task =>
      refine ⟨.after_kept (.control { f.desk with current := task } c) rfl rfl (Nat.le_refl _), ?_⟩
      exact fun place stage _ hstage h => .inl ⟨place, stage, hstage, h, rfl⟩

end Floor

end Coordinator

end ActionEngine
