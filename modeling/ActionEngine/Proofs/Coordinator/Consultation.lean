import ActionEngine.Proofs.Coordinator.Alike
import ActionEngine.Proofs.Coordinator.Uninterrupted

/-!
# Who asks the citation manager

The citation manager is called at one point only: when an invocation starts, its selection is
in order, and its action is routed there. No other segment calls it, and nothing that is held
back until a stream is closed does.
-/

namespace ActionEngine.Coordinator

/-! ### The first segment of an invocation -/

/-- The citation manager deals with the action of an invocation, and the selection is in order. -/
structure Invocation.Routed (i : Invocation) : Prop where
  selected : i.action.needsSelection = true → i.selection ≠ ""
  external : i.action.external = true

/-- An output of an invocation that is handed to the citation manager. -/
structure Output.Consults (i : Invocation) (o : Output) : Prop where
  routed : i.Routed
  asks : o = .citation (clip citationQueryLimit i.selection) ∨ o = .citationAwaited

variable {s : Setting} {i : Invocation}

/-- Whatever comes of the query, the citation manager has dealt with the invocation. -/
theorem routeExternally_refuses (s : Setting) (d : Desk) (routed : i.Routed) :
    ∃ calls, (∀ o ∈ calls, o.Consults i) ∧
      ((routeExternally s d i).2 = (calls, .refused (handledExternally i)) ∨
        ∃ fault, (routeExternally s d i).2 = (calls, .searching fault)) := by
  have query : (Output.citation (clip citationQueryLimit i.selection)).Consults i :=
    ⟨routed, .inl rfl⟩
  have awaited : Output.citationAwaited.Consults i := ⟨routed, .inr rfl⟩
  unfold routeExternally
  cases s.citations with
  | none => exact ⟨[], List.forall_mem_nil _, .inl rfl⟩
  | some search =>
      dsimp only
      split
      · refine ⟨_, ?_, .inr ⟨_, rfl⟩⟩
        intro o member
        rcases List.mem_pair.1 member with rfl | rfl
        · exact query
        · exact awaited
      · refine ⟨_, ?_, .inl rfl⟩
        intro o member
        cases List.mem_singleton.1 member
        exact query

theorem receive_routed (d : Desk) (routed : i.Routed) :
    receive s d i = routeExternally s d i := by
  unfold receive
  rw [if_neg (not_missing_selection routed.selected), if_pos routed.external]

theorem receive_consults (s : Setting) (d : Desk) (i : Invocation) :
    ∀ o ∈ (receive s d i).2.1, o.Consults i := by
  intro o member
  unfold receive at member
  by_cases missing : (i.action.needsSelection && i.selection == "") = true
  · rw [if_pos missing] at member
    cases member
  · by_cases external : i.action.external = true
    · have routed : i.Routed := ⟨fun needs empty => missing (by simp [needs, empty]), external⟩
      rw [if_neg missing, if_pos external] at member
      obtain ⟨calls, consults, comes | ⟨fault, comes⟩⟩ := routeExternally_refuses s d routed
      all_goals
        rw [comes] at member
        exact consults o member
    · rw [if_neg missing, if_neg external] at member
      cases range : TextRange.ofValue i.target with
      | error fault =>
          rw [range] at member
          cases member
      | ok target =>
          rw [range] at member
          cases member

/-! ### All other segments -/

def Output.query? : Output → Option String
  | .citation query => some query
  | _ => none

/-- No query is held back until the provider's stream is closed. -/
def Stage.Mute : Stage → Prop
  | .waitingClose _ outputs _ => outputs.filterMap Output.query? = []
  | _ => True

def Segment.Mute (segment : Segment) : Prop :=
  segment.2.1.Mute ∧ segment.2.2.filterMap Output.query? = []

section Mute

variable {d : Desk} {run : Run}

theorem finishClosing_mute {outputs : List Output} (mute : outputs.filterMap Output.query? = [])
    (fault : Option Fault) : (finishClosing s d run outputs fault).Mute := by
  cases fault with
  | none => exact ⟨trivial, mute⟩
  | some fault => exact ⟨trivial, rfl⟩

theorem leave_mute {outputs : List Output} (mute : outputs.filterMap Output.query? = []) :
    (leave s d run outputs).Mute := by
  unfold leave
  cases s.closing run with
  | quiet => exact finishClosing_mute mute none
  | raises fault => exact finishClosing_mute mute (some fault)
  | waits => exact ⟨mute, rfl⟩

theorem settle_mute (i : Invocation) (target : TextRange) (text : String) :
    (settle s d run i target text).Mute := by
  unfold settle
  split
  · dsimp only
    split <;> exact ⟨trivial, rfl⟩
  · exact ⟨trivial, rfl⟩

theorem refuseStream_mute (fault : Fault) : (refuseStream s d run fault).Mute := by
  unfold refuseStream
  split <;> exact ⟨trivial, rfl⟩

theorem failStream_mute (fault : Fault) : (failStream s d run fault).Mute := by
  unfold failStream
  split
  · exact leave_mute rfl
  · exact leave_mute rfl

theorem feedChunk_mute (snapshot : Suggestion) (task : Nat) (chunk : String) :
    (feedChunk s d run snapshot task chunk).Mute := by
  unfold feedChunk
  split
  · exact leave_mute rfl
  · split
    · exact ⟨trivial, rfl⟩
    · dsimp only
      split
      · exact ⟨trivial, rfl⟩
      · exact failStream_mute _

theorem endStream_mute (snapshot : Suggestion) : (endStream s d run snapshot).Mute := by
  unfold endStream
  split
  · exact leave_mute rfl
  · dsimp only
    split
    · exact ⟨trivial, rfl⟩
    · exact failStream_mute _

theorem resume_mute (snapshot : Suggestion) (task : Nat) :
    (resume s d run snapshot task).Mute := by
  unfold resume
  split
  · exact ⟨trivial, rfl⟩
  · exact leave_mute rfl

/-- The first segment of an invocation calls the citation manager only if it is routed there. -/
theorem open_consults (s : Setting) (d : Desk) (i : Invocation) (task : Nat) (query : String) :
    (.citation query ∈ (openSingle s d i task).2.2 → (Output.citation query).Consults i) ∧
      (.citation query ∈ (openStream s d i task).2.2 → (Output.citation query).Consults i) := by
  have consults := receive_consults s d i
  unfold openSingle openStream
  generalize receive s d i = received at consults ⊢
  obtain ⟨b, outputs, reception⟩ := received
  have called {last : Output} (other : last.query? = none)
      (member : Output.citation query ∈ outputs ++ [last]) :
      (Output.citation query).Consults i := by
    rcases List.mem_append.1 member with call | last
    · exact consults _ call
    · cases List.mem_singleton.1 last
      cases other
  cases reception with
  | refused fault => exact ⟨called rfl, called rfl⟩
  | searching fault => exact ⟨consults _, consults _⟩
  | accepted target => exact ⟨called rfl, called rfl⟩

theorem open_stands_mute (s : Setting) (d : Desk) (i : Invocation) (task : Nat) :
    (openSingle s d i task).2.1.Mute ∧ (openStream s d i task).2.1.Mute := by
  unfold openSingle openStream
  obtain ⟨b, outputs, reception⟩ := receive s d i
  cases reception <;> exact ⟨trivial, trivial⟩

end Mute

/-- A turn calls the citation manager only if it opens a stream. -/
theorem turn_mute (s : Setting) (d : Desk) (m : Move) {stage : Stage} (mute : stage.Mute)
    (opens : ∀ i p task, stage = .unopened i → m ≠ .pull p task) : (m.turn s d stage).Mute := by
  have still : Segment.Mute (d, stage, []) := ⟨mute, rfl⟩
  cases m with
  | pull p task =>
      cases stage with
      | unopened i => exact absurd rfl (opens i p task rfl)
      | shown run snapshot => exact resume_mute snapshot task
      | shownLast run => exact leave_mute rfl
      | «over» => exact ⟨trivial, rfl⟩
      | _ => exact still
  | text p reply =>
      cases stage with
      | waitingReply run i target => exact settle_mute i target reply
      | waitingChunk run snapshot task => exact feedChunk_mute snapshot task reply
      | _ => exact still
  | ending p =>
      cases stage with
      | waitingChunk run snapshot task => exact endStream_mute snapshot
      | _ => exact still
  | refuse p fault =>
      cases stage with
      | waitingChunk run snapshot task => exact refuseStream_mute fault
      | _ => exact still
  | fail p fault =>
      cases stage with
      | waitingReply run i target => exact ⟨trivial, rfl⟩
      | waitingChunk run snapshot task => exact failStream_mute fault
      | _ => exact still
  | interrupt p =>
      cases stage with
      | waitingChunk run snapshot task => exact leave_mute rfl
      | _ => exact ⟨trivial, rfl⟩
  | close p task =>
      cases stage with
      | shown run snapshot => exact leave_mute rfl
      | shownLast run => exact leave_mute rfl
      | _ => first | exact ⟨trivial, rfl⟩ | exact still
  | shut p fault =>
      cases stage with
      | waitingClose run outputs task => exact finishClosing_mute mute fault
      | _ => exact still
  | _ => cases stage <;> first | exact ⟨trivial, rfl⟩ | exact still

namespace Floor

variable {f g h : Floor} {m : Move} {place : Nat}

def Mute (f : Floor) : Prop :=
  ∀ stage ∈ f.stages, stage.Mute

theorem Mute.put (mute : f.Mute) {segment : Segment} (stands : segment.2.1.Mute) :
    (f.put place segment).1.Mute := by
  intro stage member
  rcases List.mem_or_eq_of_mem_set member with before | rfl
  · exact mute stage before
  · exact stands

theorem Mute.add (mute : f.Mute) {segment : Segment} (stands : segment.2.1.Mute) :
    (f.add segment).1.Mute := by
  intro stage member
  rcases List.mem_append.1 member with before | last
  · exact mute stage before
  · cases List.mem_singleton.1 last
    exact stands

/-- Only the start of an invocation that is routed there calls the citation manager. -/
theorem Mute.step (mute : f.Mute) (s : Setting) (m : Move) :
    (f.step s m).1.Mute ∧ ∀ query, .citation query ∈ (f.step s m).2 →
      ∃ i task, f.Launches i task m ∧ (Output.citation query).Consults i := by
  have does := step_does s f m
  generalize f.step s m = after at does ⊢
  cases does with
  | absent hplace missing => exact ⟨mute, fun query member => by cases member⟩
  | @taken m place stage hplace hold =>
      have before : stage.Mute := mute stage (List.mem_of_getElem? hold)
      -- The query goes out when a stream is opened, and at no other turn.
      by_cases opens : ∃ i p task, stage = .unopened i ∧ m = .pull p task
      · obtain ⟨i, p, task, rfl, rfl⟩ := opens
        cases hplace
        refine ⟨mute.put (open_stands_mute s (f.deskFor task) i task).2, ?_⟩
        intro query member
        exact ⟨i, task, ⟨hold, rfl⟩, (open_consults s (f.deskFor task) i task query).2 member⟩
      · have quiet := turn_mute s f.desk m before
          fun i p task unopened pulls => opens ⟨i, p, task, unopened, pulls⟩
        refine ⟨mute.put quiet.1, ?_⟩
        intro query member
        have called : query ∈ (m.turn s f.desk stage).2.2.filterMap Output.query? :=
          List.mem_filterMap.2 ⟨_, member, rfl⟩
        rw [quiet.2] at called
        cases called
  | started i task =>
      refine ⟨mute.add (open_stands_mute s (f.deskFor task) i task).1, ?_⟩
      intro query member
      exact ⟨i, task, ⟨rfl, rfl⟩, (open_consults s (f.deskFor task) i task query).1 member⟩
  | made i => exact ⟨mute.add trivial, fun query member => by cases member⟩
  | controlled c task => exact ⟨mute, fun query member => by cases List.mem_singleton.1 member⟩

theorem mute_run (s : Setting) (moves : List Move) : (Floor.run s {} moves).Mute := by
  -- By induction on the moves, from any floor.
  have kept {f : Floor} (mute : f.Mute) : (f.run s moves).Mute := by
    induction moves generalizing f with
    | nil => exact mute
    | cons m moves ih => exact ih (mute.step s m).1
  exact kept (List.forall_mem_nil _)

end Floor

end ActionEngine.Coordinator
