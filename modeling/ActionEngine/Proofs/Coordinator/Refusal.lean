import ActionEngine.Proofs.Coordinator.Consultation
import ActionEngine.Proofs.Coordinator.Flag
import ActionEngine.Proofs.Coordinator.Omission

/-!
# Refused invocations

An invocation is checked before its run begins. If it fails the checks, it raises its refusal;
before that, the citation manager is asked if it deals with the action. A refused invocation
does nothing else. The desk stays as it is apart from its log, and all other invocations go on
as if the refused one had never been there.
-/

namespace ActionEngine.Coordinator

/-- An invocation fails the checks with a fault: it has no selection but needs one, or the
    citation manager deals with it, or its range cannot be read. -/
inductive Invocation.Refused (i : Invocation) : Fault → Prop
  | unselected (needs : i.action.needsSelection = true) (empty : i.selection = "") :
      i.Refused (.engine .noSelection)
  | routed (routed : i.Routed) : i.Refused (handledExternally i)
  | unreadable {fault : Fault} (permitted : i.Permitted)
      (range : TextRange.ofValue i.target = .error fault) : i.Refused fault

variable {s : Setting} {i : Invocation} {refusal : Fault}

theorem receive_refused (s : Setting) (d : Desk) (refused : i.Refused refusal) :
    ∃ calls, (∀ o ∈ calls, o.Consults i) ∧
      ((receive s d i).2 = (calls, .refused refusal) ∨ refusal = handledExternally i ∧
        ∃ fault, (receive s d i).2 = (calls, .searching fault)) := by
  cases refused with
  | unselected needs empty =>
      refine ⟨[], List.forall_mem_nil _, .inl ?_⟩
      unfold receive
      rw [if_pos (by simp [needs, empty])]
  | routed routed =>
      obtain ⟨calls, consults, comes⟩ := routeExternally_refuses s d routed
      rw [receive_routed d routed]
      exact ⟨calls, consults, comes.imp_right fun h => ⟨rfl, h⟩⟩
  | unreadable permitted range =>
      rw [receive_permitted permitted, range]
      exact ⟨[], List.forall_mem_nil _, .inl rfl⟩

/-! ### Its segments -/

/-- The first segment of a refused invocation: nothing happens at the desk, and the refusal is
    raised, at once or after the citation manager was waited for. -/
structure Segment.Declines (d : Desk) (i : Invocation) (refusal : Fault) (task : Nat)
    (segment : Segment) : Prop where
  desk : d.Alike segment.1
  ends : ∃ calls, (∀ o ∈ calls, o.Consults i) ∧
    (segment.2 = (.over, calls ++ [.raised refusal none]) ∨
      refusal = handledExternally i ∧ ∃ fault, segment.2 = (.waitingCitation i fault task, calls))

theorem open_declines (d : Desk) (refused : i.Refused refusal) (task : Nat) :
    Segment.Declines d i refusal task (openSingle s d i task) ∧
      Segment.Declines d i refusal task (openStream s d i task) := by
  have remarks := receive_remarks s d i
  obtain ⟨calls, consults, comes⟩ := receive_refused s d refused
  unfold openSingle openStream
  generalize receive s d i = received at remarks comes ⊢
  obtain ⟨b, outputs, reception⟩ := received
  rcases comes with comes | ⟨same, fault, comes⟩
  · cases comes
    exact ⟨⟨remarks, calls, consults, .inl rfl⟩, remarks, calls, consults, .inl rfl⟩
  · cases comes
    exact ⟨⟨remarks, calls, consults, .inr ⟨same, fault, rfl⟩⟩, remarks, calls, consults,
      .inr ⟨same, fault, rfl⟩⟩

def Stage.Declines (i : Invocation) (refusal : Fault) : Stage → Prop
  | .unopened j => j = i
  | .waitingCitation j _ _ => j = i ∧ refusal = handledExternally i
  | .over => True
  | _ => False

inductive Output.Declines (i : Invocation) (refusal : Fault) : Output → Prop
  | consults {o : Output} (consults : o.Consults i) : Declines i refusal o
  | raised : Declines i refusal (.raised refusal none)
  | stopped : Declines i refusal .stopped
  | closed : Declines i refusal .closed
  | cancelled : Declines i refusal .cancelled

theorem Segment.Declines.stands {d : Desk} {task : Nat} {segment : Segment}
    (declines : segment.Declines d i refusal task) : segment.2.1.Declines i refusal := by
  obtain ⟨-, calls, consults, ends | ⟨same, fault, ends⟩⟩ := declines
  · rw [ends]
    trivial
  · rw [ends]
    exact ⟨rfl, same⟩

theorem Segment.Declines.shows {d : Desk} {task : Nat} {segment : Segment}
    (declines : segment.Declines d i refusal task) :
    ∀ o ∈ segment.2.2, o.Declines i refusal := by
  obtain ⟨-, calls, consults, ends | ⟨-, fault, ends⟩⟩ := declines
  · rw [ends]
    intro o member
    rcases List.mem_append.1 member with call | last
    · exact .consults (consults o call)
    · cases List.mem_singleton.1 last
      exact .raised
  · rw [ends]
    exact fun o member => .consults (consults o member)

/-- No turn of a refused invocation changes anything at the desk. -/
theorem turn_declines (d : Desk) (refused : i.Refused refusal) {stage : Stage}
    (stands : stage.Declines i refusal) (m : Move) :
    d.Matches (m.turn s d stage).1 ∧ (m.turn s d stage).2.1.Declines i refusal ∧
      ∀ o ∈ (m.turn s d stage).2.2, o.Declines i refusal := by
  have quiet : d.Matches d ∧ stage.Declines i refusal ∧
      ∀ o ∈ ([] : List Output), o.Declines i refusal :=
    ⟨.refl d, stands, List.forall_mem_nil _⟩
  have ends {d' : Desk} {o : Output} (alike : d.Matches d') (shows : o.Declines i refusal) :
      d.Matches d' ∧ Stage.over.Declines i refusal ∧ ∀ o' ∈ [o], o'.Declines i refusal :=
    ⟨alike, trivial, List.forall_mem_singleton.2 shows⟩
  cases stage with
  | unopened j =>
      obtain rfl : j = i := stands
      cases m with
      | pull p task =>
          have declines := (open_declines (s := s) { d with current := some task } refused task).2
          have desk := (Desk.Matches.ran d (some task)).trans (.of_alike declines.desk)
          exact ⟨desk, declines.stands, declines.shows⟩
      | close p task => exact ends (.refl d) .closed
      | _ => exact quiet
  | waitingCitation j fault task =>
      obtain ⟨rfl, rfl⟩ := stands
      cases m with
      | searched p =>
          have remarks := searched_remarks { d with current := some task } j fault
          exact ends ((Desk.Matches.ran d (some task)).trans (.of_alike remarks)) .raised
      | interrupt p => exact ends (.ran d (some task)) .cancelled
      | _ => exact quiet
  | «over» =>
      cases m with
      | pull p task => exact ends (.refl d) .stopped
      | close p task => exact ends (.refl d) .closed
      | _ => exact quiet
  | _ => exact stands.elim

/-! ### Its moves -/

namespace Floor

variable {f g h : Floor} {m : Move} {place : Nat}

/-- A move of a refused invocation does nothing on the floor without it. -/
theorem Without.refused {stage : Stage} (without : g.Without place h) (s : Setting)
    (refused : i.Refused refusal) (hold : g.stages[place]? = some stage)
    (stands : stage.Declines i refusal) (own : m.place? = some place) :
    (g.step s m).1.Without place h ∧
      (∃ next : Stage, (g.step s m).1.stages[place]? = some next ∧ next.Declines i refusal) ∧
      ∀ o ∈ (g.step s m).2, o.Declines i refusal := by
  obtain ⟨desk, next, shows⟩ := turn_declines (s := s) g.desk refused stands m
  rw [step_eq_turn own hold]
  refine ⟨⟨desk.symm.trans without.desk, ?_, ?_⟩, ⟨_, put_stands hold _, next⟩, shows⟩
  · simp only [put, List.eraseIdx_set_eq]
    exact without.stages
  · simpa [put] using without.there

/-- Whatever happens after a refused invocation was made: on the floor without it, all others
    do and show the same, and the invocation itself shows no more than its refusal. -/
theorem Without.run {stage : Stage} (without : g.Without place h) (ordered : g.Ordered)
    (refused : i.Refused refusal) (hold : g.stages[place]? = some stage)
    (stands : stage.Declines i refusal) (moves : List Move) :
    (g.run s moves).Without place (h.run s (moves.filterMap (Move.around place))) ∧
      withoutPlace place (g.trace s moves) = h.trace s (moves.filterMap (Move.around place)) ∧
      ∀ entry ∈ g.trace s moves, entry.1.place? = some place →
        ∀ o ∈ entry.2, o.Declines i refusal := by
  -- On the moves: one of the refused invocation touches the floor with it alone, and one of
  -- another invocation goes the same way on both floors.
  induction moves generalizing g h stage with
  | nil => exact ⟨without, rfl, List.forall_mem_nil _⟩
  | cons m moves ih =>
      cases around : m.around place with
      | none =>
          have own := place?_of_around_eq_none around
          obtain ⟨kept, ⟨next, hnext, later⟩, shows⟩ := without.refused s refused hold stands own
          obtain ⟨done, same, rest⟩ := ih kept (ordered.step s m) hnext later
          rw [List.filterMap_cons_none around]
          refine ⟨done, ?_, ?_⟩
          · simpa [withoutPlace, trace, around] using same
          · exact List.forall_mem_cons.2 ⟨fun _ => shows, rest⟩
      | some m' =>
          have other := place?_ne_of_around_eq_some around
          obtain ⟨kept, shown⟩ := without.step s around
          have stays := step_elsewhere (s := s) ordered hold other
          obtain ⟨done, same, rest⟩ := ih kept (ordered.step s m) stays stands
          rw [List.filterMap_cons_some around]
          refine ⟨done, ?_, ?_⟩
          · simpa [withoutPlace, trace, around, shown] using same
          · exact List.forall_mem_cons.2 ⟨fun own => absurd own other, rest⟩

def startedAt (f : Floor) (m : Move) : Nat :=
  m.place?.getD f.stages.length

theorem launch_declines {task : Nat} (s : Setting) (refused : i.Refused refusal)
    (launches : f.Launches i task m) :
    f.desk.Matches (f.step s m).1.desk ∧
      (∀ q, q ≠ f.startedAt m → (f.step s m).1.stages[q]? = f.stages[q]?) ∧
      ∃ calls, (∀ o ∈ calls, o.Consults i) ∧
        ((f.step s m).2 = calls ++ [.raised refusal none] ∧
            (f.step s m).1.stages[f.startedAt m]? = some .over ∨
          refusal = handledExternally i ∧ (f.step s m).2 = calls ∧ ∃ fault,
            (f.step s m).1.stages[f.startedAt m]? = some (.waitingCitation i fault task)) := by
  have ran : f.desk.Matches (f.deskFor task) := .ran f.desk (some task)
  obtain ⟨single, streamed⟩ := open_declines (s := s) (f.deskFor task) refused task
  cases m with
  | execute j t =>
      obtain ⟨rfl, rfl⟩ := launches
      obtain ⟨desk, calls, consults, ends⟩ := single
      have others (q : Nat) (other : q ≠ f.stages.length) (stage : Stage) :
          (f.stages ++ [stage])[q]? = f.stages[q]? := by
        rw [List.getElem?_append]
        split
        · rfl
        · rw [List.getElem?_eq_none (by simp; omega), List.getElem?_eq_none (by omega)]
      refine ⟨ran.trans (.of_alike desk), fun q other => others q other _, calls, consults, ?_⟩
      rcases ends with ends | ⟨same, fault, ends⟩
      · exact .inl (by simp [step, add, startedAt, Move.place?, ends])
      · exact .inr ⟨same, by simp [step, add, startedAt, Move.place?, ends]⟩
  | pull p t =>
      obtain ⟨unopened, rfl⟩ := launches
      obtain ⟨desk, calls, consults, ends⟩ := streamed
      have moved : f.step s (.pull p t) = f.put p (openStream s (f.deskFor t) i t) :=
        step_eq_turn rfl unopened
      have stands := put_stands unopened (openStream s (f.deskFor t) i t)
      rw [moved]
      refine ⟨ran.trans (.of_alike desk), fun q other => List.getElem?_set_ne (Ne.symm other),
        calls, consults, ?_⟩
      rcases ends with ends | ⟨same, fault, ends⟩
      · rw [ends] at stands
        exact .inl ⟨congrArg Prod.snd ends, stands⟩
      · rw [ends] at stands
        exact .inr ⟨same, congrArg Prod.snd ends, fault, stands⟩
  | _ => exact launches.elim

theorem searched_raises {fault : Option Fault} {task : Nat} (s : Setting)
    (hold : f.stages[place]? = some (.waitingCitation i fault task)) :
    (f.step s (.searched place)).2 = [.raised (handledExternally i) none] ∧
      f.desk.Matches (f.step s (.searched place)).1.desk ∧
      (f.step s (.searched place)).1.stages[place]? = some .over := by
  have ran : f.desk.Matches (f.deskFor task) := .ran f.desk (some task)
  have moved :
      f.step s (.searched place) = f.put place (finishSearch (f.deskFor task) i fault) :=
    step_eq_turn rfl hold
  rw [moved]
  exact ⟨rfl, ran.trans (.of_alike (searched_remarks _ i fault)), put_stands hold _⟩

theorem Without.of_added {segment : Segment} (alike : f.desk.Matches segment.1) :
    (f.add segment).1.Without f.stages.length f := by
  refine ⟨alike.symm, ?_, by simp [add]⟩
  simp [add, List.eraseIdx_append_of_length_le]

/-- A refused invocation has just been made, as a single request or as a stream. -/
theorem made_declines (s : Setting) (f : Floor) (refused : i.Refused refusal) {call : Move}
    (made : call = .stream i ∨ ∃ task, call = .execute i task) :
    (f.step s call).1.Without f.stages.length f ∧
      ∃ stage : Stage, (f.step s call).1.stages[f.stages.length]? = some stage ∧
        stage.Declines i refusal := by
  rcases made with rfl | ⟨task, rfl⟩
  · exact ⟨.of_added (.refl f.desk), _, List.getElem?_concat_length, rfl⟩
  · have ran : f.desk.Matches (f.deskFor task) := ⟨f.desk.log, some task, rfl⟩
    have declines := (open_declines (s := s) (f.deskFor task) refused task).1
    exact ⟨.of_added (ran.trans (.of_alike declines.desk)), _, List.getElem?_concat_length,
      declines.stands⟩

/-- In every reachable state, whatever the observers do, an invocation that fails the checks
    changes nothing but the log. When it is called, it raises its refusal without asking
    anything of the provider; if the citation manager has to be waited for, it raises as soon as
    that is done. Whatever happens afterwards, all others do and show what they would without it,
    and the invocation shows no more than its refusal. Only an invocation that is routed to the
    citation manager, with its selection in order, calls that. -/
theorem refused_invocation_changes_nothing (s : Setting) (before : List Move) (i : Invocation)
    (refusal : Fault) (refused : i.Refused refusal) :
    let f := Floor.run s {} before
    (∀ (m : Move) (task : Nat), f.Launches i task m →
        let g := (f.step s m).1
        let place := f.startedAt m
        f.desk.Matches g.desk ∧ (∀ q, q ≠ place → g.stages[q]? = f.stages[q]?) ∧
          ∃ calls : List Output, (∀ o ∈ calls, o.Consults i) ∧
            ((f.step s m).2 = calls ++ [.raised refusal none] ∧ g.stages[place]? = some .over ∨
              (f.step s m).2 = calls ∧
                ∀ between : List Move, (∀ m ∈ between, m.place? ≠ some place) →
                  let h := g.run s between
                  (h.step s (.searched place)).2 = [.raised refusal none] ∧
                    h.desk.Matches (h.step s (.searched place)).1.desk ∧
                    (h.step s (.searched place)).1.stages[place]? = some .over)) ∧
      (∀ (call : Move) (after : List Move), (call = .stream i ∨ ∃ task, call = .execute i task) →
        let place := f.stages.length
        let g := (f.step s call).1
        let others := after.filterMap (Move.around place)
        (f.run s others).desk.Matches (g.run s after).desk ∧
          (f.run s others).stages = (g.run s after).stages.eraseIdx place ∧
          f.trace s others = withoutPlace place (g.trace s after) ∧
          ∀ entry ∈ g.trace s after, entry.1.place? = some place →
            ∀ o ∈ entry.2, o.Declines i refusal) ∧
      ∀ (m : Move) (query : String), .citation query ∈ (f.step s m).2 →
        ∃ (j : Invocation) (task : Nat), f.Launches j task m ∧ j.Routed ∧
          query = clip citationQueryLimit j.selection := by
  intro f
  have ordered : f.Ordered := ordered_run s before
  refine ⟨?_, ?_, ?_⟩
  · intro m task launches g place
    obtain ⟨desk, others, calls, consults, ends⟩ := launch_declines s refused launches
    refine ⟨desk, others, calls, consults, ends.imp_right ?_⟩
    rintro ⟨rfl, shown, fault, waits⟩
    refine ⟨shown, ?_⟩
    intro between elsewhere h
    exact searched_raises s (run_elsewhere (ordered.step s m) waits elsewhere)
  · intro call after made place g others
    obtain ⟨without, stage, hold, stands⟩ := made_declines s f refused made
    obtain ⟨done, same, shows⟩ :=
      without.run (ordered.step s call) refused hold stands after
    exact ⟨done.desk.symm, done.stages, same.symm, shows⟩
  · intro m query called
    obtain ⟨j, task, launches, consults⟩ := ((mute_run s before).step s m).2 query called
    refine ⟨j, task, launches, consults.routed, ?_⟩
    rcases consults.asks with same | other
    · cases same
      rfl
    · cases other

/-- A citation manager that has to be waited for, and then fails. -/
def unreliable : Setting where
  citations := some fun _ => { awaited := true, fault := some .timedOut }

/-- An invocation that is routed to the citation manager. -/
def routedRequest : Invocation where
  action := Builtin.findSupporting
  selection := "Some text"

/-- While a request waits for its reply, another invocation is routed to the citation manager.
    The request ends as it does without it. -/
theorem routed_invocation_spares_waiting_request :
    let f := Floor.run unreliable {} (answered.take 1)
    let g := (f.step unreliable (.execute routedRequest 1)).1
    routedRequest.Refused (handledExternally routedRequest) ∧ f.desk.Matches g.desk ∧
      f.trace unreliable [.text 0 "Clear text"] =
        withoutPlace 1 (g.trace unreliable [.text 0 "Clear text", .searched 1]) := by
  intro f g
  have refused : routedRequest.Refused (handledExternally routedRequest) :=
    .routed ⟨by decide, rfl⟩
  obtain ⟨starts, others, -⟩ :=
    refused_invocation_changes_nothing unreliable (answered.take 1) routedRequest _ refused
  obtain ⟨-, -, same, -⟩ := others (.execute routedRequest 1)
    [.text 0 "Clear text", .searched 1] (.inr ⟨1, rfl⟩)
  exact ⟨refused, (starts (.execute routedRequest 1) 1 ⟨rfl, rfl⟩).1, same⟩

end Floor

end ActionEngine.Coordinator
