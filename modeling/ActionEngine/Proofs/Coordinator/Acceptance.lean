import ActionEngine.Proofs.Coordinator.Offer
import ActionEngine.Proofs.Coordinator.Release

/-!
# Accepted once

While observers only record, a suggestion that was accepted is gone: its invocation has lost
its run for good, and new ids are different from the old ones. So no event shows it again,
and it cannot be accepted a second time.
-/

namespace ActionEngine.Coordinator

def Setting.Gave (s : Setting) (d : Desk) (id : String) : Prop :=
  ∃ n < d.nextSuggestion, s.suggestionId n = id

theorem Setting.Takes.gave {s : Setting} {d d' : Desk} {id : String} (takes : s.Takes d d' id) :
    s.Gave d' id := by
  obtain ⟨n, rfl, -, below⟩ := takes
  exact ⟨n, below, rfl⟩

theorem Setting.Gave.mono {s : Setting} {d d' : Desk} {id : String} (gave : s.Gave d id)
    (counted : d.nextSuggestion ≤ d'.nextSuggestion) : s.Gave d' id := by
  obtain ⟨n, below, rfl⟩ := gave
  exact ⟨n, Nat.lt_of_lt_of_le below counted, rfl⟩

/-- An id that was given out is not taken again. -/
theorem Setting.Gave.not_takes {s : Setting} {d d' : Desk} {id : String} (gave : s.Gave d id)
    (distinct : Function.Injective s.suggestionId) : ¬s.Takes d d' id := by
  obtain ⟨n, below, rfl⟩ := gave
  rintro ⟨m, same, above, -⟩
  have : m = n := distinct same
  omega

namespace Floor

/-- Whatever is offered, its id was given out, and what is on offer was shown last. -/
structure Accounted (s : Setting) (f : Floor) : Prop where
  state : ∀ id, f.desk.lifecycle.state.offer? = some id → s.Gave f.desk id
  stages : ∀ (place : Nat) (stage : Stage) (id : String), f.stages[place]? = some stage →
    stage.offer? = some id → s.Gave f.desk id
  announced : f.desk.Announced s

/-- The id was given out and is not on offer; an invocation that offers under it has lost its
    run. -/
structure Spent (s : Setting) (id : String) (f : Floor) : Prop where
  gave : s.Gave f.desk id
  state : f.desk.lifecycle.state.offer? ≠ some id
  stages : ∀ (place : Nat) (stage : Stage), f.stages[place]? = some stage →
    stage.offer? = some id → f.desk.active ≠ stage.run?

variable {s : Setting} {f g : Floor}

/-! ### What a move keeps -/

theorem accounted_initial (s : Setting) : Accounted s {} where
  state id h := by cases h
  stages place stage id h := by cases h
  announced _ suggestion h := by cases h

variable (silent : ∀ events, s.react events = [])
include silent

theorem Accounted.of_offers (accounted : f.Accounted s) (offers : f.Offers s g) :
    g.Accounted s := by
  have counted := offers.desk.counted silent
  refine ⟨?_, ?_, offers.desk.announced silent accounted.announced⟩
  · intro id h
    rcases (offers.desk.offered silent).1 id h with before | ⟨place, stage, hstage, own, -⟩ | takes
    · exact (accounted.state id before).mono counted
    · exact (accounted.stages place stage id hstage own).mono counted
    · exact takes.gave
  · intro place stage id hstage h
    rcases offers.stages place stage id hstage h with ⟨q, stage', hstage', own, -⟩ | takes
    · exact (accounted.stages q stage' id hstage' own).mono counted
    · exact takes.gave

theorem Accounted.step (accounted : f.Accounted s) (m : Move) : (f.step s m).1.Accounted s :=
  accounted.of_offers silent (step_offers silent f m)

theorem accounted_run (moves : List Move) : (Floor.run s {} moves).Accounted s := by
  suffices h : ∀ f : Floor, f.Accounted s → (f.run s moves).Accounted s from
    h {} (accounted_initial s)
  induction moves with
  | nil => exact fun f accounted => accounted
  | cons m moves ih => exact fun f accounted => ih _ (accounted.step silent m)

variable (distinct : Function.Injective s.suggestionId) {id : String}
include distinct

/-- What is spent stays so, and no event of the move shows it. -/
theorem Spent.step (spent : f.Spent s id) (ordered : f.Ordered) (m : Move) :
    (f.step s m).1.Spent s id ∧
      ∃ later, (f.step s m).1.desk.events = f.desk.events ++ later ∧
        ∀ e ∈ later, ¬e.Mentions id := by
  have offers := step_offers silent f m
  have renews := (step_advances s ordered.suits m).renews
  generalize (f.step s m).1 = g at offers renews
  -- Nothing that a move may offer has this id.
  have excluded : ¬(f.desk.lifecycle.state.offer? = some id ∨ f.Grows id ∨
      s.Takes f.desk g.desk id) := by
    rintro (offered | ⟨place, stage, hstage, own, active⟩ | takes)
    · exact spent.state offered
    · exact spent.stages place stage hstage own active
    · exact spent.gave.not_takes distinct takes
  obtain ⟨state, later, events, shown⟩ := offers.desk.offered silent
  refine ⟨⟨spent.gave.mono (offers.desk.counted silent), fun h => excluded (state id h), ?_⟩,
    later, events, fun e he mentions => excluded (shown e he id mentions)⟩
  intro place stage hstage own active
  rcases offers.stages place stage id hstage own with ⟨q, stage', hstage', own', same⟩ | takes
  · -- It offered under this id before, with the same run, and a run that was lost stays lost.
    obtain ⟨run, hrun⟩ := Stage.run?_of_offer? own
    have hrun' : stage'.run? = some run := same.trans hrun
    have before : f.desk.active = some run :=
      renews.active_of (ordered.numbered q stage' run hstage' hrun') (active.trans hrun)
    exact spent.stages q stage' hstage' own' (before.trans hrun'.symm)
  · exact spent.gave.not_takes distinct takes

theorem Spent.run (spent : f.Spent s id) (ordered : f.Ordered) (moves : List Move) :
    (f.run s moves).Spent s id ∧
      ∃ later, (f.run s moves).desk.events = f.desk.events ++ later ∧
        ∀ e ∈ later, ¬e.Mentions id := by
  -- On the moves; ids are never taken twice, which keeps `Spent` through each of them.
  induction moves generalizing f with
  | nil => exact ⟨spent, [], (List.append_nil _).symm, by simp⟩
  | cons m moves ih =>
      obtain ⟨spent', early, hearly, shown⟩ := spent.step silent distinct ordered m
      obtain ⟨last, late, hlate, shown'⟩ := ih spent' (ordered.step s m)
      refine ⟨last, early ++ late, hlate.trans (by rw [hearly, List.append_assoc]), ?_⟩
      intro e he
      exact (List.mem_append.1 he).elim (shown e) (shown' e)

end Floor

/-! ### Accepting -/

namespace Desk

variable {s : Setting} {d : Desk}

theorem control_accept_of_ready {suggestion : Suggestion}
    (ready : d.lifecycle.state = .ready suggestion) :
    d.control s.tell .accept = ((d.dismiss s.tell).remark .info
      ("Accepted suggestion from " ++ suggestion.source.id), .text (some suggestion.text)) := by
  unfold control accept
  rw [ready]
  rfl

theorem control_accept_of_not_ready
    (unready : ∀ suggestion, d.lifecycle.state ≠ .ready suggestion) :
    d.control s.tell .accept = (d, .text none) := by
  unfold control accept
  cases state : d.lifecycle.state with
  | ready suggestion => exact absurd state (unready suggestion)
  | _ => rfl

theorem dismiss_idle (silent : ∀ events, s.react events = []) (d : Desk) :
    (d.dismiss s.tell).lifecycle.state = .idle := by
  unfold dismiss reset
  split
  · rename_i idle
    cases state : (d.retire s.tell).lifecycle.state with
    | idle => rfl
    | _ =>
        rw [state] at idle
        cases idle
  · exact (Offers.enter_frame silent _ _).1

end Desk

namespace Floor

variable {s : Setting} {f : Floor}

theorem step_accept (f : Floor) (task : Option Nat) :
    f.step s (.control .accept task) =
      ({ f with desk := ({ f.desk with current := task }.control s.tell .accept).1 },
        [.replied ({ f.desk with current := task }.control s.tell .accept).2]) := rfl

/-- An accept that finds a suggestion spends it. -/
theorem Accounted.accept (silent : ∀ events, s.react events = []) (accounted : f.Accounted s)
    {suggestion : Suggestion} (ready : f.desk.lifecycle.state = .ready suggestion)
    (task : Option Nat) :
    (f.step s (.control .accept task)).2 = [.replied (.text (some suggestion.text))] ∧
      (f.step s (.control .accept task)).1.desk.lifecycle.state = .idle ∧
      (f.step s (.control .accept task)).1.desk.active = none ∧
      (f.step s (.control .accept task)).1.Spent s suggestion.id := by
  have ready' : { f.desk with current := task }.lifecycle.state = .ready suggestion := ready
  have idle := Desk.dismiss_idle silent { f.desk with current := task }
  have vacant : ({ f.desk with current := task }.dismiss s.tell).active = none :=
    Desk.dismiss_vacates (Desk.tell_hears s) _
  have gave : s.Gave f.desk suggestion.id := accounted.state _ (by rw [ready]; rfl)
  have counted := (step_offers silent f (.control .accept task)).desk.counted silent
  rw [step_accept, Desk.control_accept_of_ready ready'] at counted ⊢
  refine ⟨rfl, idle, vacant, gave.mono counted, ?_, ?_⟩
  · intro offered
    have offered' : Lifecycle.State.offer?
        ({ f.desk with current := task }.dismiss s.tell).lifecycle.state = some suggestion.id :=
      offered
    rw [idle] at offered'
    cases offered'
  · -- An invocation that offers has a run, and none is active any more.
    intro place stage hstage own active
    obtain ⟨run, hrun⟩ := Stage.run?_of_offer? own
    rw [hrun] at active
    exact Option.some_ne_none run (active.symm.trans vacant)

/-- On the way from the first floor to the second one a suggestion was accepted: it was on offer
    and had been shown to be ready last. Nothing is on offer and no run is active then. From
    then on no event shows the suggestion, and whatever else is on offer is another one. -/
structure Accepted (s : Setting) (suggestion : Suggestion) (f g : Floor) : Prop where
  ready : f.desk.lifecycle.state = .ready suggestion
  last : s.handlers ≠ 0 →
    (f.desk.events.filterMap Event.ready?).getLast? = some suggestion
  idle : g.desk.lifecycle.state = .idle
  vacant : g.desk.active = none
  gone : ∀ after : List Move, ∃ later, (g.run s after).desk.events = g.desk.events ++ later ∧
    ∀ e ∈ later, ¬e.Mentions suggestion.id
  once : ∀ (after : List Move) (other : Suggestion),
    (g.run s after).desk.lifecycle.state = .ready other → other.id ≠ suggestion.id

/-- However invocations are interleaved, an accept that returns a text has accepted a
    suggestion with that text; when no suggestion is on offer it returns nothing and changes
    nothing, whatever run is active. -/
theorem suggestion_accepted_once (silent : ∀ events, s.react events = [])
    (distinct : Function.Injective s.suggestionId) (before : List Move) (task : Option Nat) :
    (∀ text, ((Floor.run s {} before).step s (.control .accept task)).2 =
          [.replied (.text (some text))] →
        ∃ suggestion : Suggestion, suggestion.text = text ∧
          Accepted s suggestion (Floor.run s {} before)
            ((Floor.run s {} before).step s (.control .accept task)).1) ∧
      ((∀ suggestion, (Floor.run s {} before).desk.lifecycle.state ≠ .ready suggestion) →
        (Floor.run s {} before).step s (.control .accept task) =
          ({ Floor.run s {} before with
              desk := { (Floor.run s {} before).desk with current := task } },
            [.replied (.text none)])) := by
  have accounted := accounted_run silent before
  have ordered := ordered_run s before
  generalize Floor.run s {} before = f at accounted ordered
  have none_found (unready : ∀ suggestion, f.desk.lifecycle.state ≠ .ready suggestion) :
      f.step s (.control .accept task) =
        ({ f with desk := { f.desk with current := task } }, [.replied (.text none)]) := by
    have unready' : ∀ suggestion,
        { f.desk with current := task }.lifecycle.state ≠ .ready suggestion := unready
    rw [step_accept, Desk.control_accept_of_not_ready unready']
  refine ⟨?_, none_found⟩
  intro text returned
  by_cases offered : ∃ suggestion, f.desk.lifecycle.state = .ready suggestion
  · obtain ⟨suggestion, ready⟩ := offered
    obtain ⟨reply, idle, vacant, spent⟩ := accounted.accept silent ready task
    have later := spent.run silent distinct (ordered.step s (.control .accept task))
    have same : suggestion.text = text := by
      rw [returned] at reply
      cases reply
      rfl
    refine ⟨suggestion, same, ready, fun visible => accounted.announced visible _ ready, idle,
      vacant, fun after => (later after).2, ?_⟩
    intro after other offered id_eq
    apply (later after).1.state
    rw [offered, ← id_eq]
    rfl
  · -- Without a suggestion on offer no text would have come back.
    have unready : ∀ suggestion, f.desk.lifecycle.state ≠ .ready suggestion :=
      fun suggestion h => offered ⟨suggestion, h⟩
    rw [none_found unready] at returned
    cases returned

/-- A source of ids that grow longer and longer. -/
def tally : Setting where
  suggestionId n := String.ofList (List.replicate n 'x')

theorem tally_injective : Function.Injective tally.suggestionId := by
  intro m n same
  have lengths := congrArg String.length same
  simpa [tally] using lengths

theorem open_stream_accepted :
    ((Floor.run tally {} opened).step tally (.control .accept none)).2 =
        [.replied (.text (some "Text"))] ∧
      ∃ suggestion : Suggestion, suggestion.text = "Text" ∧
        Accepted tally suggestion (Floor.run tally {} opened)
          ((Floor.run tally {} opened).step tally (.control .accept none)).1 :=
  ⟨rfl, (suggestion_accepted_once (fun _ => rfl) tally_injective opened none).1 "Text" rfl⟩

end Floor

end ActionEngine.Coordinator
