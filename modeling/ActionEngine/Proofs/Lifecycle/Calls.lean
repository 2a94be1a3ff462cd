import ActionEngine.Lifecycle.Machine
import ActionEngine.Proofs.Steps

/-!
# Calls of a lifecycle

A call checks the move first and then does three things: it enters the state, counts the
move and publishes it. Here a call is a program whose effects stay even if it is refused
later, so that it has to be shown that a refused call has had none. Any number of calls,
refused ones among them, leave a chain of changes behind that leads from the idle state
to the present one.
-/

namespace ActionEngine

def Event.stateChange? : Event → Option (Lifecycle.State × Lifecycle.State)
  | .stateChanged previous current => some (previous, current)
  | _ => none

def stateChanges (events : List Event) : List (Lifecycle.State × Lifecycle.State) :=
  events.filterMap Event.stateChange?

namespace Lifecycle

namespace State

/-- A state may follow another one: their kinds allow it, and a ready suggestion is followed
    only by snapshots with its own id. -/
structure Permits (previous next : State) : Prop where
  kinds : previous.mayPrecede next = true
  same : ∀ s t, previous = .ready s → next = .ready t → s.id = t.id

theorem permits_of_check {previous next : State} (h : previous.check next = .ok ()) :
    previous.Permits next := by
  unfold check at h
  split at h
  · cases h
  · split at h
    · cases h
    · rename_i kinds same
      refine ⟨by simpa using kinds, ?_⟩
      rintro s t rfl rfl
      simpa [sameSuggestion] using same

/-- Changes lead from the first state to the last: each goes on from where the one before it
    ended, and is permitted. -/
def Leads : State → List (State × State) → State → Prop
  | first, [], last => first = last
  | first, (previous, next) :: changes, last =>
      previous = first ∧ previous.Permits next ∧ Leads next changes last

namespace Leads

variable {first middle last : State} {changes more : List (State × State)}

theorem append (h : Leads first changes middle) (h' : Leads middle more last) :
    Leads first (changes ++ more) last := by
  induction changes generalizing first with
  | nil => exact h ▸ h'
  | cons change changes ih => exact ⟨h.1, h.2.1, ih h.2.2⟩

/-- The last state is the one that was entered last. -/
theorem eq_or_entered (h : Leads first changes last) :
    changes = [] ∧ first = last ∨ ∃ previous, (previous, last) ∈ changes := by
  induction changes generalizing first with
  | nil => exact .inl ⟨rfl, h⟩
  | cons change changes ih =>
      right
      rcases ih h.2.2 with ⟨-, same⟩ | ⟨previous, entered⟩
      · exact ⟨change.1, same ▸ List.mem_cons_self⟩
      · exact ⟨previous, List.mem_cons_of_mem _ entered⟩

end Leads

end State

/-! ### Calls as programs -/

/-- A lifecycle, and the events that it has published. -/
structure Slot where
  lifecycle : Lifecycle := .initial
  told : List Event := []
deriving DecidableEq, Repr

/-- A call works on a slot. What it has done remains done when it fails. -/
abbrev Call := ExceptT Fault (StateM Slot) Unit

/-- Enter a state, count the move and publish it. -/
def transition (next : State) : Call := do
  let previous := (← get).lifecycle.state
  if !previous.mayPrecede next then
    throw (.engine (State.Refusal.notPermitted previous next).error)
  else if !previous.sameSuggestion next then
    throw (.engine State.Refusal.otherSuggestion.error)
  else
    modify fun t => { t with lifecycle.state := next }
    modify fun t => { t with lifecycle.transitions := t.lifecycle.transitions + 1 }
    modify fun t => { t with told := t.told ++ [.stateChanged previous next] }

def Request.call : Request → Call
  | .start action => transition (.loading action)
  | .ready suggestion => transition (.ready suggestion)
  | .fail message => transition (.failed message)
  | .reset => do
    unless (← get).lifecycle.state.isIdle do transition .idle

def Slot.serve (t : Slot) (requests : List Request) : Slot :=
  requests.foldl (fun t r => (r.call.run t).2) t

theorem run_transition (next : State) (t : Slot) :
    (transition next).run t = match t.lifecycle.state.check next with
      | .ok _ => (.ok (), ⟨t.lifecycle.move next,
          t.told ++ [.stateChanged t.lifecycle.state next]⟩)
      | .error refusal => (.error (.engine refusal.error), t) := by
  unfold transition State.check
  rw [Steps.run_get_bind]
  dsimp only
  by_cases kinds : t.lifecycle.state.mayPrecede next = true
  · by_cases same : t.lifecycle.state.sameSuggestion next = true
    · simp only [kinds, same]
      rfl
    · simp only [kinds, same]
      rfl
  · simp only [kinds]
    rfl

/-- A call gives the same as the answer to its request, and nothing of a refused call is left. -/
theorem run_call (r : Request) (t : Slot) :
    r.call.run t = match t.lifecycle.answer r with
      | .ok (l, events) => (.ok (), ⟨l, t.told ++ events⟩)
      | .error refusal => (.error (.engine refusal.error), t) := by
  have entered (next : State) : (transition next).run t =
      match (t.lifecycle.enter next).map fun p => (p.1, [p.2]) with
      | .ok (l, events) => (.ok (), ⟨l, t.told ++ events⟩)
      | .error refusal => (.error (.engine refusal.error), t) := by
    rw [run_transition]
    unfold enter
    cases t.lifecycle.state.check next <;> rfl
  cases r with
  | reset =>
      unfold Request.call
      rw [Steps.run_get_bind]
      by_cases idle : t.lifecycle.state.isIdle = true
      · simp [answer, idle]
        rfl
      · simp only [answer, idle]
        exact entered .idle
  | _ => exact entered _

/-! ### Which calls are refused -/

/-- A request is barred in a state: a result comes only from an action that is loading or has
    shown a suggestion already, and a suggestion is not replaced by another one. -/
def Request.Barred (state : State) : Request → Prop
  | .start _ => False
  | .ready suggestion => state = .idle ∨ (∃ message, state = .failed message) ∨
      ∃ held, state = .ready held ∧ held.id ≠ suggestion.id
  | .fail _ => state = .idle ∨ ∃ message, state = .failed message
  | .reset => False

/-- The move that a request asks for is checked in vain exactly if the request is barred. -/
theorem check_target (state : State) (r : Request) :
    r.Barred state ∧ (∃ refusal, state.check r.target = .error refusal) ∨
      ¬r.Barred state ∧ state.check r.target = .ok () := by
  cases r with
  | start action => exact .inr ⟨id, by cases state <;> rfl⟩
  | reset => exact .inr ⟨id, by cases state <;> rfl⟩
  | fail message =>
      cases state with
      | idle => exact .inl ⟨.inl rfl, _, rfl⟩
      | failed held => exact .inl ⟨.inr ⟨held, rfl⟩, _, rfl⟩
      | _ => exact .inr ⟨by simp [Request.Barred], rfl⟩
  | ready suggestion =>
      cases state with
      | idle => exact .inl ⟨.inl rfl, _, rfl⟩
      | loading action => exact .inr ⟨by simp [Request.Barred], rfl⟩
      | failed held => exact .inl ⟨.inr (.inl ⟨held, rfl⟩), _, rfl⟩
      | ready held =>
          -- Both are ready, so that it depends on the ids.
          by_cases same : held.id = suggestion.id
          · right
            simp [Request.Barred, Request.target, State.check, State.mayPrecede,
              State.sameSuggestion, same]
          · left
            simp [Request.Barred, Request.target, State.check, State.mayPrecede,
              State.sameSuggestion, same]

theorem State.Refusal.error_eq (refusal : State.Refusal) :
    ∃ message, refusal.error = .invalidTransition message := by
  cases refusal with
  | notPermitted previous next => exact ⟨_, rfl⟩
  | otherSuggestion => exact ⟨_, rfl⟩

/-- A slot has told of every move that its lifecycle has made, and of nothing else. -/
def Slot.Chained (t : Slot) : Prop :=
  ∃ changes, t.told = changes.map (fun c => Event.stateChanged c.1 c.2) ∧
    State.Leads .idle changes t.lifecycle.state ∧ t.lifecycle.transitions = changes.length

/-- What a call can do: it is refused and leaves the slot alone, or it resets what is idle
    already, or it makes its move. -/
inductive Slot.Serves (t : Slot) (r : Request) : Except Fault Unit × Slot → Prop
  | refused (message : String) (barred : r.Barred t.lifecycle.state) :
      t.Serves r (.error (.engine (.invalidTransition message)), t)
  | silent (reset : r = .reset) (idle : t.lifecycle.state = .idle) : t.Serves r (.ok (), t)
  | moved (free : ¬r.Barred t.lifecycle.state) (loud : ¬(r = .reset ∧ t.lifecycle.state = .idle)) :
      t.Serves r (.ok (), ⟨t.lifecycle.move r.target,
        t.told ++ [.stateChanged t.lifecycle.state r.target]⟩)

theorem isIdle_iff (state : State) : state.isIdle = true ↔ state = .idle := by
  cases state <;> simp [State.isIdle]

theorem Request.serves (r : Request) (t : Slot) : t.Serves r (r.call.run t) := by
  rw [run_call]
  unfold answer enter
  by_cases quiet : r = .reset ∧ t.lifecycle.state = .idle
  · obtain ⟨rfl, idle⟩ := quiet
    have isIdle := (isIdle_iff _).2 idle
    simp only [isIdle, and_self, if_true, List.append_nil]
    exact .silent rfl idle
  · have loud : ¬(r = .reset ∧ t.lifecycle.state.isIdle = true) := by rwa [isIdle_iff]
    rw [if_neg loud]
    rcases check_target t.lifecycle.state r with ⟨barred, refusal, checked⟩ | ⟨free, checked⟩
    · obtain ⟨message, same⟩ := refusal.error_eq
      simp only [checked]
      change t.Serves r (.error (.engine refusal.error), t)
      rw [same]
      exact .refused message barred
    · simp only [checked]
      exact .moved free quiet

/-- One call keeps the chain. -/
theorem Slot.Chained.call {t : Slot} (chained : t.Chained) (r : Request) :
    Slot.Chained (r.call.run t).2 := by
  have serves := r.serves t
  generalize r.call.run t = result at serves
  cases serves with
  | refused message barred => exact chained
  | silent reset idle => exact chained
  | moved free loud =>
      obtain ⟨changes, told, leads, counted⟩ := chained
      have permitted : t.lifecycle.state.check r.target = .ok () := by
        rcases check_target t.lifecycle.state r with ⟨barred, -⟩ | ⟨-, checked⟩
        · exact absurd barred free
        · exact checked
      refine ⟨changes ++ [(t.lifecycle.state, r.target)], ?_, ?_, ?_⟩
      · simp [told]
      · exact leads.append ⟨rfl, State.permits_of_check permitted, rfl⟩
      · simp [move, counted]

theorem Slot.Chained.serve {t : Slot} (chained : t.Chained) (requests : List Request) :
    (t.serve requests).Chained := by
  induction requests generalizing t with
  | nil => exact chained
  | cons r requests ih => exact ih (chained.call r)

/-- After any calls, refused ones among them, the events told are the changes of a chain that
    leads from the idle state to the present one, one for each move counted. The next call
    fails, with an invalid transition and without any effect, exactly if its request is barred;
    it has no effect either if it resets what is idle, and else it makes its move and tells it. -/
theorem calls_form_chain (requests : List Request) :
    let t := Slot.serve {} requests
    (∃ changes, t.told = changes.map (fun c => Event.stateChanged c.1 c.2) ∧
        State.Leads .idle changes t.lifecycle.state ∧ t.lifecycle.transitions = changes.length) ∧
      ∀ r : Request,
        (r.Barred t.lifecycle.state ∧ ∃ message,
            r.call.run t = (.error (.engine (.invalidTransition message)), t)) ∨
          (¬r.Barred t.lifecycle.state ∧ r = .reset ∧ t.lifecycle.state = .idle ∧
            r.call.run t = (.ok (), t)) ∨
          (¬r.Barred t.lifecycle.state ∧ ¬(r = .reset ∧ t.lifecycle.state = .idle) ∧
            r.call.run t = (.ok (), ⟨t.lifecycle.move r.target,
              t.told ++ [.stateChanged t.lifecycle.state r.target]⟩)) := by
  intro t
  have start : Slot.Chained {} := ⟨[], rfl, rfl, rfl⟩
  refine ⟨start.serve requests, ?_⟩
  intro r
  have serves := r.serves t
  generalize r.call.run t = result at serves
  cases serves with
  | refused message barred => exact .inl ⟨barred, message, rfl⟩
  | silent reset idle =>
      refine .inr (.inl ⟨?_, reset, idle, rfl⟩)
      rw [reset]
      exact id
  | moved free loud => exact .inr (.inr ⟨free, loud, rfl⟩)

end Lifecycle

end ActionEngine
