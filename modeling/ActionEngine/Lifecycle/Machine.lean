import ActionEngine.Event

/-!
# The suggestion lifecycle

One slot for the state of the suggestion on offer, and a count of the moves that it
made. An accepted move is told as one event; a refused one changes nothing.
-/

namespace ActionEngine

/-- The state of the suggestion on offer, and how many moves led to it. -/
structure Lifecycle where
  state : Lifecycle.State := .idle
  transitions : Nat := 0
deriving DecidableEq, Repr

namespace Lifecycle

def initial : Lifecycle := {}

def move (l : Lifecycle) (next : State) : Lifecycle :=
  { state := next, transitions := l.transitions + 1 }

/-- Move on to a state if that is permitted, and tell it. -/
def enter (l : Lifecycle) (next : State) : Except State.Refusal (Lifecycle × Event) := do
  l.state.check next
  .ok (l.move next, .stateChanged l.state next)

inductive Request where
  | start (action : Action)
  | ready (suggestion : Suggestion)
  | fail (message : String)
  | reset
deriving DecidableEq, Repr

def Request.target : Request → State
  | start action => .loading action
  | ready suggestion => .ready suggestion
  | fail message => .failed message
  | reset => .idle

/-- Answer a request. A reset of an idle lifecycle is silent. -/
def answer (l : Lifecycle) (r : Request) : Except State.Refusal (Lifecycle × List Event) :=
  if r = .reset ∧ l.state.isIdle then .ok (l, [])
  else (l.enter r.target).map fun p => (p.1, [p.2])

end Lifecycle

end ActionEngine
