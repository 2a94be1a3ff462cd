import ActionEngine.Action.Suggestion

/-!
# States of the suggestion on offer

At every moment nothing is pending, an action is loading, a suggestion is ready, or
the last request failed. Not every state may follow every other one.
-/

namespace ActionEngine.Lifecycle

inductive State where
  | idle
  | loading (action : Action)
  | ready (suggestion : Suggestion)
  | failed (message : String)
deriving DecidableEq, Repr

namespace State

def name : State → String
  | idle => "Idle"
  | loading _ => "Loading"
  | ready _ => "Ready"
  | failed _ => "Error"

def word : State → String
  | idle => "idle"
  | loading _ => "loading"
  | ready _ => "ready"
  | failed _ => "error"

def suggestion? : State → Option Suggestion
  | ready s => some s
  | _ => none

def isIdle : State → Bool
  | idle => true
  | _ => false

/-- A state of the second kind may follow one of the first. Loading may always start
    and idleness always return; a suggestion gets ready, or a request fails, only from
    a request that is loading or has shown a suggestion already. -/
def mayPrecede : State → State → Bool
  | _, idle => true
  | _, loading _ => true
  | loading _, ready _ => true
  | loading _, failed _ => true
  | ready _, ready _ => true
  | ready _, failed _ => true
  | idle, _ => false
  | failed _, _ => false

/-- A ready suggestion may only grow, it cannot be replaced by another one. -/
def sameSuggestion : State → State → Bool
  | ready s, ready t => s.id == t.id
  | _, _ => true

/-- Why a state may not follow another one. -/
inductive Refusal where
  | notPermitted (previous next : State)
  | otherSuggestion
deriving DecidableEq, Repr

def Refusal.error : Refusal → EngineError
  | notPermitted previous next =>
    .invalidTransition ("Cannot move from " ++ previous.name ++ " to " ++ next.name)
  | otherSuggestion =>
    .invalidTransition "Ready can only be re-entered by the suggestion it already holds"

def check (previous next : State) : Except Refusal Unit :=
  if !mayPrecede previous next then .error (.notPermitted previous next)
  else if !sameSuggestion previous next then .error .otherSuggestion
  else .ok ()

end State

end ActionEngine.Lifecycle
