import ActionEngine.Coordinator.Desk

/-!
# Observers with a plan

An observer may be given hooks: each waits for one kind of change and carries out one
control when it happens, a number of times. What such an observer does about an event
depends only on the events so far.
-/

namespace ActionEngine.Coordinator

/-- A control to be carried out on a kind of change, a number of times. -/
structure Hook where
  on : String
  control : Control
  times : Nat := 1
deriving DecidableEq, Repr

def changeWord : Event → String
  | .stateChanged _ current => current.word
  | .processingChanged true => "processing_true"
  | .processingChanged false => "processing_false"
  | .plain => ""
  | .actionsReloaded .. => ""

/-- What the hooks do about the last of the events so far: the first hook for its kind
    of change that is not used up is used once. -/
def Hook.react (hooks : List Hook) (events : List Event) : List Control :=
  match events.reverse with
  | [] => []
  | last :: earlier =>
    let word := changeWord last
    let planned := (hooks.filter fun h => h.on == word).flatMap fun h =>
      List.replicate h.times h.control
    (planned.drop (earlier.countP fun e => changeWord e == word)).take 1

end ActionEngine.Coordinator
