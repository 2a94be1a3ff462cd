import ActionEngine.Lifecycle.State

/-!
# Events

What the engine tells its observers. Observers subscribe to one kind of event.
-/

namespace ActionEngine

inductive Event.Kind where
  | plain
  | stateChanged
  | processingChanged
  | actionsReloaded
deriving DecidableEq, Repr

inductive Event where
  /-- An event without content. -/
  | plain
  /-- The state of the suggestion on offer changed. -/
  | stateChanged (previous current : Lifecycle.State)
  /-- The engine started or stopped processing an action. -/
  | processingChanged (processing : Bool)
  /-- The registry published a new snapshot. -/
  | actionsReloaded (total custom : Nat)
deriving DecidableEq, Repr

namespace Event

def kind : Event → Kind
  | plain => .plain
  | stateChanged .. => .stateChanged
  | processingChanged _ => .processingChanged
  | actionsReloaded .. => .actionsReloaded

namespace Kind

def name : Kind → String
  | plain => "Event"
  | stateChanged => "SuggestionStateChanged"
  | processingChanged => "ProcessingChanged"
  | actionsReloaded => "ActionsReloaded"

def all : List Kind := [.plain, .stateChanged, .processingChanged, .actionsReloaded]

def ofName? (s : String) : Option Kind :=
  all.find? fun k => k.name == s

/-- Publishing is logged, but not for state changes: a stream makes one for each
    chunk. -/
def isLogged : Kind → Bool
  | stateChanged => false
  | _ => true

end Kind

end Event

end ActionEngine
