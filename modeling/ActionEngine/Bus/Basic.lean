import ActionEngine.Event
import ActionEngine.Log

/-!
# The event bus

Observers register a handler for one kind of event. A handler is a function, or a
method of a listener. The bus does not keep a listener alive: a registration whose
listener is gone is dead, and publishing removes it. Some listeners cannot be held
that loosely; their methods are kept like functions.
-/

namespace ActionEngine.Bus

/-- What a registration calls. Two handlers are equal if they are the same function, or
    the same method of the same object. -/
inductive Target where
  | function (name : String)
  | method (object : Nat) (listener name : String) (weak : Bool)
deriving DecidableEq, Repr

namespace Target

def weakObject? : Target → Option Nat
  | method object _ _ true => some object
  | _ => none

def object? : Target → Option Nat
  | method object .. => some object
  | function _ => none

def label : Target → String
  | function name => name
  | method _ listener name _ => listener ++ "." ++ name

/-- The name of a handler in the log. -/
def logName : Target → String
  | function name => name
  | method _ _ name _ => "Listener." ++ name

end Target

/-- A registration of a handler. Its number tells it from all others. -/
structure Registration where
  number : Nat
  kind : Event.Kind
  target : Target
deriving DecidableEq, Repr

/-- The registrations in the order in which they were made. -/
structure Registrations where
  entries : List Registration := []
  next : Nat := 0
deriving DecidableEq, Repr

namespace Registrations

def ofKind (rs : Registrations) (kind : Event.Kind) : List Registration :=
  rs.entries.filter fun r => r.kind = kind

def count (rs : Registrations) (kind : Event.Kind) : Nat :=
  (rs.ofKind kind).length

def total (rs : Registrations) : Nat :=
  rs.entries.length

def add (rs : Registrations) (kind : Event.Kind) (target : Target) : Registrations :=
  { entries := rs.entries ++ [⟨rs.next, kind, target⟩], next := rs.next + 1 }

/-- Remove the first registration of an equal handler that is alive. -/
def remove (alive : Target → Bool) (rs : Registrations) (kind : Event.Kind) (target : Target) :
    Registrations :=
  { rs with entries := rs.entries.eraseP fun r =>
      r.kind = kind ∧ r.target = target ∧ alive r.target }

/-- Remove registrations by their numbers. -/
def prune (rs : Registrations) (numbers : List Nat) : Registrations :=
  { rs with entries := rs.entries.filter fun r => !numbers.contains r.number }

def clear (rs : Registrations) : Registrations :=
  { rs with entries := [] }

end Registrations

/-! ### Remarks -/

def logger : String := "inkwell.events"

def subscribeRemark (handler : String) (kind : Event.Kind) : Log :=
  Log.one .debug logger ("Subscribed handler " ++ handler ++ " to event type " ++ kind.name)

/-- The remark on publishing to a number of handlers; there is none without handlers. -/
def publishRemark (kind : Event.Kind) (handlers : Nat) : Log :=
  if kind.isLogged && handlers != 0 then
    Log.one .debug logger
      ("Publishing " ++ kind.name ++ " to " ++ toString handlers ++ " handler(s)")
  else []

def failureRemark (handler : String) (kind : Event.Kind) : Log :=
  Log.one .error logger ("Handler " ++ handler ++ " raised exception for event " ++ kind.name)

end ActionEngine.Bus
