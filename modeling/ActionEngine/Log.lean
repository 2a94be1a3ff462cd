/-!
# Log records

A function that has something to report returns log records beside its result, in
the order in which they arise. A record names the part of the engine that it comes
from.
-/

namespace ActionEngine

/-- How serious a log record is. -/
inductive Log.Level where
  | debug
  | info
  | warning
  | error
deriving DecidableEq, Repr

/-- One line of the log. -/
structure Log.Record where
  level : Log.Level
  logger : String
  message : String
deriving DecidableEq, Repr

/-- Log records in the order in which they arose. -/
abbrev Log := List Log.Record

namespace Log

namespace Level

def number : Level → Nat
  | debug => 10
  | info => 20
  | warning => 30
  | error => 40

def name : Level → String
  | debug => "DEBUG"
  | info => "INFO"
  | warning => "WARNING"
  | error => "ERROR"

end Level

def one (level : Level) (logger message : String) : Log := [⟨level, logger, message⟩]

def atLeast (level : Level) (log : Log) : Log :=
  log.filter fun r => level.number ≤ r.level.number

end Log

end ActionEngine
