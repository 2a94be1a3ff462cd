import ActionEngine.Bus.Basic
import ActionEngine.Lifecycle.Machine

/-!
# The coordinator's desk

The coordinator runs one action at a time. Each invocation gets a run; starting
another one, cancelling, and resolving the suggestion retire the run, so that what
arrives for it later is dropped. The desk holds the run that is active, the flag that
says whether the engine is processing, and the lifecycle, of which the coordinator is
the only writer.

Events are published in the middle of these operations. An observer may answer an
event by resolving the suggestion or cancelling the run, before the operation that
published it goes on. Each such answer either publishes nothing, or takes away a run,
the flag or a suggestion, so answers to answers come to an end.
-/

namespace ActionEngine.Coordinator

/-- One invocation, and the task that began it. -/
structure Run where
  number : Nat
  action : String
  task : Nat
deriving DecidableEq, Repr

/-- The message for a run that was retired before it finished. -/
def Run.retiredMessage (run : Run) (cancelled : Bool) : String :=
  if cancelled then "Action '" ++ run.action ++ "' was cancelled."
  else "Action '" ++ run.action ++ "' was superseded by a newer request."

/-- What can be done with the suggestion on offer, or with the active run. -/
inductive Control where
  | accept
  | reject
  | clear
  | cancel
deriving DecidableEq, Repr

def Control.all : List Control := [accept, reject, clear, cancel]

def Control.name : Control → String
  | accept => "accept"
  | reject => "reject"
  | clear => "clear"
  | cancel => "cancel"

def Control.ofName? (s : String) : Option Control :=
  all.find? fun c => c.name == s

inductive Reply where
  | nothing
  | text (s : Option String)
  | flag (b : Bool)
deriving DecidableEq, Repr

/-- An observer's answer to an event. -/
structure Reaction where
  event : Event
  control : Control
  reply : Reply
deriving DecidableEq, Repr

/-- The desk. `current` is the task that is running, `stopping` lists the tasks that
    were asked to stop, and `events` the events published so far. -/
structure Desk where
  lifecycle : Lifecycle := .initial
  active : Option Run := none
  processing : Bool := false
  cancelled : List Nat := []
  nextRun : Nat := 1
  nextSuggestion : Nat := 1
  current : Option Nat := none
  events : List Event := []
  reactions : List Reaction := []
  stopping : List Nat := []
  log : Log := []
deriving DecidableEq, Repr

/-- What a citation manager did with a query: what it logged, whether it had to be
    waited for, and the fault it ended with. -/
structure Search where
  log : Log := []
  awaited : Bool := false
  fault : Option Fault := none
deriving DecidableEq, Repr

/-- How a stream of the provider answers when it is closed: it is closed at once, or fails,
    or has to be waited for. -/
inductive Closing where
  | quiet
  | raises (fault : Fault)
  | waits
deriving DecidableEq, Repr

/-- What the coordinator works with: the number of handlers for its events, how
    observers answer when they see the last of the events so far, the source of ids for
    suggestions, the budgets, the citation manager, and how the stream of each run answers
    when it is closed. -/
structure Setting where
  handlers : Nat := 1
  react : List Event → List Control := fun _ => []
  suggestionId : Nat → String := fun n => "suggestion-" ++ toString n
  minimumReply : Nat := 500
  streamBudget : Nat := 2000
  citations : Option (String → Search) := some fun _ => {}
  closing : Run → Closing := fun _ => .quiet

def logger : String := "inkwell.actions.coordinator"

namespace Desk

def remark (d : Desk) (level : Log.Level) (message : String) : Desk :=
  { d with log := d.log ++ [⟨level, logger, message⟩] }

def isCurrent (d : Desk) (run : Run) : Bool :=
  d.active = some run

def shownRun (d : Desk) (run : Run) : String :=
  "_Run(id=" ++ toString run.number ++ ", action=" ++ run.action.quotedText ++ ", cancelled=" ++
    (if d.cancelled.contains run.number then "True" else "False") ++ ")"

def retiredMessage (d : Desk) (run : Run) : String :=
  run.retiredMessage (d.cancelled.contains run.number)

/-! ### Operations, for any way of publishing -/

abbrev Publish := Desk → Event → Desk

/-- Set the flag; only a change is published. -/
def setProcessing (publish : Publish) (d : Desk) (on : Bool) : Desk :=
  if d.processing = on then d
  -- The flag is up or down already when the observers hear of it.
  else publish { d with processing := on } (.processingChanged on)

/-- Retire the active run, if there is one. -/
def retire (publish : Publish) (d : Desk) : Desk :=
  match d.active with
  | none => d
  | some _ => setProcessing publish { d with active := none } false

def enter (publish : Publish) (d : Desk) (next : Lifecycle.State) : Desk :=
  publish { d with lifecycle := d.lifecycle.move next } (.stateChanged d.lifecycle.state next)

def tryEnter (publish : Publish) (d : Desk) (next : Lifecycle.State) :
    Except Lifecycle.State.Refusal Desk := do
  let (lifecycle, event) ← d.lifecycle.enter next
  .ok (publish { d with lifecycle } event)

/-- Go back to the idle state; this is silent if it is idle already. -/
def reset (publish : Publish) (d : Desk) : Desk :=
  if d.lifecycle.state.isIdle then d else enter publish d .idle

def accept (publish : Publish) (d : Desk) : Desk × Option String :=
  match d.lifecycle.state.suggestion? with
  | none => (d, none)
  | some s =>
    -- The text is that of the suggestion on offer when the user accepted, whatever the
    -- observers of the reset do with the desk.
    ((reset publish (retire publish d)).remark .info
      ("Accepted suggestion from " ++ s.source.id), some s.text)

/-- Drop the suggestion on offer, and whatever is going on. -/
def dismiss (publish : Publish) (d : Desk) : Desk :=
  reset publish (retire publish d)

/-- Ask a task to stop, unless it is the one that is running. -/
def askToStop (d : Desk) (task : Nat) : Desk :=
  if d.current = some task then d else { d with stopping := d.stopping ++ [task] }

/-- Cancel the active run; the lifecycle stays as it is. -/
def cancel (publish : Publish) (d : Desk) : Desk × Bool :=
  match d.active with
  | none => (d.remark .debug "ExecutionCoordinator.cancel: no run in flight", false)
  | some run =>
    let d := d.remark .info ("Cancelling AI action: " ++ run.action)
    -- The run is marked first: what arrives for it from here on is told as cancelled.
    let d := retire publish { d with cancelled := d.cancelled ++ [run.number] }
    (d.askToStop run.task, true)

def control (publish : Publish) (d : Desk) : Control → Desk × Reply
  | .accept => let (d, text) := d.accept publish; (d, .text text)
  | .reject => (d.dismiss publish, .nothing)
  | .clear => (d.dismiss publish, .nothing)
  | .cancel => let (d, done) := d.cancel publish; (d, .flag done)

/-- Finish a run: the flag goes down if the run was still the active one. -/
def finish (publish : Publish) (d : Desk) (run : Run) : Desk :=
  if d.isCurrent run then setProcessing publish { d with active := none } false else d

/-- Begin a run for an action, in place of the run that is active. -/
def begin (publish : Publish) (d : Desk) (action : Action) (task : Nat) : Desk × Run :=
  let run : Run := ⟨d.nextRun, action.id, task⟩
  let d' := { d with nextRun := d.nextRun + 1, active := some run }
  let d' := match d.active with
    | none => d'
    | some previous => d'.remark .debug
        ("Run " ++ d.shownRun previous ++ " superseded by " ++ d.shownRun run)
  -- The number and the active run are set before anything is published, so an observer
  -- of the first event can already cancel the new run.
  (setProcessing publish (enter publish d' (.loading action)) true, run)

/-- The error that a fault of the provider is raised as, and its cause if that is another
    one. An error of the engine is raised as it is. -/
def failure : Fault → EngineError × Option Fault
  | .engine e => (e, none)
  | other => (.provider other.summary, some other)

/-- Show the failure of a run and finish it. Returns the error to raise and the fault
    that caused it. A run that was retired shows nothing. -/
def recordFailure (publish : Publish) (d : Desk) (run : Run) (fault : Fault) :
    Desk × Fault × Option Fault :=
  if d.isCurrent run then
    let (error, cause) := failure fault
    let d := d.remark .warning ("AI action " ++ run.action ++ " failed: " ++ error.text)
    -- An observer may retire the run on hearing of its failure; `finish` then leaves the
    -- flag to whoever retired it.
    match d.tryEnter publish (.failed error.message) with
    | .ok d => (d.finish publish run, .engine error, cause)
    | .error refusal => (d, .engine refusal.error, none)
  else
    let d := d.remark .debug
      ("Ignoring failure from retired run " ++ d.shownRun run ++ ": " ++ fault.text)
    (d, .engine (.superseded (d.retiredMessage run)), some fault)

def newSuggestion (s : Setting) (d : Desk) : Desk × String :=
  ({ d with nextSuggestion := d.nextSuggestion + 1 }, s.suggestionId d.nextSuggestion)

/-! ### Publishing -/

/-- Note an event, with its line in the log. -/
def record (handlers : Nat) (d : Desk) (event : Event) : Desk :=
  { d with events := d.events ++ [event], log := d.log ++ Bus.publishRemark event.kind handlers }

def answer (publish : Publish) (event : Event) (d : Desk) (c : Control) : Desk :=
  let (d, reply) := d.control publish c
  { d with reactions := d.reactions ++ [⟨event, c, reply⟩] }

/-- Publish an event and let the observers answer it, to a depth of nested answers. -/
def publishWithin (s : Setting) : Nat → Publish
  | 0, d, event => d.record s.handlers event
  | depth + 1, d, event =>
    let d := d.record s.handlers event
    -- The observers see all events so far, so their answers may depend on the history.
    (s.react d.events).foldl (answer (publishWithin s depth) event) d

/-- How much the observers can still take away: the run, the flag and the suggestion. -/
def pending (d : Desk) : Nat :=
  (if d.active.isSome then 1 else 0) + (if d.processing then 1 else 0) +
    (if d.lifecycle.state.isIdle then 0 else 1)

end Desk

/-- Publish an event. Without handlers nobody sees it. -/
def Setting.tell (s : Setting) : Desk.Publish := fun d event =>
  if s.handlers == 0 then d else d.publishWithin s (d.pending + 1) event

/-- A token budget that a value gives; it is never less than one. -/
def Setting.budget (v : Value) : Except Fault Nat :=
  v.toInt.map fun n => max 1 n.toNat

/-- The token budget of a reply: twice the selection, but not less than the minimum. -/
def Setting.replyBudget (s : Setting) (selection : String) : Nat :=
  max (2 * selection.length) s.minimumReply

end ActionEngine.Coordinator
