import ActionEngine.Bus.Basic

/-!
# Publishing

Handlers act while they are called: they register, unregister, publish and drop
listeners, or fail. What a handler does is given by scripts, one for each of its
calls in turn; a handler without a script left does nothing. A publish calls the
registrations that there were when it began, in their order, and keeps the handler
it is calling alive until it turns to the next one.
-/

namespace ActionEngine.Bus

/-- A handler as its registrant names it. -/
inductive Handler where
  | function (name : String)
  | method (listener name : String)
deriving DecidableEq, Repr

def Handler.label : Handler → String
  | function name => name
  | method listener name => listener ++ "." ++ name

/-- What can be asked of a bus and of the listeners around it. -/
inductive Command where
  | subscribe (kind : Event.Kind) (handler : Handler)
  | unsubscribe (kind : Event.Kind) (handler : Handler)
  | publish (event : Event)
  | clear
  | drop (listener : String)
  | fail
deriving DecidableEq, Repr

/-- What the calls of a handler do, in turn. -/
structure Script where
  handler : String
  calls : List (List Command)
deriving DecidableEq, Repr

/-- A bus with the listeners and scripts around it. The listeners in `held` are kept
    alive by a publish that is calling them; `calls` lists the calls that were made. -/
structure World where
  registrations : Registrations := {}
  listeners : List (String × Nat) := []
  nextObject : Nat := 0
  held : List Nat := []
  scripts : List Script := []
  calls : List (String × Event) := []
  log : Log := []
deriving DecidableEq, Repr

namespace World

def isAlive (w : World) (object : Nat) : Bool :=
  w.listeners.any (fun l => l.2 == object) || w.held.contains object

def canCall (w : World) (target : Target) : Bool :=
  match target.weakObject? with
  | some object => w.isAlive object
  | none => true

/-- Listeners of this name cannot be held weakly. -/
def isHeldStrongly (listener : String) : Bool :=
  listener.toList.head? == some 'S'

/-- The handler of a name; a listener that there is not yet comes into being. -/
def resolve (w : World) : Handler → World × Target
  | .function name => (w, .function name)
  | .method listener name =>
    match w.listeners.lookup listener with
    | some object => (w, .method object listener name (!isHeldStrongly listener))
    -- Registering is how a listener is first heard of.
    | none =>
      ({ w with listeners := w.listeners ++ [(listener, w.nextObject)]
                nextObject := w.nextObject + 1 },
       .method w.nextObject listener name (!isHeldStrongly listener))

def subscribe (w : World) (kind : Event.Kind) (handler : Handler) : World :=
  let (w, target) := w.resolve handler
  { w with registrations := w.registrations.add kind target
           log := w.log ++ subscribeRemark target.logName kind }

def unsubscribe (w : World) (kind : Event.Kind) (handler : Handler) : World :=
  let (w, target) := w.resolve handler
  { w with registrations := w.registrations.remove w.canCall kind target }

def drop (w : World) (listener : String) : World :=
  { w with listeners := w.listeners.filter fun l => l.1 != listener }

/-- Hold one listener and let another one go. -/
def rehold (w : World) (previous next : Option Nat) : World :=
  { w with held := (next.toList ++ w.held).eraseP fun object => previous = some object }

/-- Take the next script of a handler. -/
def takeScript (w : World) (handler : String) : List Command × World :=
  match w.scripts.find? fun s => s.handler == handler && !s.calls.isEmpty with
  | none => ([], w)
  | some s =>
    (s.calls.headD [], { w with scripts := w.scripts.map fun t =>
      if t.handler == handler then { t with calls := t.calls.tail } else t })

/-- A call of a handler: it takes the world on, and may fail. -/
abbrev Call := World → Target → Event → World × Bool

/-- Call registrations in turn. The handler called last is held until the next one has
    been looked up. Returns the numbers of the registrations that were dead. -/
def deliver (call : Call) (event : Event) :
    List Registration → Option Nat → World → World × List Nat
  | [], previous, w => (w.rehold previous none, [])
  | r :: rest, previous, w =>
    if w.canCall r.target then
      -- The next listener is held before the previous one is let go, so a listener that is
      -- called twice in a row stays alive even if its first call drops it.
      let next := r.target.object?
      let (w, failed) := call (w.rehold previous next) r.target event
      let w := if failed then { w with log := w.log ++ failureRemark r.target.logName event.kind }
        else w
      deliver call event rest next w
    else
      let (w, dead) := deliver call event rest none (w.rehold previous none)
      (w, r.number :: dead)

/-- Publish an event, and remove the registrations that were found dead. -/
def publish (call : Call) (w : World) (event : Event) : World :=
  let rs := w.registrations.ofKind event.kind
  let w := { w with log := w.log ++ publishRemark event.kind rs.length }
  let (w, dead) := deliver call event rs none w
  { w with registrations := w.registrations.prune dead }

/-- Carry out commands in turn; a failure ends them. -/
def perform (call : Call) : List Command → World → World × Bool
  | [], w => (w, false)
  | .fail :: _, w => (w, true)
  | .subscribe kind handler :: rest, w => perform call rest (w.subscribe kind handler)
  | .unsubscribe kind handler :: rest, w => perform call rest (w.unsubscribe kind handler)
  | .publish event :: rest, w => perform call rest (w.publish call event)
  | .clear :: rest, w =>
    perform call rest { w with registrations := w.registrations.clear }
  | .drop listener :: rest, w => perform call rest (w.drop listener)

/-- Call a handler: the call is noted, and its script carried out. The depth bounds the
    nesting of calls. -/
def callWithin : Nat → Call
  -- Never reached in `run`: there is one more level than there are scripted calls.
  | 0, w, target, event => ({ w with calls := w.calls ++ [(target.label, event)] }, false)
  | depth + 1, w, target, event =>
    let w := { w with calls := w.calls ++ [(target.label, event)] }
    let (commands, w) := w.takeScript target.label
    perform (callWithin depth) commands w

/-- The number of scripted calls that are left. Every nested call uses one up, so it
    bounds the depth of nesting. -/
def scripted (w : World) : Nat :=
  w.scripts.foldl (fun n s => n + s.calls.length) 0

def run (w : World) (command : Command) : World :=
  (perform (callWithin (w.scripted + 1)) [command] w).1

end World

end ActionEngine.Bus
