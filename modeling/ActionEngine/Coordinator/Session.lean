import ActionEngine.Coordinator.Floor

/-!
# Sessions

A session plays the outside world of the coordinator: tasks that start invocations
and ask their streams for more, and a provider that answers from one queue for each
name. A task that waits goes on as soon as its queue holds something. After every
command the session runs until each task has ended or waits.
-/

namespace ActionEngine.Coordinator

/-- What a provider's queue can hold. -/
inductive Item where
  | text (s : String)
  | ending
  | fault (f : Fault)
deriving Repr

def Item.move (place : Nat) : Item → Move
  | text s => .text place s
  | ending => .ending place
  | fault f => .fail place f

/-- How a provider takes requests. -/
inductive Supply where
  /-- Requests are answered from the queues. -/
  | queued
  /-- Streams are refused when they are opened. -/
  | refusingStreams (fault : Fault)
  /-- No provider is configured: every request fails. -/
  | missing
deriving Repr

/-- What a task does with its invocation. -/
inductive Errand where
  /-- It waits for the single result. -/
  | single
  /-- It asks for one snapshot. -/
  | next
  /-- It asks for snapshots until there are no more, and carries out a control after
      each of the first ones. -/
  | consume (during : List (Option Control))
  /-- It closes the iterator. -/
  | close
deriving Repr

/-- A task on behalf of a name. -/
structure Task where
  name : String
  place : Nat
  errand : Errand
  waiting : Bool
deriving Repr

/-- What a session reports, beside the requests that it saw. -/
inductive Outcome where
  | shown (name : String) (output : Output)
  | exhausted (name : String)
  | during (name : String) (control : Control) (reply : Reply)
  | reacted (reaction : Reaction)
deriving Repr

inductive Command where
  | execute (name : String) (i : Invocation)
  | stream (name : String) (i : Invocation)
  | next (name : String)
  | consume (name : String) (during : List (Option Control))
  | close (name : String)
  | put (name : String) (item : Item)
  | cancelTask (name : String)
  | control (c : Control)
deriving Repr

/-- A session: the floor, the provider's queues, the places of the named invocations,
    the tasks in the order in which they were made, and what the current command has
    led to so far. -/
structure Session where
  setting : Setting
  supply : Supply := .queued
  floor : Floor := {}
  places : List (String × Nat) := []
  queues : List (String × Item) := []
  tasks : List Task := []
  calls : List (String × Output) := []
  outcomes : List Outcome := []

namespace Session

/-- The outputs that are requests to the provider or the citation manager. -/
def isCall : Output → Bool
  | .complete .. => true
  | .stream .. => true
  | .streamOver => true
  | .citation _ => true
  | .citationAwaited => true
  | _ => false

/-- A call that the provider sees: if there is none, its requests are not seen. -/
def isSeen (supply : Supply) (output : Output) : Bool :=
  match supply, output with
  | .missing, .complete .. => false
  | .missing, .stream .. => false
  | .missing, .streamOver => false
  | _, _ => true

/-- Carry out a move for a name: what observers did comes before what the move itself
    shows. -/
def move (s : Session) (name : String) (m : Move) : Session × List Output :=
  let (floor, outputs) := s.floor.step s.setting m
  let reactions := floor.desk.reactions.map Outcome.reacted
  let calls := (outputs.filter fun o => isCall o && isSeen s.supply o).map fun o => (name, o)
  ({ s with floor := { floor with desk := { floor.desk with reactions := [] } }
            calls := s.calls ++ calls, outcomes := s.outcomes ++ reactions },
   outputs.filter fun o => !isCall o)

def report (s : Session) (o : Outcome) : Session :=
  { s with outcomes := s.outcomes ++ [o] }

def setTask (s : Session) (task : Nat) (t : Task) : Session :=
  { s with tasks := s.tasks.set task t }

/-- The citation manager of a session is done at once. -/
def finishSearch (s : Session) (name : String) (place : Nat) (outputs : List Output) :
    Session × List Output :=
  match s.floor.stages[place]? with
  | some (.waitingCitation ..) => s.move name (.searched place)
  | _ => (s, outputs)

/-- A task asks its stream for more. A provider that does not take the request refuses
    it at once. -/
def pull (s : Session) (task : Nat) (t : Task) : Session × List Output :=
  let (s, outputs) := s.move t.name (.pull t.place task)
  let (s, outputs) := s.finishSearch t.name t.place outputs
  -- With such a provider no stream gets beyond its opening, so if nothing was shown, it
  -- has just been opened.
  match s.supply, s.floor.stages[t.place]?, outputs with
  | .refusingStreams fault, some (.waitingChunk ..), [] => s.move t.name (.refuse t.place fault)
  | .missing, some (.waitingChunk ..), [] =>
    s.move t.name (.fail t.place (.engine .providerUnavailable))
  | _, _, _ => (s, outputs)

/-- A task ends with what it was shown, if anything; otherwise it waits. -/
def conclude (s : Session) (task : Nat) (t : Task) (outputs : List Output) : Session :=
  match outputs with
  | [] => s
  | output :: _ =>
    let outcome : Outcome := match t.errand, output with
      | .consume _, .stopped => .exhausted t.name
      | _, output => .shown t.name output
    (s.report outcome).setTask task { t with waiting := false }

/-- Carry out the control that a consuming task has planned for its next snapshot. -/
def intervene (s : Session) (task : Nat) (t : Task) : Option Control → Session
  | none => s
  | some c =>
    let (s, outputs) := s.move t.name (.control c (some task))
    match outputs with
    | .replied reply :: _ => s.report (.during t.name c reply)
    | _ => s

/-- A task goes on with what it was shown. After a snapshot a consuming task asks for
    more, and is shown at most that there is none. -/
def advance (s : Session) (task : Nat) (t : Task) (outputs : List Output) : Session :=
  match t.errand, outputs with
  | .consume during, .yielded snapshot :: _ =>
    let s := s.report (.shown t.name (.yielded snapshot))
    let s := s.intervene task t (during.headD none)
    let t := { t with errand := .consume during.tail }
    let (s, more) := (s.setTask task t).pull task t
    s.conclude task t more
  | _, outputs => s.conclude task t outputs

def addTask (s : Session) (t : Task) : Session × Nat :=
  ({ s with tasks := s.tasks ++ [t] }, s.tasks.length)

/-- The first task that waits and whose queue holds something, with what it holds. -/
def ready? (s : Session) : Option (Nat × Task × Item) :=
  (s.tasks.zipIdx.filterMap fun (t, task) =>
    if t.waiting then (s.queues.lookup t.name).map fun item => (task, t, item) else none).head?

/-- Bring queued items to the tasks that wait for them; each round uses up one item. -/
def settle : Nat → Session → Session
  | 0, s => s
  | rounds + 1, s =>
    match s.ready? with
    | none => s
    | some (task, t, item) =>
      -- The item is used up even if the stage has no use for it.
      let s := { s with queues := s.queues.eraseP fun q => q.1 == t.name }
      let (s, outputs) := s.move t.name (item.move t.place)
      settle rounds (s.advance task t outputs)

def interrupt (s : Session) (task : Nat) : Session :=
  match s.tasks[task]? with
  | some t =>
    if t.waiting then
      let (s, outputs) := s.move t.name (.interrupt t.place)
      s.advance task t outputs
    else s
  | none => s

def interruptAsked (s : Session) : Session :=
  let asked := s.floor.desk.stopping
  -- The list is emptied first: what the tasks do may ask others to stop.
  let s := { s with floor := { s.floor with desk := { s.floor.desk with stopping := [] } } }
  asked.foldl interrupt s

/-- Run until every task has ended or waits. -/
def rest (s : Session) : Session :=
  let s := s.interruptAsked
  s.settle s.queues.length

def alreadyRunning (request : String) : Output :=
  .raised (.system .runtime (some (request ++ ": asynchronous generator is already running"))) none

def isRunning (s : Session) (place : Nat) : Bool :=
  match s.floor.stages[place]? with
  | some (.waitingChunk ..) => true
  | some (.waitingClose ..) => true
  | _ => false

/-- Start a task on the named invocation. -/
def start (s : Session) (name : String) (errand : Errand) : Session :=
  match s.places.lookup name with
  | none => s
  | some place =>
    let t : Task := ⟨name, place, errand, true⟩
    let running := s.isRunning place
    let (s, task) := s.addTask t
    match errand with
    | .close =>
      if running then s.advance task t [alreadyRunning "aclose()"]
      else
        let (s, outputs) := s.move name (.close place task)
        s.advance task t outputs
    | _ =>
      if running then s.advance task t [alreadyRunning "anext()"]
      else
        let (s, outputs) := s.pull task t
        s.advance task t outputs

/-- The place of a new invocation gets its name. -/
def name (s : Session) (name : String) : Session :=
  { s with places := (name, s.floor.stages.length) :: s.places }

def execute (s : Session) (name : String) (i : Invocation) : Session :=
  let place := s.floor.stages.length
  let t : Task := ⟨name, place, .single, true⟩
  let (s, task) := (s.name name).addTask t
  let (s, outputs) := s.move name (.execute i task)
  let (s, outputs) := s.finishSearch name place outputs
  match s.supply, s.floor.stages[place]? with
  | .missing, some (.waitingReply ..) =>
    let (s, outputs) := s.move name (.fail place (.engine .providerUnavailable))
    s.advance task t outputs
  | _, _ => s.advance task t outputs

def latestTask? (s : Session) (name : String) : Option (Nat × Task) :=
  (s.tasks.zipIdx.filterMap fun (t, task) =>
    if t.name == name then some (task, t) else none).getLast?

/-- Carry out a command and run until every task has ended or waits. -/
def run (s : Session) (command : Command) : Session × Reply :=
  let s := { s with calls := [], outcomes := [] }
  match command with
  | .execute name i => ((s.execute name i).rest, .nothing)
  | .stream name i => (((s.name name).move name (.stream i)).1, .nothing)
  | .next name => ((s.start name .next).rest, .nothing)
  | .consume name during => ((s.start name (.consume during)).rest, .nothing)
  | .close name => ((s.start name .close).rest, .nothing)
  | .put name item => ({ s with queues := s.queues ++ [(name, item)] }.rest, .nothing)
  | .cancelTask name =>
    match s.latestTask? name with
    | none => (s, .flag false)
    | some (task, t) => ((s.interrupt task).rest, .flag t.waiting)
  | .control c =>
    let (s, outputs) := s.move "" (.control c none)
    (s.rest, match outputs with
      | .replied reply :: _ => reply
      | _ => .nothing)

end Session

end ActionEngine.Coordinator
