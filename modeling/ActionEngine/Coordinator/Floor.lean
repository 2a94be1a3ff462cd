import ActionEngine.Action.Template
import ActionEngine.Coordinator.Desk

/-!
# Invocations in flight

Any number of invocations share the desk. Each of them runs in segments: it waits for
a reply, for a chunk, or for its consumer to ask for more, and goes on when that
arrives. Every segment is one function of the desk. The outside world decides which
invocation goes on next and with what; an interleaving is a list of such moves.
-/

namespace ActionEngine.Coordinator

/-- What a run is asked to do. The range is given as any value. -/
structure Invocation where
  action : Action
  selection : String
  target : Value := .null
  context : Option DocumentContext := none
deriving Repr

/-- The prompt of an invocation. The selection that it was given is the one that
    counts. -/
def Invocation.prompt (i : Invocation) : String :=
  Template.resolve i.action.prompt { i.context.getD {} with selection := some i.selection }

/-- What an invocation does that others can see. -/
inductive Output where
  /-- A reply is requested from the provider. -/
  | complete (system user : String) (budget : Nat)
  /-- A stream is requested from the provider. -/
  | stream (system user : String) (budget : Nat)
  /-- The provider's stream is over. -/
  | streamOver
  /-- A query goes to the citation manager. -/
  | citation (query : String)
  /-- The citation manager is waited for. -/
  | citationAwaited
  /-- The invocation ends with a suggestion. -/
  | returned (s : Suggestion)
  /-- The iterator yields a snapshot. -/
  | yielded (s : Suggestion)
  /-- The iterator has come to its end. -/
  | stopped
  /-- The iterator was closed. -/
  | closed
  /-- The invocation ends with an error. -/
  | raised (fault : Fault) (cause : Option Fault)
  /-- The invocation was cancelled. -/
  | cancelled
  /-- A control gives its reply. -/
  | replied (reply : Reply)
deriving Repr

/-- Where an invocation stands. -/
inductive Stage where
  /-- A stream of which nothing was asked yet. -/
  | unopened (i : Invocation)
  /-- The citation manager is waited for, by a task; it ends with a fault or without. -/
  | waitingCitation (i : Invocation) (fault : Option Fault) (task : Nat)
  /-- A single request waits for its reply. -/
  | waitingReply (run : Run) (i : Invocation) (target : TextRange)
  /-- A stream waits for a chunk; the task is the one that asked for it. -/
  | waitingChunk (run : Run) (snapshot : Suggestion) (task : Nat)
  /-- A snapshot was yielded. -/
  | shown (run : Run) (snapshot : Suggestion)
  /-- The last snapshot was yielded. -/
  | shownLast (run : Run)
  /-- The stream is left, and waits until the provider's stream is closed, with what it
      shows then; the task is the one that left it. -/
  | waitingClose (run : Run) (outputs : List Output) (task : Option Nat)
  /-- The invocation has ended. -/
  | over
deriving Repr

/-- A segment leads to a desk and a stage, and shows some outputs. -/
abbrev Segment := Desk × Stage × List Output

def citationQueryLimit : Nat := 100

/-! ### Before a run begins -/

/-- What comes of the checks on an invocation: it is refused, it waits for the citation
    manager, or a run for its range can begin. -/
inductive Reception where
  | refused (fault : Fault)
  | searching (fault : Option Fault)
  | accepted (target : TextRange)
deriving Repr

/-- The signal that the citation manager deals with an action. -/
def handledExternally (i : Invocation) : Fault :=
  .engine (.handledExternally (some i.action.id))

def searched (d : Desk) (i : Invocation) (fault : Option Fault) : Desk :=
  if fault.isSome then d.remark .warning ("Citation manager failed for " ++ i.action.id) else d

/-- Hand the selection to the citation manager. Whatever comes of it, the action has
    been dealt with. -/
def routeExternally (s : Setting) (d : Desk) (i : Invocation) :
    Desk × List Output × Reception :=
  match s.citations with
  | none => (d.remark .warning ("No citation manager available for " ++ i.action.id), [],
      .refused (handledExternally i))
  | some search =>
    let query := clip citationQueryLimit i.selection
    let result := search query
    let d := d.remark .info ("Routing " ++ i.action.id ++ " to citation manager")
    let d := { d with log := d.log ++ result.log }
    if result.awaited then (d, [.citation query, .citationAwaited], .searching result.fault)
    else (searched d i result.fault, [.citation query], .refused (handledExternally i))

/-- Check what an invocation needs, and read its range. -/
def receive (s : Setting) (d : Desk) (i : Invocation) : Desk × List Output × Reception :=
  -- These checks come before a run begins: an invocation that is refused here leaves the
  -- run of another one alone.
  if i.action.needsSelection && i.selection == "" then
    (d, [], .refused (.engine .noSelection))
  else if i.action.external then routeExternally s d i
  else match TextRange.ofValue i.target with
    | .error fault => (d, [], .refused fault)
    | .ok target => (d, [], .accepted target)

/-- The citation manager was waited for. -/
def finishSearch (d : Desk) (i : Invocation) (fault : Option Fault) : Segment :=
  (searched d i fault, .over, [.raised (handledExternally i) none])

/-! ### Single requests -/

def openSingle (s : Setting) (d : Desk) (i : Invocation) (task : Nat) : Segment :=
  let (d, outputs, reception) := receive s d i
  match reception with
  | .refused fault => (d, .over, outputs ++ [.raised fault none])
  | .searching fault => (d, .waitingCitation i fault task, outputs)
  | .accepted target =>
    let budget := s.replyBudget i.selection
    let (d, run) := d.begin s.tell i.action task
    let d := d.remark .info ("Executing AI action: " ++ i.action.id ++ " (max_tokens=" ++
      toString budget ++ ")")
    (d, .waitingReply run i target, outputs ++ [.complete i.prompt i.selection budget])

/-- The reply to a single request has come. -/
def settle (s : Setting) (d : Desk) (run : Run) (i : Invocation) (target : TextRange)
    (text : String) : Segment :=
  if d.isCurrent run then
    let (d, id) := d.newSuggestion s
    let suggestion : Suggestion :=
      { id, selected := i.selection, text, source := i.action, target, streaming := false }
    match d.tryEnter s.tell (.ready suggestion) with
    | .ok d => (d.finish s.tell run, .over, [.returned suggestion])
    | .error refusal => (d.finish s.tell run, .over, [.raised (.engine refusal.error) none])
  else
    (d.remark .debug ("Discarding reply from retired run " ++ d.shownRun run), .over,
      [.raised (.engine (.superseded (d.retiredMessage run))) none])

def failSingle (s : Setting) (d : Desk) (run : Run) (fault : Fault) : Segment :=
  let (d, error, cause) := d.recordFailure s.tell run fault
  (d, .over, [.raised error cause])

def interruptSingle (s : Setting) (d : Desk) (run : Run) : Segment :=
  (d.finish s.tell run, .over, [.cancelled])

/-! ### Streams -/

/-- The provider's stream is closed, so the run is finished. If it failed to close, the
    invocation ends with that fault, before the run is finished. -/
def finishClosing (s : Setting) (d : Desk) (run : Run) (outputs : List Output) :
    Option Fault → Segment
  | none => (d.finish s.tell run, .over, outputs)
  | some fault => (d, .over, [.streamOver, .raised fault none])

/-- Leave a stream: it is closed and the run finished. -/
def leave (s : Setting) (d : Desk) (run : Run) (outputs : List Output) : Segment :=
  match s.closing run with
  | .quiet => finishClosing s d run outputs none
  | .raises fault => finishClosing s d run outputs (some fault)
  -- What is shown waits with the run. The task that leaves need not be the one that
  -- began it.
  | .waits => (d, .waitingClose run outputs d.current, [])

def stopEarly (s : Setting) (d : Desk) (run : Run) : Segment :=
  leave s (d.remark .debug ("Stream for " ++ d.shownRun run ++ " stopped early")) run
    [.streamOver, .stopped]

/-- Start a stream, when its first snapshot is asked for. -/
def openStream (s : Setting) (d : Desk) (i : Invocation) (task : Nat) : Segment :=
  let (d, outputs, reception) := receive s d i
  match reception with
  | .refused fault => (d, .over, outputs ++ [.raised fault none])
  | .searching fault => (d, .waitingCitation i fault task, outputs)
  | .accepted target =>
    -- One suggestion for the whole stream: every snapshot has its id.
    let (d, id) := d.newSuggestion s
    let snapshot : Suggestion :=
      { id, selected := i.selection, text := "", source := i.action, target, streaming := true }
    let (d, run) := d.begin s.tell i.action task
    let d := d.remark .info ("Streaming AI action: " ++ i.action.id ++ " (max_tokens=" ++
      toString s.streamBudget ++ ")")
    (d, .waitingChunk run snapshot task,
      outputs ++ [.stream i.prompt i.selection s.streamBudget])

/-- The provider refuses to open a stream, so that there is none to be closed. -/
def refuseStream (s : Setting) (d : Desk) (run : Run) (fault : Fault) : Segment :=
  if d.isCurrent run then
    let (d, error, cause) := d.recordFailure s.tell run fault
    (d.finish s.tell run, .over, [.raised error cause])
  else
    let d := d.remark .debug
      ("Ignoring stream failure from retired run " ++ d.shownRun run ++ ": " ++ fault.text)
    (d.finish s.tell run, .over, [.stopped])

/-- A stream has failed. The failure of a retired run is dropped. -/
def failStream (s : Setting) (d : Desk) (run : Run) (fault : Fault) : Segment :=
  if d.isCurrent run then
    let (d, error, cause) := d.recordFailure s.tell run fault
    leave s d run [.streamOver, .raised error cause]
  else
    let d := d.remark .debug
      ("Ignoring stream failure from retired run " ++ d.shownRun run ++ ": " ++ fault.text)
    leave s d run [.streamOver, .stopped]

/-- A chunk has come. An empty one is skipped. -/
def feedChunk (s : Setting) (d : Desk) (run : Run) (snapshot : Suggestion) (task : Nat)
    (chunk : String) : Segment :=
  -- A retired run is noticed here, when its next chunk comes.
  if !d.isCurrent run then stopEarly s d run
  else if chunk == "" then (d, .waitingChunk run snapshot task, [])
  else
    -- Not the chunk alone is offered, but all the text so far.
    let snapshot := snapshot.withChunk chunk
    match d.tryEnter s.tell (.ready snapshot) with
    | .ok d => (d, .shown run snapshot, [.yielded snapshot])
    | .error refusal => failStream s d run (.engine refusal.error)

def endStream (s : Setting) (d : Desk) (run : Run) (snapshot : Suggestion) : Segment :=
  if !d.isCurrent run then stopEarly s d run
  else
    let last := snapshot.finished
    match d.tryEnter s.tell (.ready last) with
    -- The run is finished before the last snapshot is handed out, not after it.
    | .ok d => (d.finish s.tell run, .shownLast run, [.streamOver, .yielded last])
    | .error refusal => failStream s d run (.engine refusal.error)

def resume (s : Setting) (d : Desk) (run : Run) (snapshot : Suggestion) (task : Nat) : Segment :=
  -- The consumer may have been away for long enough for another run to begin.
  if d.isCurrent run then (d, .waitingChunk run snapshot task, []) else stopEarly s d run

def interruptStream (s : Setting) (d : Desk) (run : Run) : Segment :=
  leave s d run [.streamOver, .cancelled]

/-! ### Interleavings -/

/-- The desk, and the stages of the invocations in the order in which they came. -/
structure Floor where
  desk : Desk := {}
  stages : List Stage := []
deriving Repr

/-- What the outside world can do. An invocation is named by its place; a task is the
    one that carries the move out. -/
inductive Move where
  /-- A single request is started. -/
  | execute (i : Invocation) (task : Nat)
  /-- A stream is made; nothing of it runs yet. -/
  | stream (i : Invocation)
  /-- The next snapshot of a stream is asked for. -/
  | pull (place task : Nat)
  /-- The citation manager is done. -/
  | searched (place : Nat)
  /-- The provider refuses to open the stream. -/
  | refuse (place : Nat) (fault : Fault)
  /-- A reply or a chunk comes. -/
  | text (place : Nat) (text : String)
  /-- The provider's stream ends. -/
  | ending (place : Nat)
  /-- The provider fails. -/
  | fail (place : Nat) (fault : Fault)
  /-- The task that waits is cancelled. -/
  | interrupt (place : Nat)
  /-- An iterator is closed. -/
  | close (place task : Nat)
  /-- The provider's stream is closed after a while, or fails to. -/
  | shut (place : Nat) (fault : Option Fault)
  /-- A control is carried out, by a task or from outside of all tasks. -/
  | control (c : Control) (task : Option Nat)
deriving Repr

namespace Floor

def put (f : Floor) (place : Nat) (segment : Segment) : Floor × List Output :=
  ({ desk := segment.1, stages := f.stages.set place segment.2.1 }, segment.2.2)

def add (f : Floor) (segment : Segment) : Floor × List Output :=
  ({ desk := segment.1, stages := f.stages ++ [segment.2.1] }, segment.2.2)

/-- The desk while a task runs. -/
def deskFor (f : Floor) (task : Nat) : Desk :=
  { f.desk with current := some task }

/-- Carry out a move. A move that does not fit the stage of its invocation does
    nothing. -/
def step (s : Setting) (f : Floor) : Move → Floor × List Output
  -- What runs at once, up to the first point at which it waits, is one move.
  | .execute i task => f.add (openSingle s (f.deskFor task) i task)
  | .stream i => f.add (f.desk, .unopened i, [])
  | .pull place task =>
    match f.stages[place]? with
    | some (.unopened i) => f.put place (openStream s (f.deskFor task) i task)
    | some (.shown run snapshot) => f.put place (resume s (f.deskFor task) run snapshot task)
    | some (.shownLast run) => f.put place (leave s (f.deskFor task) run [.stopped])
    | some .over => (f, [.stopped])
    | _ => (f, [])
  | .searched place =>
    match f.stages[place]? with
    | some (.waitingCitation i fault task) => f.put place (finishSearch (f.deskFor task) i fault)
    | _ => (f, [])
  | .refuse place fault =>
    match f.stages[place]? with
    | some (.waitingChunk run _ task) => f.put place (refuseStream s (f.deskFor task) run fault)
    | _ => (f, [])
  | .text place text =>
    match f.stages[place]? with
    | some (.waitingReply run i target) =>
      f.put place (settle s (f.deskFor run.task) run i target text)
    | some (.waitingChunk run snapshot task) =>
      f.put place (feedChunk s (f.deskFor task) run snapshot task text)
    | _ => (f, [])
  | .ending place =>
    match f.stages[place]? with
    | some (.waitingChunk run snapshot task) =>
      f.put place (endStream s (f.deskFor task) run snapshot)
    | _ => (f, [])
  | .fail place fault =>
    match f.stages[place]? with
    | some (.waitingReply run _ _) => f.put place (failSingle s (f.deskFor run.task) run fault)
    | some (.waitingChunk run _ task) => f.put place (failStream s (f.deskFor task) run fault)
    | _ => (f, [])
  | .interrupt place =>
    match f.stages[place]? with
    | some (.waitingCitation _ _ task) => f.put place (f.deskFor task, .over, [.cancelled])
    | some (.waitingReply run _ _) => f.put place (interruptSingle s (f.deskFor run.task) run)
    | some (.waitingChunk run _ task) => f.put place (interruptStream s (f.deskFor task) run)
    -- The run is not finished: closing was interrupted before it could be.
    | some (.waitingClose _ _ task) =>
      f.put place ({ f.desk with current := task }, .over, [.streamOver, .cancelled])
    | _ => (f, [])
  | .close place task =>
    match f.stages[place]? with
    -- Nothing of the stream has run, so there is nothing to be left.
    | some (.unopened _) => f.put place (f.desk, .over, [.closed])
    | some (.shown run _) => f.put place (leave s (f.deskFor task) run [.streamOver, .closed])
    | some (.shownLast run) => f.put place (leave s (f.deskFor task) run [.closed])
    | some .over => (f, [.closed])
    | _ => (f, [])
  | .shut place fault =>
    match f.stages[place]? with
    | some (.waitingClose run outputs task) =>
      f.put place (finishClosing s { f.desk with current := task } run outputs fault)
    | _ => (f, [])
  | .control c task =>
    let (desk, reply) := { f.desk with current := task }.control s.tell c
    ({ f with desk }, [.replied reply])

def run (s : Setting) (f : Floor) (moves : List Move) : Floor :=
  moves.foldl (fun f m => (f.step s m).1) f

end Floor

end ActionEngine.Coordinator
