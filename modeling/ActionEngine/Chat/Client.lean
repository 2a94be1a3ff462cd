import ActionEngine.Chat.Retry

/-!
# The chat client

The client sends a request, and sends it again if it failed in a way that may pass.
A stream is opened again only while nothing of it has reached the caller. What the
service does with each request in turn is given as a list.
-/

namespace ActionEngine.Chat

inductive Response where
  /-- One choice for each content. -/
  | contents (contents : List Value)
  /-- The choices are this value. -/
  | choices (v : Value)
  /-- One choice that holds no message. -/
  | blank
deriving Repr

def textOf (v : Value) : LooseText :=
  if v.isPresent then v.toText else ""

/-- The text of a reply: that of its first choice, or nothing. -/
def Response.text : Response → Except Fault LooseText
  | contents [] => .ok ""
  | contents (c :: _) => .ok (textOf c)
  | blank => .ok ""
  | choices v =>
    if !v.isPresent then .ok ""
    else match v with
      | .list _ => .ok ""
      | .tuple _ => .ok ""
      | .text _ => .ok ""
      | .bytes _ => .ok ""
      | .range .. => .ok ""
      | .record _ => .error (.noField 0)
      | other => .error (.wrongKind ("'" ++ other.kind ++ "' object is not subscriptable"))

/-- An event of a stream; what an event lacks is null. -/
structure StreamEvent where
  kind : Value := .null
  delta : Value := .null
  content : Value := .null
  refusal : Value := .null
deriving Repr

/-- What the caller of a stream is given. -/
structure Delta where
  kind : String
  content : Value
deriving Repr

/-- What an event means to the caller, if anything. -/
def StreamEvent.delta? (e : StreamEvent) : Option Delta :=
  match e.kind with
  | .text (.whole "content.delta") =>
    if e.delta.isPresent then some ⟨"content.delta", .text e.delta.toText⟩ else none
  | .text (.whole "content.done") => some ⟨"content.done", e.content⟩
  | .text (.whole "refusal.done") => some ⟨"refusal.done", e.refusal⟩
  | _ => none

def Delta.text? (d : Delta) : Option LooseText :=
  if d.kind == "content.delta" && d.content.isPresent then some d.content.toText else none

/-- What the service does with one request: it replies or fails, or refuses to open a
    stream, or sends events and then ends or fails. -/
structure Turn where
  response : Response := .contents []
  events : List StreamEvent := []
  refusal : Option Fault := none
  fault : Option Fault := none
deriving Repr

/-- What passes between the client and the service. -/
inductive Exchange where
  | create (payload : Fields)
  | stream (payload : Fields)
  | streamClosed
  | wait (seconds : Binary64)
deriving Repr

/-- The fault of a service that has nothing more to say. -/
def exhausted : Fault := .system .index (some "pop from empty list")

/-- What the service does once it has nothing more to say. -/
def Turn.silence : Turn := { refusal := some exhausted, fault := some exhausted }

structure Result (α : Type) where
  outcome : Except Fault α
  exchanges : List Exchange
  rest : List Turn

/-! ### The row of attempts -/

/-- What one attempt came to: what of it reached the caller, how it ended, and what passed
    between the client and the service. -/
structure Attempt (α : Type) where
  yielded : List Delta := []
  outcome : Except Fault α
  exchanges : List Exchange

/-- The attempt failed in a way that may pass, and nothing of it has reached the caller: what
    has would be shown twice. -/
def Attempt.mayRepeat {α : Type} (a : Attempt α) : Bool :=
  match a.outcome with
  | .ok _ => false
  | .error fault => fault.isRetryable && a.yielded.isEmpty

/-- Make attempts until one of them is not to be repeated, or none is left. -/
def Policy.follow {α : Type} (p : Policy) (attempt : Turn → Attempt α) (number left : Nat)
    (turns : List Turn) : List Delta × Result α :=
  let made := attempt (turns.headD .silence)
  let rest := turns.tail
  if !made.mayRepeat then (made.yielded, ⟨made.outcome, made.exchanges, rest⟩)
  else
    -- The wait is worked out before anything else is looked at: if that fails, the call fails
    -- with it, even if no attempt is left.
    match p.wait number, left with
    | .error fault, _ => (made.yielded, ⟨.error fault, made.exchanges, rest⟩)
    | .ok _, 0 => (made.yielded, ⟨made.outcome, made.exchanges, rest⟩)
    | .ok seconds, left + 1 =>
      let (yielded, later) := p.follow attempt (number + 1) left rest
      (yielded, { later with exchanges := made.exchanges ++ .wait seconds :: later.exchanges })

/-- Make the attempts that a policy allows. -/
def Policy.run {α : Type} (p : Policy) (attempt : Turn → Attempt α) (turns : List Turn) :
    List Delta × Result α :=
  p.follow attempt 1 (p.attempts - 1) turns

/-- The policy for a payload that can be sent. -/
def policyFor (s : ClientSettings) (fields : Fields) : Except Fault Policy := do
  let policy ← Policy.ofSettings s
  (unsendable? fields).elim (.ok policy) .error

/-! ### Single requests -/

def completeAttempt (payload : Fields) (t : Turn) : Attempt Response where
  outcome := t.fault.elim (.ok t.response) .error
  exchanges := [.create payload]

def complete (s : ClientSettings) (r : Request) (turns : List Turn) : Log × Result LooseText :=
  match payload s r with
  | .error fault => ([], ⟨.error fault, [], turns⟩)
  | .ok fields =>
    let log := Log.one .debug logger ("Requesting chat completion via " ++ s.model.toText.display) ++
      payloadRemark s fields
    match policyFor s fields with
    | .error fault => (log, ⟨.error fault, [], turns⟩)
    | .ok policy =>
      let (_, result) := policy.run (completeAttempt fields) turns
      (log, { result with outcome := result.outcome.bind Response.text })

/-! ### Streams -/

/-- How long a caller goes on reading a stream: until as many deltas have come that
    count, or to its end. -/
structure Reader where
  counts : Delta → Bool := fun _ => true
  limit : Option Nat := none

/-- The deltas that a caller takes, and whether it stopped there. -/
def Reader.take (r : Reader) : Nat → List Delta → List Delta × Bool
  | _, [] => ([], false)
  | seen, d :: rest =>
    let seen := if r.counts d then seen + 1 else seen
    if r.counts d && r.limit.any (· ≤ seen) then ([d], true)
    else
      let (more, stopped) := r.take seen rest
      (d :: more, stopped)

def streamAttempt (payload : Fields) (reader : Reader) (t : Turn) : Attempt Unit :=
  match t.refusal with
  | some fault => { outcome := .error fault, exchanges := [.stream payload] }
  | none =>
    let (deltas, stopped) := reader.take 0 (t.events.filterMap StreamEvent.delta?)
    -- A caller that stops never sees the fault that the stream would have ended with.
    { yielded := deltas, outcome := if stopped then .ok () else t.fault.elim (.ok ()) .error
      exchanges := [.stream payload, .streamClosed] }

def stream (s : ClientSettings) (r : Request) (reader : Reader) (turns : List Turn) :
    Log × List Delta × Result Unit :=
  match payload s r with
  | .error fault => ([], [], ⟨.error fault, [], turns⟩)
  | .ok fields =>
    -- What a payload calls its messages is a list by now, whatever the request gave.
    let count := match Fields.get? fields "messages" with
      | some (.list ms) => ms.length
      | _ => 0
    let log := Log.one .debug logger ("Starting streamed chat completion via " ++
        s.model.toText.display ++ " with " ++ toString count ++ " message(s)") ++
      payloadRemark s fields
    match policyFor s fields with
    | .error fault => (log, [], ⟨.error fault, [], turns⟩)
    | .ok policy => (log, policy.run (streamAttempt fields reader) turns)

end ActionEngine.Chat
