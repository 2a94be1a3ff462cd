import ActionEngine.Chat.Client

/-!
# The completion provider

The provider turns a system prompt and a user message into a chat request, and every
failure into an engine error. Without a client all requests fail.
-/

namespace ActionEngine.Chat

/-- A provider; it has no client if no key is configured. -/
structure Provider where
  client : Option ClientSettings
  temperature : Value := defaultTemperature
deriving Repr

namespace Provider

def logger : String := "inkwell.ai.provider"

/-- The provider for some settings: it needs a key that is more than blanks. -/
def ofSettings (s : ClientSettings) (temperature : Value := defaultTemperature) :
    Except Fault (Provider × Log) :=
  let missing : Provider × Log := ({ client := none, temperature },
    Log.one .info logger "No API key configured; AI actions are unavailable")
  if !s.apiKey.isPresent then .ok missing
  else match s.apiKey with
    | .text key =>
      if key.codes.all Text.Code.isBlank then .ok missing
      else .ok ({ client := some s, temperature }, [])
    | .bytes bs =>
      if bs.all fun b => b == 32 || (9 ≤ b && b ≤ 13) then .ok missing
      else .ok ({ client := some s, temperature }, [])
    | other => .error (.system .member
        (some ("'" ++ other.kind ++ "' object has no attribute 'strip'")))

def message (role content : LooseText) : Value :=
  .record [("role", .text role), ("content", .text content)]

/-- The request for a prompt; an empty system prompt is left out. -/
def request (p : Provider) (system user : LooseText) (maxTokens : Value) : Request where
  messages := .list ((if system == "" then [] else [message "system" system]) ++
    [message "user" user])
  temperature := p.temperature
  maxTokens := maxTokens

def reportedResult {α : Type} (r : Result α) : Result α :=
  { r with outcome := r.outcome.mapError fun f => .engine f.reported }

def complete (p : Provider) (system user : LooseText) (maxTokens : Value) (turns : List Turn) :
    Log × Result LooseText × Option Fault :=
  match p.client with
  | none => ([], ⟨.error (.engine .providerUnavailable), [], turns⟩, none)
  | some s =>
    let (log, result) := Chat.complete s (p.request system user maxTokens) turns
    match result.outcome with
    | .ok text =>
      (log ++ Log.one .info logger ("AI response received: " ++ (text.take 100).display ++ "..."),
        result, none)
    | .error fault => (log, reportedResult result, some fault)

/-- Ask for a stream and read its text, up to a number of chunks if one is given. -/
def stream (p : Provider) (system user : LooseText) (maxTokens : Value) (limit : Option Nat)
    (turns : List Turn) : Log × List LooseText × Result Unit × Option Fault :=
  match p.client with
  | none => ([], [], ⟨.error (.engine .providerUnavailable), [], turns⟩, none)
  | some s =>
    let reader : Reader := { counts := fun d => d.text?.isSome, limit }
    let (log, deltas, result) := Chat.stream s (p.request system user maxTokens) reader turns
    let chunks := deltas.filterMap Delta.text?
    match result.outcome with
    | .ok _ => (log, chunks, result, none)
    | .error fault => (log, chunks, reportedResult result, some fault)

end Provider

end ActionEngine.Chat
