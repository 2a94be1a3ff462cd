import ActionEngine.Fault
import ActionEngine.Json.Printer
import ActionEngine.Log

/-!
# Chat requests

What is sent to the chat service: the model, the messages, and what else was given
for the request. A request needs at least one message, and every message is a record.
-/

namespace ActionEngine.Chat

def logger : String := "inkwell.ai.client"

structure ClientSettings where
  baseUrl : Value
  apiKey : Value
  model : Value
  organization : Value := .null
  requestTimeout : Value := .float (Binary64.ofDecimal false 90 0)
  maxRetries : Value := .int 3
  retryMin : Value := .float (Binary64.ofDecimal false 5 (-1))
  retryMax : Value := .float (Binary64.ofDecimal false 6 0)
  defaultHeaders : Value := .null
  metadata : Value := .null
  debugLogging : Value := .bool false
deriving Repr, Inhabited

def ClientSettings.fields (s : ClientSettings) : Fields :=
  [("base_url", s.baseUrl), ("api_key", s.apiKey), ("model", s.model),
   ("organization", s.organization), ("request_timeout", s.requestTimeout),
   ("max_retries", s.maxRetries), ("retry_min_seconds", s.retryMin),
   ("retry_max_seconds", s.retryMax), ("default_headers", s.defaultHeaders),
   ("metadata", s.metadata), ("debug_logging", s.debugLogging)]

/-- The settings that some fields give; where a field is missing, the base counts. -/
def ClientSettings.ofFields (base : ClientSettings) (given : Fields) : ClientSettings :=
  let get (key : String) (default : Value) : Value := (Fields.get? given key).getD default
  { baseUrl := get "base_url" base.baseUrl, apiKey := get "api_key" base.apiKey
    model := get "model" base.model, organization := get "organization" base.organization
    requestTimeout := get "request_timeout" base.requestTimeout
    maxRetries := get "max_retries" base.maxRetries
    retryMin := get "retry_min_seconds" base.retryMin
    retryMax := get "retry_max_seconds" base.retryMax
    defaultHeaders := get "default_headers" base.defaultHeaders
    metadata := get "metadata" base.metadata
    debugLogging := get "debug_logging" base.debugLogging }

def defaultTemperature : Value := .float (Binary64.ofDecimal false 2 (-1))

/-- What is asked of a chat client. A temperature or limit that is null is not sent. -/
structure Request where
  messages : Value
  temperature : Value := defaultTemperature
  maxTokens : Value := .null
  metadata : Value := .null
deriving Repr

def items : Value → Except Fault (List Value)
  | .list vs => .ok vs
  | .tuple vs => .ok vs
  | .record fields => .ok (fields.map fun f => .text f.1)
  | .text s => .ok (s.codes.map fun c => .text (.ofCodes [c]))
  | .bytes bs => .ok (bs.map fun b => .int b.toNat)
  | .range location length => .ok [.int location, .int length]
  | other => .error (.wrongKind ("'" ++ other.kind ++ "' object is not iterable"))

/-- The messages of a request, each of them a record. -/
def messages (v : Value) : Except Fault (List Value) := do
  let found ← items v
  if found.any fun m => !m.isRecord then
    .error (.wrongKind "Messages must be mapping-like objects")
  else if found.isEmpty then
    .error (.value "At least one message is required to start a chat")
  else .ok found

def fieldsOf : Value → Fields
  | .record fields => fields
  | _ => []

/-- The data that is sent for a request. Metadata of the request goes before metadata of
    the settings. -/
def payload (s : ClientSettings) (r : Request) : Except Fault Fields := do
  let found ← messages r.messages
  let metadata := Fields.putAll (Fields.putAll [] (fieldsOf s.metadata)) (fieldsOf r.metadata)
  let optional (key : String) (v : Value) : Fields := match v with
    | .null => []
    | v => [(key, v)]
  let needed : Fields := [("model", s.model), ("messages", .list found)]
  let details : Fields := if metadata.isEmpty then [] else [("metadata", .record metadata)]
  .ok (needed ++ details ++ optional "temperature" r.temperature ++
    optional "max_tokens" r.maxTokens)

/-- The fault of a payload that cannot be sent, because some value in it has no form in
    JSON. -/
def unsendable? (fields : Fields) : Option Fault :=
  match Json.render Json.Style.line (.record fields) with
  | .error (.kind name) => some (.wrongKind ("unencodable " ++ name))
  | _ => none

/-- The remark that shows a payload, if the settings ask for it. -/
def payloadRemark (s : ClientSettings) (fields : Fields) : Log :=
  if s.debugLogging.isPresent then
    match Json.render ⟨true, false, false⟩ (.record fields) with
    | .ok text => Log.one .debug logger ("AI prompt payload:\n" ++ text)
    | .error _ => Log.one .debug logger
        ("AI prompt payload (unserializable): " ++ (Value.record fields).shown)
  else []

end ActionEngine.Chat
