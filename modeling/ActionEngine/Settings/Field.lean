import ActionEngine.Chat.Request

/-!
# Settings

The settings of the engine are sixteen fields. A field has a name, a form in which it
is written on the command line, and a default; what it holds in the end may be any
value, because a settings file may hold any.
-/

namespace ActionEngine

inductive Settings.Field where
  | baseUrl
  | apiKey
  | model
  | temperature
  | organization
  | requestTimeout
  | maxRetries
  | retryMin
  | retryMax
  | actionsPath
  | minimumReply
  | streamBudget
  | citationScheme
  | defaultHeaders
  | metadata
  | debugLogging
deriving DecidableEq, Repr

inductive Settings.Form where
  | text
  | optionalText
  | integer
  | decimal
  | switch
  | record
deriving DecidableEq, Repr

/-- The settings: a value for every field. -/
structure Settings where
  get : Settings.Field → Value

namespace Settings

namespace Field

def all : List Field :=
  [baseUrl, apiKey, model, temperature, organization, requestTimeout, maxRetries, retryMin,
   retryMax, actionsPath, minimumReply, streamBudget, citationScheme, defaultHeaders, metadata,
   debugLogging]

def name : Field → String
  | baseUrl => "base_url"
  | apiKey => "api_key"
  | model => "model"
  | temperature => "temperature"
  | organization => "organization"
  | requestTimeout => "request_timeout"
  | maxRetries => "max_retries"
  | retryMin => "retry_min_seconds"
  | retryMax => "retry_max_seconds"
  | actionsPath => "actions_path"
  | minimumReply => "min_response_tokens"
  | streamBudget => "stream_max_tokens"
  | citationScheme => "citation_scheme"
  | defaultHeaders => "default_headers"
  | metadata => "metadata"
  | debugLogging => "debug_logging"

def form : Field → Form
  | baseUrl | apiKey | model | citationScheme => .text
  | organization | actionsPath => .optionalText
  | maxRetries | minimumReply | streamBudget => .integer
  | temperature | requestTimeout | retryMin | retryMax => .decimal
  | debugLogging => .switch
  | defaultHeaders | metadata => .record

/-- The value of a field that nothing else is known about. -/
def default : Field → Value
  | baseUrl => .text "https://api.openai.com/v1"
  | apiKey => .text ""
  | model => .text "gpt-4o-mini"
  | temperature => Chat.defaultTemperature
  | organization => .null
  | requestTimeout => .float (Binary64.ofDecimal false 90 0)
  | maxRetries => .int 3
  | retryMin => .float (Binary64.ofDecimal false 5 (-1))
  | retryMax => .float (Binary64.ofDecimal false 6 0)
  | actionsPath => .null
  | minimumReply => .int 500
  | streamBudget => .int 2000
  | citationScheme => .text "imbib"
  | defaultHeaders => .record []
  | metadata => .record []
  | debugLogging => .bool false

def ofName? (s : LooseText) : Option Field :=
  all.find? fun f => .whole f.name == s

end Field

/-- Settings that nothing is known about. -/
def initial : Settings := ⟨Field.default⟩

def set (s : Settings) (field : Field) (v : Value) : Settings :=
  ⟨fun f => if f = field then v else s.get f⟩

/-- Set the fields that are named; other names are passed over. -/
def setNamed (s : Settings) (named : Fields) : Settings :=
  named.foldl (fun s f => match Field.ofName? f.1 with
    | some field => s.set field f.2
    | none => s) s

mutual

/-- A value with its ranges as records. -/
def plain : Value → Value
  | .range location length => .record [("location", .int location), ("length", .int length)]
  | .list items => .list (plainItems items)
  | .tuple items => .tuple (plainItems items)
  | .record fields => .record (plainFields fields)
  | v => v

def plainItems : List Value → List Value
  | [] => []
  | v :: rest => plain v :: plainItems rest

/-- Fields with the ranges in their values as records. -/
def plainFields : List (LooseText × Value) → List (LooseText × Value)
  | [] => []
  | (key, v) :: rest => (key, plain v) :: plainFields rest

end

def fields (s : Settings) : Fields :=
  Field.all.map fun f => (.whole f.name, plain (s.get f))

/-- The settings that only some fields are given for. Every name has to be that of a
    field. -/
def ofFields (given : Fields) : Except Fault Settings :=
  match given.find? fun f => (Field.ofName? f.1).isNone with
  | some f => .error (.wrongKind
      ("Settings.__init__() got an unexpected keyword argument '" ++ f.1.display ++ "'"))
  | none => .ok (initial.setNamed given)

/-! ### The chat client's part -/

/-- The fault of a pair that does not have two parts. -/
def pairFault (place size : Nat) : Fault :=
  .value ("dictionary update sequence element #" ++ toString place ++ " has length " ++
    toString size ++ "; 2 is required")

/-- A key of a record, which cannot be a value that changes. -/
def keyOf : Value → Except Fault LooseText
  | .list _ => .error (.wrongKind "unhashable type: 'list'")
  | .record _ => .error (.wrongKind "unhashable type: 'dict'")
  | v => .ok v.toText

/-- The fields that a row of pairs gives. -/
def pairs : Nat → List Value → Except Fault Fields
  | _, [] => .ok []
  | place, v :: rest =>
    match Chat.items v with
    | .error _ => .error (.wrongKind ("cannot convert dictionary update sequence element #" ++
        toString place ++ " to a sequence"))
    | .ok [key, value] => do
      let key ← keyOf key
      let more ← pairs (place + 1) rest
      .ok ((key, value) :: more)
    | .ok items => .error (pairFault place items.length)

/-- The record that a value gives, or null if it has no fields. -/
def recordOrNull (v : Value) : Except Fault Value := do
  let found ← match v with
    | .record fields => .ok fields
    | v => do pairs 0 (← Chat.items v)
  .ok (if found.isEmpty then .null else .record (Fields.putAll [] found))

def client (s : Settings) : Except Fault Chat.ClientSettings := do
  let headers ← recordOrNull (s.get .defaultHeaders)
  let metadata ← recordOrNull (s.get .metadata)
  .ok { baseUrl := s.get .baseUrl, apiKey := s.get .apiKey, model := s.get .model
        organization := s.get .organization, requestTimeout := s.get .requestTimeout
        maxRetries := s.get .maxRetries, retryMin := s.get .retryMin, retryMax := s.get .retryMax
        defaultHeaders := headers, metadata, debugLogging := s.get .debugLogging }

end Settings

end ActionEngine
