import ActionEngine.Value

/-!
# Failures

What can go wrong, as data. An engine error carries a code for programs and a
message for people; some of them are signals rather than failures. All other
faults come from the chat service, from its transport, or from the system.
-/

namespace ActionEngine

inductive EngineError.Kind where
  | general
  | noSelection
  | handledExternally (action : Option String)
  | providerUnavailable
  | provider (reason : String) (status : Option Int)
  | superseded
  | unknownAction (action : Option String)
  | invalidTransition
deriving DecidableEq, Repr

/-- An error of the engine. The suggestion says how to recover; it may be empty. -/
structure EngineError where
  kind : EngineError.Kind
  code : String
  message : String
  suggestion : String := ""
deriving DecidableEq, Repr

namespace EngineError

/-- The action needs selected text and none was supplied. -/
def noSelection : EngineError where
  kind := .noSelection
  code := "no_selection"
  message := "Please select some text first."
  suggestion := "Select the text the action should work on and try again"

/-- The action was handed to the citation manager; nothing is left pending. -/
def handledExternally (action : Option String) : EngineError where
  kind := .handledExternally action
  code := "handled_externally"
  message := "Action opened in the citation manager."

/-- No completion provider is configured. -/
def providerUnavailable : EngineError where
  kind := .providerUnavailable
  code := "provider_unavailable"
  message := "AI assistant is not configured. Please add your API key in Settings."
  suggestion := "Set an API key with INKWELL_API_KEY or in settings.json"

/-- The completion provider reported a failure. -/
def provider (message : String) (reason : String := "request_failed")
    (status : Option Int := none) (suggestion : String := "") : EngineError where
  kind := .provider reason status
  code := "provider_error"
  message := message
  suggestion := suggestion

/-- The run was cancelled or replaced before it finished. -/
def superseded (message : String) : EngineError where
  kind := .superseded
  code := "superseded"
  message := message

/-- No action has the requested id. -/
def unknownAction (action : String) : EngineError where
  kind := .unknownAction (some action)
  code := "unknown_action"
  message := "Unknown action '" ++ action ++ "'"
  suggestion := "Run `inkwell list` to see the available action ids"

/-- A lifecycle transition outside the permitted ones was attempted. -/
def invalidTransition (message : String) : EngineError where
  kind := .invalidTransition
  code := "invalid_transition"
  message := message

/-- An error of each kind as it is before any of its fields is set. -/
def initial : Kind → EngineError
  | .general => ⟨.general, "", "", ""⟩
  | .noSelection => noSelection
  | .handledExternally action => handledExternally action
  | .providerUnavailable => providerUnavailable
  | .provider reason status => provider "Request failed." reason status
  | .superseded => superseded "The action was superseded by a newer request."
  | .unknownAction action =>
    { unknownAction "" with kind := .unknownAction action, message := "Unknown action" }
  | .invalidTransition => invalidTransition "Invalid suggestion lifecycle transition"

def name (e : EngineError) : String :=
  match e.kind with
  | .general => "ActionEngineError"
  | .noSelection => "NoSelectionError"
  | .handledExternally _ => "HandledExternallyError"
  | .providerUnavailable => "ProviderUnavailableError"
  | .provider .. => "ProviderError"
  | .superseded => "ExecutionSupersededError"
  | .unknownAction _ => "UnknownActionError"
  | .invalidTransition => "InvalidTransitionError"

def isFailure (e : EngineError) : Bool :=
  match e.kind with
  | .handledExternally _ => false
  | .superseded => false
  | _ => true

/-- The action that the error is about, for the kinds that name one. -/
def action? (e : EngineError) : Option String :=
  match e.kind with
  | .handledExternally action => action
  | .unknownAction action => action
  | _ => none

def text (e : EngineError) : String :=
  "[" ++ e.code ++ "] " ++ e.message

/-- The error as a record for programs; an empty suggestion is left out. -/
def fields (e : EngineError) : Fields :=
  let named : Fields := [("error", .text e.code), ("message", .text e.message)]
  let hint : Fields := if e.suggestion == "" then [] else [("suggestion", .text e.suggestion)]
  let details : Fields := match e.kind with
    | .provider reason none => [("code", .text reason)]
    | .provider reason (some status) => [("code", .text reason), ("status_code", .int status)]
    | _ => []
  named ++ hint ++ details

end EngineError

inductive StatusKind where
  | general
  | authentication
  | permissionDenied
  | rateLimit
  | notFound
  | badRequest
  | unprocessable
  | conflict
  | internalServer
deriving DecidableEq, Repr

inductive SystemKind where
  | general
  | runtime
  | value
  | type
  | member
  | index
  | key
  | overflow
  | undecodable
  | unencodable
  | os
  | fileNotFound
  | fileExists
  | isDirectory
  | notDirectory
  | permission
  | browser
deriving DecidableEq, Repr

/-- Anything that can go wrong. -/
inductive Fault where
  /-- An error of the engine itself. -/
  | engine (e : EngineError)
  /-- The chat service answered with an HTTP status. -/
  | status (kind : StatusKind) (status : Int) (message : String)
  /-- The chat service did not answer in time. -/
  | timedOut
  /-- The chat service could not be reached. -/
  | unreachable (message : String)
  /-- The chat service answered with something else than it promises. -/
  | invalidReply (message : String)
  /-- The chat service failed in another way. -/
  | service (message : String)
  /-- The chat client could not be used. -/
  | client (message : Option String)
  /-- The HTTP transport failed. -/
  | transport (name : String) (message : String)
  /-- A record was asked for the field of a number. -/
  | noField (number : Int)
  /-- The system failed. -/
  | system (kind : SystemKind) (message : Option String)
deriving DecidableEq, Repr

def StatusKind.name : StatusKind → String
  | general => "APIStatusError"
  | authentication => "AuthenticationError"
  | permissionDenied => "PermissionDeniedError"
  | rateLimit => "RateLimitError"
  | notFound => "NotFoundError"
  | badRequest => "BadRequestError"
  | unprocessable => "UnprocessableEntityError"
  | conflict => "ConflictError"
  | internalServer => "InternalServerError"

def StatusKind.all : List StatusKind :=
  [general, authentication, permissionDenied, rateLimit, notFound, badRequest, unprocessable,
   conflict, internalServer]

def StatusKind.ofName? (s : String) : Option StatusKind :=
  all.find? fun k => k.name == s

def SystemKind.name : SystemKind → String
  | general => "Exception"
  | runtime => "RuntimeError"
  | value => "ValueError"
  | type => "TypeError"
  | member => "AttributeError"
  | index => "IndexError"
  | key => "KeyError"
  | overflow => "OverflowError"
  | undecodable => "UnicodeDecodeError"
  | unencodable => "UnicodeEncodeError"
  | os => "OSError"
  | fileNotFound => "FileNotFoundError"
  | fileExists => "FileExistsError"
  | isDirectory => "IsADirectoryError"
  | notDirectory => "NotADirectoryError"
  | permission => "PermissionError"
  | browser => "Error"

/-- The kinds of system faults that are told apart by their names alone. -/
def SystemKind.common : List SystemKind := [runtime, value, os, key, general]

def SystemKind.ofName? (s : String) : Option SystemKind :=
  common.find? fun k => k.name == s

namespace Fault

def value (message : String) : Fault := .system .value (some message)

/-- A value of the wrong kind was met. -/
def wrongKind (message : String) : Fault := .system .type (some message)

def name : Fault → String
  | engine e => e.name
  | status kind .. => kind.name
  | timedOut => "APITimeoutError"
  | unreachable _ => "APIConnectionError"
  | invalidReply _ => "APIResponseValidationError"
  | service _ => "APIError"
  | client _ => "OpenAIError"
  | transport name _ => name
  | noField _ => SystemKind.name .key
  | system kind _ => kind.name

/-- The text of a fault. A missing key is shown between quotes. -/
def text : Fault → String
  | engine e => e.text
  | status _ _ message => message
  | timedOut => "Request timed out."
  | unreachable message => message
  | invalidReply message => message
  | service message => message
  | client message => message.getD ""
  | transport _ message => message
  | noField number => toString number
  | system .key (some message) => message.quotedText
  | system _ message => message.getD ""

/-- The message of a fault for people: its trimmed text, or its name if that is empty. -/
def summary (f : Fault) : String :=
  let message := f.text.trimBlanks
  if message == "" then f.name else message

/-- The system could not read or write a file. -/
def isFileFault : Fault → Bool
  | system kind _ => kind == .os || kind == .fileNotFound || kind == .fileExists ||
      kind == .isDirectory || kind == .notDirectory || kind == .permission
  | _ => false

/-- A value was refused, or bytes are no text. -/
def isValueFault : Fault → Bool
  | system kind _ => kind == .value || kind == .undecodable || kind == .unencodable
  | _ => false

end Fault

end ActionEngine
