import ActionEngine.Fault

/-!
# Failures of the chat service

Which failures are worth another attempt, and which engine error a failure is
reported as. An engine error stands for itself.
-/

namespace ActionEngine.Fault

/-- The ways in which the HTTP transport runs out of time. -/
def transportTimeouts : List String :=
  ["TimeoutException", "ReadTimeout", "ConnectTimeout", "PoolTimeout", "WriteTimeout"]

/-- Another attempt may succeed: the service could not be reached, was too slow or too
    busy, or failed on its own side. -/
def isRetryable : Fault → Bool
  | timedOut => true
  | unreachable _ => true
  | status kind code _ => kind == .rateLimit || 500 ≤ code
  | transport name _ => transportTimeouts.contains name
  | _ => false

def statusReason (kind : StatusKind) (code : Int) : String :=
  match kind with
  | .permissionDenied => "unauthorized"
  | .rateLimit => "rate_limited"
  | .notFound => "not_found"
  | .badRequest => "bad_request"
  | .unprocessable => "bad_request"
  | .internalServer => "server_error"
  | _ => "http_" ++ toString code

def reported (f : Fault) : EngineError :=
  match f with
  | engine e => e
  | status .authentication _ _ =>
    { EngineError.providerUnavailable with
      message := "The AI provider rejected the configured API key: " ++ f.summary }
  | status kind code _ =>
    .provider f.summary (statusReason kind code) (some code)
      (if kind = .rateLimit then "Rate limited. Please wait a moment and try again." else "")
  | timedOut => .provider f.summary "timeout"
  | unreachable _ => .provider f.summary "network"
  | invalidReply _ => .provider f.summary "parse_error"
  | transport name _ =>
    .provider f.summary (if transportTimeouts.contains name then "timeout" else "network")
  | _ => .provider f.summary "request_failed"

end ActionEngine.Fault
