import ActionEngine.Chat.Failure
import ActionEngine.Chat.Request
import ActionEngine.Number.Coercion

/-!
# Attempts

How often a request is tried, and how long the client waits before it tries again:
twice as long each time, up to a limit.
-/

namespace ActionEngine.Chat

/-- How requests are tried again: the most attempts, at least one, and the seconds to
    wait after an attempt of a given number, if they can be told. -/
structure Policy where
  attempts : Nat
  wait : Nat → Except Fault Binary64

/-- The number of attempts that a setting allows. A fraction allows one more, and an
    infinite setting more than will ever be made. -/
def attemptLimit : Value → Except Fault Nat
  | .int n => .ok (max 1 n).toNat
  | .bool _ => .ok 1
  | .float .nan => .ok 1
  | .float (.infinite negative) => .ok (if negative then 1 else Nat.pow 2 63)
  | .float (.finite negative e f) =>
    let (num, den) := Binary64.quotient e f
    .ok (if negative then 1 else max 1 ((num + den - 1) / den))
  | other => .error (.wrongKind
      ("'>' not supported between instances of '" ++ other.kind ++ "' and 'int'"))

/-- A setting as the base of the waits. It is taken as it is: a text can be repeated, but no
    number of seconds comes of that. -/
def waitBase : Value → Except Fault Binary64
  | .float x => .ok x
  | .bool b => .ok ((Binary64.ofInt? (if b then 1 else 0)).getD .nan)
  | .int n => .ok ((Binary64.ofInt? n).getD (.infinite (n < 0)))
  | v =>
    let repeats : Bool := match v with
      | .text _ | .bytes _ | .list _ | .tuple _ => true
      | _ => false
    .error (.wrongKind (if repeats then
        "'<' not supported between instances of 'float' and '" ++ v.kind ++ "'"
      else "unsupported operand type(s) for *: '" ++ v.kind ++ "' and 'int'"))

/-- The seconds to wait after an attempt: the base doubled with every attempt before it,
    between zero and the limit. -/
def waitAfter (base limit : Binary64) (attempt : Nat) : Binary64 :=
  let grown := base.timesPower (attempt - 1)
  let capped := if limit.less grown then limit else grown
  if (Binary64.zero false).less capped then capped else .zero false

def Policy.ofSettings (s : ClientSettings) : Except Fault Policy := do
  let attempts ← attemptLimit s.maxRetries
  let limit ← s.retryMax.toFloat
  -- The base is looked at when a wait is due, and not before.
  .ok { attempts, wait := fun n => (waitBase s.retryMin).map fun base => waitAfter base limit n }

end ActionEngine.Chat
