import ActionEngine.Number.Coercion

/-!
# Ranges of a document

A range is a location and a length, neither of them negative. It is captured when an
action starts and handed back with the suggestion. Callers may give it as a record, as
a pair, or leave it out; a start and an end may come in either order.
-/

namespace ActionEngine

/-- A span of the document. -/
structure TextRange where
  location : Nat
  length : Nat
deriving DecidableEq, Repr, Inhabited

namespace TextRange

def zero : TextRange := ⟨0, 0⟩

/-- The offset behind the last character. -/
def stop (r : TextRange) : Nat := r.location + r.length

def isCaret (r : TextRange) : Bool := r.length == 0

def toList (r : TextRange) : List Nat := [r.location, r.length]

def toPair (r : TextRange) : Value := .tuple [.int r.location, .int r.length]

def toRecord (r : TextRange) : Value :=
  .record [("location", .int r.location), ("length", .int r.length)]

/-- The range as a record of start and end. -/
def toSpan (r : TextRange) : Value :=
  .record [("start", .int r.location), ("end", .int r.stop)]

/-- One component of a range: negative numbers become zero, and a value that is no
    whole number is refused under the component's label. -/
def component (label : String) (v : Value) : Except Fault Nat :=
  match v.toInt with
  | .ok n => .ok n.toNat
  | .error (.system .overflow message) => .error (.system .overflow message)
  | .error _ => .error (.value ("TextRange " ++ label ++ " must be an integer"))

def make (location length : Value) : Except Fault TextRange := do
  let location ← component "location" location
  let length ← component "length" length
  .ok ⟨location, length⟩

/-- The range between two offsets, whichever comes first. -/
def between (start stop : Int) : Except Fault TextRange :=
  make (.int (min start stop)) (.int (max start stop - min start stop))

/-- The range that the fields of a record describe. -/
def ofFields (fields : Fields) : Except Fault TextRange :=
  -- A location decides the form, even if there is a start as well.
  match fields.get? "location" with
  | some location => make location ((fields.get? "length").getD (.int 0))
  | none =>
    let incomplete : Except Fault TextRange :=
      .error (.value "TextRange mappings require location or start/end keys")
    match fields.get? "start", fields.get? "end" with
    | some start, some stop =>
      match start, stop with
      | .null, _ => incomplete
      | _, .null => incomplete
      | start, stop => do
        let start ← start.toInt
        let stop ← stop.toInt
        between start stop
    | _, _ => incomplete

def ofItems : List Value → Except Fault TextRange
  | [location, length] => make location length
  | _ => .error (.value "TextRange sequences must have exactly two entries")

/-- The range that a value describes. -/
def ofValue : Value → Except Fault TextRange
  | .range location length => .ok ⟨location, length⟩
  | .null => .ok zero
  | .record fields => ofFields fields
  | .list items => ofItems items
  | .tuple items => ofItems items
  | _ => .error (.wrongKind "Unsupported TextRange input")

/-! ### A range as a sequence of two numbers -/

/-- The component at an index; only 0 and 1 are in range. -/
def get (r : TextRange) (index : Value) : Except Fault Nat :=
  if index.equalsInt 0 then .ok r.location
  else if index.equalsInt 1 then .ok r.length
  else .error (.system .index (some "TextRange index out of range"))

def count (r : TextRange) (v : Value) : Nat :=
  r.toList.countP fun (n : Nat) => v.equalsInt n

def contains (r : TextRange) (v : Value) : Bool :=
  r.toList.any fun (n : Nat) => v.equalsInt n

/-- A bound given from the end becomes one from the start. -/
def bound (n : Int) : Int := if n < 0 then n + 2 else n

/-- The first index, from `start` on and below `stop`, whose component equals the
    value. -/
def index (r : TextRange) (v : Value) (start : Int) (stop : Option Int) : Except Fault Nat :=
  let first := (max (bound start) 0).toNat
  let inside (i : Nat) : Bool := first ≤ i && stop.all fun s => decide ((i : Int) < bound s)
  match (r.toList.zipIdx.find? fun p => inside p.2 && v.equalsInt (p.1 : Int)) with
  | some p => .ok p.2
  | none => .error (.system .value none)

/-- Walk from an index by steps while it stays before the last one. -/
def walk : Nat → Int → Int → Int → List Nat
  | 0, _, _, _ => []
  | fuel + 1, i, last, step =>
    if (0 < step && i < last) || (step < 0 && last < i) then
      i.toNat :: walk fuel (i + step) last step
    else []

/-- The components at every `step`-th index between two bounds. -/
def slice (r : TextRange) (start stop step : Option Int) : Except Fault (List Nat) :=
  let step := step.getD 1
  if step == 0 then .error (.value "slice step cannot be zero")
  else
    -- The bounds of a slice are cut to where a walk of this direction can go.
    let (low, high) : Int × Int := if 0 < step then (0, 2) else (-1, 1)
    let clamp (n : Int) : Int := max low (min high (bound n))
    let first := match start with
      | some n => clamp n
      | none => if 0 < step then low else high
    let last := match stop with
      | some n => clamp n
      | none => if 0 < step then high else low
    .ok ((walk 2 first last step).filterMap fun i => r.toList[i]?)

end TextRange

end ActionEngine
