import ActionEngine.Bus.Basic
import ActionEngine.Config.Remark
import ActionEngine.Registry.Snapshot

/-!
# The registry

The registry holds a baseline, a source of custom definitions and the current
snapshot. Reloading reads the source again; the host may also supply definitions of
its own. Either way a new snapshot replaces the current one as a whole, and then the
event is delivered.
-/

namespace ActionEngine

/-- The registry. The source is missing if there is none, and supplies no text if there
    is nothing to read. The revision counts the snapshots that were published. -/
structure Registry where
  baseline : List Action
  source : Option (Option String) := none
  snapshot : Registry.Snapshot
  revision : Nat := 0
deriving Repr

namespace Registry

def initial (baseline : List Action) (source : Option (Option String)) : Registry where
  baseline := baseline
  source := source
  snapshot := Snapshot.build baseline []

/-- An event together with the snapshot that is current when it is delivered. -/
structure Notice where
  event : Event
  current : Snapshot
deriving Repr

def applyCustom (r : Registry) (custom : List Action) : Registry × Notice :=
  let snapshot := Snapshot.build r.baseline custom
  let r := { r with snapshot, revision := r.revision + 1 }
  (r, { event := .actionsReloaded snapshot.size snapshot.customCount, current := r.snapshot })

def sourced (r : Registry) : List Action :=
  Config.parseActions (r.source.getD none)

def reload (r : Registry) : Registry × Notice :=
  r.applyCustom r.sourced

/-- The action of an id, which has to be known. -/
def actionFor (r : Registry) (id : String) : Except Fault Action :=
  match r.snapshot.get? id with
  | some action => .ok action
  | none => .error (.engine (.unknownAction id))

/-! ### Remarks -/

def applyRemarks (r : Registry) (custom : List Action) (observers : Nat) : Log :=
  let snapshot := Snapshot.build r.baseline custom
  buildRemarks r.baseline custom ++
    (if custom.isEmpty then []
     else Log.one .info logger ("Loaded " ++ toString snapshot.customCount ++
       " custom prompt(s); " ++ toString snapshot.size ++ " action(s) available")) ++
    Bus.publishRemark .actionsReloaded observers

def reloadRemarks (r : Registry) (observers : Nat) : Log :=
  Config.Parser.parseRemarks (r.source.getD none) ++ r.applyRemarks r.sourced observers

end Registry

end ActionEngine
