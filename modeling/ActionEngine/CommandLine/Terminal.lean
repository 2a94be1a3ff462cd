import ActionEngine.Citation.Manager
import ActionEngine.Journal.Basic
import ActionEngine.Secret.Vault

/-!
# The terminal

What a run of the program works with and leaves behind: the disk, the journal, what was
printed, what the chat service was asked for, and which URLs were opened. The world
around it does not change while it runs.
-/

namespace ActionEngine.CommandLine

/-- A chat service that gives the same answers to every request: a reply or chunks, and
    then a fault if there is one. -/
structure Service where
  reply : String := "ok"
  chunks : List String := []
  fault : Option Fault := none
  /-- It is told when it is not needed any more. -/
  closes : Bool := true
deriving Repr

/-- The world around the program. The time is given as the stamp of the journal's lines. -/
structure Host where
  environment : Environment := {}
  input : String := ""
  stamp : String := ""
  /-- What becomes of opening a URL. -/
  opening : Citation.Opening := .ok true
  /-- The service that takes the place of the one that the settings name. -/
  service : Option Service := none

inductive Call where
  | complete (system user : String) (budget : Nat)
  | stream (system user : String) (budget : Nat)
  | closed
deriving DecidableEq, Repr

structure Terminal where
  disk : Disk := {}
  entropy : Entropy := {}
  journal : Journal := {}
  output : String := ""
  errors : String := ""
  calls : List Call := []
  urls : List LooseText := []
deriving Repr

/-- A step of a run. What it has done remains done if it fails. -/
abbrev Running (α : Type) := ExceptT Fault (StateM Terminal) α

namespace Running

/-- A step that may fail and touches nothing. -/
def attempt {α : Type} (r : Except Fault α) : Running α := r

def print (s : String) : Running Unit :=
  modify fun t => { t with output := t.output ++ s }

/-- Print a line where errors are shown. -/
def complain (s : String) : Running Unit :=
  modify fun t => { t with errors := t.errors ++ s ++ "\n" }

def note (call : Call) : Running Unit :=
  modify fun t => { t with calls := t.calls ++ [call] }

def remark (host : Host) (log : Log) : Running Unit :=
  modify fun t =>
    let (disk, shown) := t.journal.takeAll host.stamp t.disk log
    { t with disk, errors := t.errors ++ shown }

/-- Set the journal up, and remark on it. -/
def setupJournal (host : Host) (debug force : Bool) : Running Unit := do
  let t ← get
  let (journal, disk) ← attempt
    (t.journal.setup host.environment t.disk (Journal.commandOptions debug force))
  modify fun t => { t with journal, disk }
  remark host (Journal.setupRemark debug)

/-- Carry out a step that keeps settings or secrets. The key of the vault is read again for
    every such step. -/
def keep {α : Type} (host : Host) (step : Keeping α) : Running α := do
  let t ← get
  let (result, shelf) := step.run { disk := t.disk, entropy := t.entropy }
  modify fun t => { t with disk := shelf.disk, entropy := shelf.entropy }
  remark host shelf.log
  attempt result

end Running

end ActionEngine.CommandLine
