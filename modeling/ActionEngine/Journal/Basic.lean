import ActionEngine.Journal.File
import ActionEngine.Journal.Level

/-!
# The journal

The journal takes the records of the log. It writes them to a file and, if wanted, to
the console, each from a level of its own. Loggers of libraries that talk much count
from warnings on only. A journal that was never set up still shows warnings on the
console.
-/

namespace ActionEngine

/-- The journal: the level of the root, the level of the loggers that talk much (zero
    if it was never set), the file, the level of the console, and the path that was set
    up last. -/
structure Journal where
  level : Int := 30
  quietLevel : Int := 0
  file : Option Journal.File := none
  console : Option Int := none
  path : Option Path := none
deriving DecidableEq, Repr

namespace Journal

def noisyLoggers : List String := ["asyncio", "httpx", "httpcore", "openai"]

structure Options where
  level : Int := 20
  directory : Option String := none
  console : Bool := true
  consoleLevel : Option Int := none
  maxBytes : Int := 1000000
  backups : Int := 3
  force : Bool := false
deriving DecidableEq, Repr

/-! ### Setting up -/

/-- The directory of the journal: the one that is given, or that of the environment, or
    the default one. -/
def directory (e : Environment) (given : Option String) : Except Fault Path :=
  match (given.filter (· != "")).or (e.nonempty? "INKWELL_LOG_DIR") with
  | some s => (Path.ofText s).expandHome e.home
  | none => .ok (e.userDirectory.child "logs")

def fromRoot (d : Disk) (p : Path) : Except Fault Path :=
  match d.locate p with
  | .ok place => .ok { slashes := 1, parts := place }
  | .error reason => .error (reason.fault [p])

/-- Set the journal up. One that has been set up already is only changed by force. -/
def setup (j : Journal) (e : Environment) (d : Disk) (o : Options) :
    Except Fault (Journal × Disk) := do
  if j.path.isSome && !o.force then return (j, d)
  let level := levelFor e o.level
  let directory ← directory e o.directory
  let d ← d.ensureDirectory directory
  let path := directory.child "inkwell.log"
  let file : File :=
    { path := ← fromRoot d path, level, maxBytes := o.maxBytes, backups := o.backups }
  let d ← file.begin d
  let console := if o.console then some (max level (o.consoleLevel.getD level)) else none
  return ({ level, quietLevel := max 30 level, file := some file, console, path := some path }, d)

/-! ### Records -/

/-- The name of a logger; the root has none of its own. -/
def loggerName (logger : String) : String :=
  if logger == "" then "root" else logger

def levelOf (j : Journal) (logger : String) : Int :=
  let first := String.ofList (logger.toList.takeWhile (· != '.'))
  if noisyLoggers.contains first && j.quietLevel != 0 then j.quietLevel else j.level

def padded (width : Nat) (s : String) : String :=
  s ++ String.ofList (List.replicate (width - s.length) ' ')

def line (stamp : String) (level : Int) (logger message : String) : String :=
  stamp ++ " | " ++ padded 8 (levelName level) ++ " | " ++ loggerName logger ++ " | " ++ message ++
    "\n"

/-- Take a record: the disk after it, and what is shown on the console. A record without a
    positive level never counts. -/
def take (j : Journal) (stamp : String) (d : Disk) (level : Int) (logger message : String) :
    Disk × String :=
  if level ≤ 0 || level < j.levelOf logger then (d, "")
  else
    let line := line stamp level logger message
    match j.file, j.console with
    | none, none => (d, if 30 ≤ level then message ++ "\n" else "")
    | file, console =>
      (match file with
        | some f => if f.level ≤ level then f.add d line else d
        | none => d,
       if console.any (· ≤ level) then line else "")

def takeAll (j : Journal) (stamp : String) (d : Disk) (log : Log) : Disk × String :=
  log.foldl (fun acc r =>
    let (d, shown) := j.take stamp acc.1 r.level.number r.logger r.message
    (d, acc.2 ++ shown)) (d, "")

/-- The options of the command line: it shows warnings, or everything when debugging. -/
def commandOptions (debug force : Bool) : Options :=
  { level := if debug then 10 else 20, consoleLevel := some (if debug then 10 else 30), force }

def setupRemark (debug : Bool) : Log :=
  Log.one .debug "inkwell.app"
    ("Logging configured (level=" ++ levelName (if debug then 10 else 20) ++ ")")

end Journal

end ActionEngine
