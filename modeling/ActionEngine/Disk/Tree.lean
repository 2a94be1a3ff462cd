import ActionEngine.Disk.Path
import ActionEngine.Text.Lines
import ActionEngine.Text.Utf8

/-!
# The disk

A disk is a tree of directories and files, with a working directory. What stands at a
place is looked up by the names of the directories that lead there, so double dots
are followed on the way and every directory on the way has to exist. Each operation
either gives the disk after it or the reason why it cannot be done.
-/

namespace ActionEngine

/-- A place on the disk: the names that lead there from the root. -/
abbrev Disk.Place := List String

inductive Disk.Node where
  | file (content : List UInt8)
  | directory
deriving DecidableEq, Repr

/-- The disk: what stands at the places below the root, and the working directory. -/
structure Disk where
  nodes : List (Disk.Place × Disk.Node) := []
  work : Disk.Place := []
deriving DecidableEq, Repr, Inhabited

namespace Disk

/-- Why an operation cannot be done. -/
inductive Reason where
  | missing
  | exists
  | notDirectory
  | isDirectory
  | longName
  | zeroByte
deriving DecidableEq, Repr

/-- A reason as a fault that names the paths it is about. -/
def Reason.fault (r : Reason) (paths : List Path) : Fault :=
  let named (kind : SystemKind) (text : String) : Fault :=
    .system kind (some (text ++ ": " ++
      String.intercalate " -> " (paths.map fun p => p.text.quotedText)))
  match r with
  | missing => named .fileNotFound "[Errno 2] No such file or directory"
  | .exists => named .fileExists "[Errno 17] File exists"
  | notDirectory => named .notDirectory "[Errno 20] Not a directory"
  | isDirectory => named .isDirectory "[Errno 21] Is a directory"
  | longName => named .os "[Errno 36] File name too long"
  | zeroByte => .value "embedded null byte"

def node? (d : Disk) (place : Place) : Option Node :=
  if place.isEmpty then some .directory else d.nodes.lookup place

def put (d : Disk) (place : Place) (node : Node) : Disk :=
  { d with nodes := (d.nodes.filter fun n => n.1 != place) ++ [(place, node)] }

def drop (d : Disk) (place : Place) : Disk :=
  { d with nodes := d.nodes.filter fun n => n.1 != place }

def maxName : Nat := 255

/-- Follow names from a place. Every place that is left behind has to be a directory. -/
def follow (d : Disk) : Place → List String → Except Reason Place
  | here, [] => .ok here
  | here, name :: rest =>
    match d.node? here with
    | none => .error .missing
    | some (.file _) => .error .notDirectory
    | some .directory =>
      if maxName < (Text.utf8Encode name.toList).length then .error .longName
      else d.follow (if name == ".." then here.dropLast else here ++ [name]) rest

def locate (d : Disk) (p : Path) : Except Reason Place :=
  if p.parts.any fun part => part.toList.contains '\x00' then .error .zeroByte
  else d.follow (if p.isAbsolute then [] else d.work) p.parts

/-! ### Reading -/

/-- Something stands where a path leads to. A path that leads nowhere is no fault, but a
    name that is too long is. -/
def has (d : Disk) (p : Path) : Except Fault Bool :=
  match d.locate p with
  | .ok place => .ok (d.node? place).isSome
  -- This reason alone is not taken for absence.
  | .error .longName => .error (Reason.longName.fault [p])
  | .error _ => .ok false

def read (d : Disk) (p : Path) : Except Fault (List UInt8) :=
  match d.locate p with
  | .error reason => .error (reason.fault [p])
  | .ok place =>
    match d.node? place with
    | some (.file content) => .ok content
    | some .directory => .error (Reason.isDirectory.fault [p])
    | none => .error (Reason.missing.fault [p])

def undecodable (f : Text.Utf8Fault) : Fault :=
  let bytes :=
    if f.stop = f.start + 1 then
      "byte 0x" ++ String.ofList (Text.hexDigits 2 f.first.toNat) ++ " in position " ++
        toString f.start
    else "bytes in position " ++ toString f.start ++ "-" ++ toString (f.stop - 1)
  .system .undecodable (some ("'utf-8' codec can't decode " ++ bytes ++ ": " ++
    match f.reason with
    | .badStart => "invalid start byte"
    | .badContinuation => "invalid continuation byte"
    | .tooShort => "unexpected end of data"))

/-- The text of a file: its bytes spell it in UTF-8, and every line ends with a line
    feed. -/
def readText (d : Disk) (p : Path) : Except Fault String := do
  match Text.utf8Decode (← d.read p) with
  | .ok s => .ok (String.ofList (Text.normaliseNewlines s))
  | .error f => .error (undecodable f)

/-- The files below a place, in the order of their names from there. -/
def filesBelow (d : Disk) (place : Place) : List (String × List UInt8) :=
  (d.nodes.filterMap fun n =>
    match n.2 with
    | .file content =>
      if place.isPrefixOf n.1 then
        some (String.intercalate "/" (n.1.drop place.length), content)
      else none
    | .directory => none).mergeSort fun a b => !(b.1 < a.1)

/-! ### Writing -/

/-- Write a file, in place of the one that stands there. -/
def write (d : Disk) (p : Path) (content : List UInt8) : Except Fault Disk :=
  match d.locate p with
  | .error reason => .error (reason.fault [p])
  | .ok place =>
    match d.node? place with
    | some .directory => .error (Reason.isDirectory.fault [p])
    | _ => .ok (d.put place (.file content))

/-- Make a directory where nothing stands yet. -/
def makeDirectory (d : Disk) (p : Path) : Except Reason Disk := do
  let place ← d.locate p
  if (d.node? place).isSome then .error .exists else .ok (d.put place .directory)

/-- A directory stands where a path leads to. -/
def hasDirectory (d : Disk) (p : Path) : Bool :=
  match d.locate p with
  | .ok place => d.node? place = some .directory
  | .error _ => false

/-- Make the directory of a path whose last names are given in reverse, and before it
    those above it that are missing. -/
def ensureReversed (slashes : Nat) (d : Disk) : List String → Except Fault Disk
  | [] =>
    if d.hasDirectory { slashes } then .ok d else .error (Reason.missing.fault [{ slashes }])
  | name :: above =>
    let p : Path := { slashes, parts := (name :: above).reverse }
    match d.makeDirectory p with
    | .ok d => .ok d
    -- The parent is missing: it is made first, and then this one is tried once more.
    | .error .missing => do
      let d ← ensureReversed slashes d above
      match d.makeDirectory p with
      | .ok d => .ok d
      | .error reason => if d.hasDirectory p then .ok d else .error (reason.fault [p])
    | .error reason => if d.hasDirectory p then .ok d else .error (reason.fault [p])

/-- See to it that a directory stands where a path leads to. -/
def ensureDirectory (d : Disk) (p : Path) : Except Fault Disk :=
  ensureReversed p.slashes d p.parts.reverse

def move (d : Disk) (source target : Path) : Except Fault Disk :=
  let both := [source, target]
  match d.locate source, d.locate target with
  | .error reason, _ => .error (reason.fault both)
  | _, .error reason => .error (reason.fault both)
  | .ok here, .ok there =>
    match d.node? here, d.node? there with
    | none, _ => .error (Reason.missing.fault both)
    | _, some .directory => .error (Reason.isDirectory.fault both)
    -- The old file at the target goes, and the source is taken away in the same step.
    | some node, _ => .ok (if here = there then d else (d.drop here).put there node)

def remove (d : Disk) (p : Path) : Except Fault Disk :=
  match d.locate p with
  | .error reason => .error (reason.fault [p])
  | .ok place =>
    match d.node? place with
    | some (.file _) => .ok (d.drop place)
    | some .directory => .error (Reason.isDirectory.fault [p])
    | none => .error (Reason.missing.fault [p])

end Disk

end ActionEngine
