import ActionEngine.CommandLine.Reach
import Std.Time.Zoned

/-!
# The executable

The files that a run may read are loaded, the run is carried out on them, and what it
has changed is written back. The executable opens no connection and starts no other
program: an action that needs the chat service ends as if nothing could be reached, and
a search for a citation as if no program had taken it.
-/

namespace ActionEngine.Executable

open CommandLine

/-! ### The real disk -/

def placeName (place : Disk.Place) : String :=
  Path.text { slashes := 1, parts := place }

/-- What stands at a place. Whatever cannot be looked at counts as missing. -/
def look (place : Disk.Place) : IO (Option Disk.Node) := do
  try
    return some (.file (← IO.FS.readBinFile (placeName place)).toList)
  catch
    | .inappropriateType .. => return some .directory
    | _ => return none

/-- Load what stands at the places on a way, up to the first that is no directory. -/
def survey (d : Disk) (here : Disk.Place) : List String → IO Disk
  | [] => return d
  | name :: rest => do
    let here := if name == ".." then here.dropLast else here ++ [name]
    match ← (if here.isEmpty then pure (some .directory) else look here) with
    | some .directory => survey (if here.isEmpty then d else d.put here .directory) here rest
    | some node => return d.put here node
    | none => return d

def surveyAll (d : Disk) (paths : List Path) : IO Disk :=
  paths.foldlM (fun d p => survey d (if p.isAbsolute then [] else d.work) p.parts) d

/-- Write what has changed from one disk to another. A new file is for its owner alone. -/
def writeBack (before after : Disk) : IO Unit := do
  for (place, node) in after.nodes do
    if before.node? place != some node then
      match node with
      | .directory => IO.FS.createDirAll (placeName place)
      | .file content =>
        IO.FS.writeBinFile (placeName place) ⟨content.toArray⟩
        if (before.node? place).isNone then
          IO.setAccessRights (placeName place) { user := { read := true, write := true } }
  for (place, node) in before.nodes do
    if node != .directory && (after.node? place).isNone then
      IO.FS.removeFile (placeName place)

/-! ### The world around a run -/

def processEnvironment : IO Environment := do
  let values ← variableNames.filterMapM fun name => do
    return (← IO.getEnv name).map fun value => (name, value)
  return { values, home := Path.ofText ((← IO.getEnv "HOME").getD "/") }

def digits (width : Nat) (n : Int) : String :=
  let s := toString n.toNat
  String.ofList (List.replicate (width - s.length) '0') ++ s

/-- The present time as the stamp of the journal's lines. -/
def presentStamp : IO String := do
  let now ← Std.Time.PlainDateTime.now
  let (date, time) := (now.date, now.time)
  return String.intercalate "-"
      [digits 4 date.year.toInt, digits 2 date.month.val, digits 2 date.day.val] ++ " " ++
    String.intercalate ":" [digits 2 time.hour.val, digits 2 time.minute.val,
      digits 2 time.second.val]

partial def readAll (input : IO.FS.Stream) (seen : String) : IO String := do
  let line ← input.getLine
  if line == "" then return seen else readAll input (seen ++ line)

def diskFor (e : Environment) (a : Arguments) : IO Disk := do
  let work := (Path.ofText (← IO.currentDir).toString).parts
  let d ← survey { work } [] work
  let d ← surveyAll d (e.home :: settingsFiles e a ++ journalFiles e)
  surveyAll d (actionFile e a (settingsOn d e a)).toList

/-! ### The run -/

/-- Carry out a run and write back what it has changed. -/
def runOnDisk (arguments : List String) (a : Arguments) : IO UInt32 := do
  let environment ← processEnvironment
  let disk ← diskFor environment a
  let input ← if readsInput a then readAll (← IO.getStdin) "" else pure ""
  let seed := (← IO.getRandomBytes 32).toList
  let time := (← Std.Time.Timestamp.now).toSecondsSinceUnixEpoch.val.toNat
  let host : Host := { environment, input, stamp := ← presentStamp, opening := .ok false }
  let (result, t) := CommandLine.run host arguments { disk, entropy := { seed, time } }
  writeBack disk t.disk
  IO.print t.output
  IO.eprint t.errors
  match result with
  | .ok status => return status.toUInt32
  | .error fault =>
    IO.eprintln (programName ++ ": " ++ fault.name ++ ": " ++ fault.text)
    return 1

end ActionEngine.Executable

open ActionEngine ActionEngine.CommandLine in
/-- The program: its exit status is 2 if its arguments are wrong. -/
def main (arguments : List String) : IO UInt32 := do
  match Arguments.read arguments with
  | .ok a => Executable.runOnDisk arguments a
  | .error ⟨program, .help⟩ =>
    IO.println (usage program)
    return 0
  | .error _ =>
    let (_, t) := CommandLine.run {} arguments {}
    IO.eprint t.errors
    return 2
