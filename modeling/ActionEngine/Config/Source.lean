import ActionEngine.Disk.Tree
import ActionEngine.Environment
import ActionEngine.Log

/-!
# Where custom actions come from

Custom actions stand in a file. A missing file means that nothing is customised; a
file that cannot be read is reported and counts as missing, so that it never takes
the built-in actions away.
-/

namespace ActionEngine.Config

def loaderLogger : String := "inkwell.actions.loader"

/-- The path of the user's own file of actions: a variable may name another one. -/
def defaultPath (e : Environment) : Except Fault Path :=
  match e.nonempty? "INKWELL_ACTIONS_PATH" with
  | some s => (Path.ofText s).expandHome e.home
  | none => .ok (e.userDirectory.child "ai-prompts.yaml")

/-- Where custom actions are looked for. No file has a path with a half of a character in it. -/
structure Source where
  path : Path
  nameable : Bool := true
deriving DecidableEq, Repr

/-- The path of the file of actions: the one that is given, or the default one. -/
def source (e : Environment) (given : Value) : Except Fault Source :=
  if given.isPresent then do
    let path ← (← Path.ofValue given).expandHome e.home
    .ok { path, nameable := given.isWhole }
  else (defaultPath e).map fun path => { path }

/-- The text of the file of actions, if it can be read. -/
def Source.text (d : Disk) (s : Source) : Except Fault (Log × Option String) := do
  if s.nameable && (← d.has s.path) then
    match d.readText s.path with
    | .ok text => .ok ([], some text)
    | .error fault => .ok (Log.one .warning loaderLogger
        ("Failed to read custom prompts from " ++ s.path.text ++ ": " ++ fault.text), none)
  else .ok (Log.one .info loaderLogger
    ("No custom prompts found at " ++ s.path.text ++ ", using built-in actions"), none)

end ActionEngine.Config
