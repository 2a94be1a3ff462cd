import ActionEngine.CommandLine.Program

/-!
# The reach of a run

A run works on a disk that was looked at before. What it may read there follows from
its arguments and its environment, and for the file of actions also from its settings.
-/

namespace ActionEngine.CommandLine

def variableNames : List String :=
  Settings.fieldVariables.map (·.1) ++
    ["INKWELL_SETTINGS_PATH", "INKWELL_DEBUG", "INKWELL_LOG_LEVEL", "INKWELL_LOG_DIR"]

/-- The files of the settings: their own, the one of the vault's key, and the draft of both. -/
def settingsFiles (e : Environment) (a : Arguments) : List Path :=
  match settingsPath e a with
  | .error _ => []
  | .ok path => path :: [".key", ".tmp"].filterMap fun suffix => (path.withSuffix suffix).toOption

def journalFiles (e : Environment) : List Path :=
  match Journal.directory e none with
  | .error _ => []
  | .ok directory =>
    let file : Journal.File := { path := directory.child "inkwell.log", level := 0 }
    (List.range (file.backups.toNat + 1)).map file.numbered

/-- The file of actions that a run reads under some settings. -/
def actionFile (e : Environment) (a : Arguments) (s : Settings) : Option Path :=
  let checked : Option String := match a.command with
    | .check path => path
    | _ => none
  ((Config.source e
    (firstPresent [optional checked, optional a.actionsPath, s.get .actionsPath])).map
      Config.Source.path).toOption

def settingsOn (d : Disk) (e : Environment) (a : Arguments) : Settings :=
  let found : Except Fault (Settings.Store × Fields) := do
    let store ← Settings.Store.ofPath (← settingsPath e a)
    return (store, ← Settings.readEntries a.overrides)
  match found with
  | .error _ => .initial
  | .ok (store, overrides) =>
    match (Settings.Store.loadOrDefault store e overrides).run { disk := d } with
    | (.ok s, _) => s
    | (.error _, _) => .initial

/-- The text that an action is to work on has to be read, as the arguments do not give it. -/
def readsInput (a : Arguments) : Bool :=
  match a.command with
  | .run r => r.text.isNone
  | _ => false

end ActionEngine.CommandLine
