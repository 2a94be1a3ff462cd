import ActionEngine.Chat.Provider
import ActionEngine.CommandLine.Arguments
import ActionEngine.CommandLine.Terminal
import ActionEngine.Config.Source
import ActionEngine.Coordinator.Session
import ActionEngine.Json.Printer
import ActionEngine.Registry.Store
import ActionEngine.Settings.Report

/-!
# The program

A run reads its arguments, sets up the journal, loads the settings and carries out one
command. It ends with an exit status, or with a fault that nothing dealt with.
-/

namespace ActionEngine.CommandLine

open Running

/-- The engine as a run needs it: the registry, the provider if one is configured, the
    service behind it, and the coordinator's setting. -/
structure Engine where
  registry : Registry
  service : Option Service
  setting : Coordinator.Setting
  scheme : Value

def firstPresent : List Value → Value
  | [] => .null
  | v :: rest => if v.isPresent then v else firstPresent rest

def optional (s : Option String) : Value := (s.map fun s => Value.text s).getD .null

/-! ### Citations -/

def citationUrl (scheme : Value) (query : LooseText) : Except Fault LooseText :=
  if !scheme.isPresent then Citation.searchUrl query ""
  else match scheme with
    | .text s => Citation.searchUrl query s
    | other => .error (.system .member
        (some ("'" ++ other.kind ++ "' object has no attribute 'strip'")))

/-- A search by the citation manager. -/
def citationSearch (host : Host) (scheme : Value) (query : LooseText) : Coordinator.Search :=
  match citationUrl scheme query with
  | .error fault => { fault := some fault }
  | .ok url =>
    let (log, fault) := Citation.handOver scheme.toText url host.opening
    { log, fault }

/-! ### The engine -/

/-- The service of a run: the one of the host, or the one of the settings, which nothing
    leads to; none if no key is configured. -/
def chooseService (host : Host) (s : Settings) : Running (Option Service) := do
  -- The settings of the client are checked even if the host has a service of its own.
  let client ← attempt s.client
  match host.service with
  | some service => return some service
  | none =>
    let (provider, log) ← attempt (Chat.Provider.ofSettings client (s.get .temperature))
    remark host log
    return provider.client.map fun _ =>
      { fault := some (.engine (Fault.unreachable "Connection error.").reported), closes := false }

def buildEngine (host : Host) (s : Settings) (actionsPath : Option String) : Running Engine := do
  let source ← attempt (Config.source host.environment
    (firstPresent [optional actionsPath, s.get .actionsPath]))
  let (log, text) ← attempt (source.text (← get).disk)
  remark host log
  let registry := Registry.initial Builtin.actions (some text)
  remark host (registry.reloadRemarks 0)
  let service ← chooseService host s
  let minimumReply ← attempt (Coordinator.Setting.budget (s.get .minimumReply))
  let streamBudget ← attempt (Coordinator.Setting.budget (s.get .streamBudget))
  let scheme := s.get .citationScheme
  return { registry := registry.reload.1, service, scheme
           setting := { handlers := 0, minimumReply, streamBudget
                        citations := some fun query => citationSearch host scheme query } }

/-! ### Commands -/

def actionLine (a : Action) : String :=
  let flags := (if a.needsSelection then [] else ["no selection"]) ++
    (if a.external then ["external"] else [])
  "  " ++ Journal.padded 36 a.id ++ " " ++ a.title ++
    (if flags.isEmpty then "" else "  [" ++ String.intercalate ", " flags ++ "]") ++ "\n"

/-- The list of the actions by category, all of them or those of one category. -/
def actionList (s : Registry.Snapshot) (category : Option String) : String :=
  let chosen : List Category := match category.filter (· != "") with
    | some word => s.categories.filter fun c => c.word == word
    | none => s.categories
  String.join (chosen.map fun c =>
    c.title ++ "\n" ++ String.join ((s.actionsOf c).map actionLine))

/-- Read a file of actions and report what it holds. -/
def check (host : Host) (given : Value) : Running Nat := do
  let source ← attempt (Config.source host.environment given)
  let (log, text) ← attempt (source.text (← get).disk)
  remark host log
  match text with
  | none =>
    complain ("No readable actions file at " ++ source.path.text)
    return 1
  | some text =>
    let p := Config.Parser.parse (some text)
    remark host (Config.Parser.parseRemarks (some text))
    for a in p.actions do
      print (a.id ++ ": " ++ a.title ++ "\n")
    print (toString p.actions.length ++ " action(s) parsed, " ++ toString p.skipped ++
      " skipped from " ++ source.path.text ++ "\n")
    return if p.skipped == 0 then 0 else 1

def runName : String := "run"

def serviceItems (service : Service) (stream : Bool) : List Coordinator.Item :=
  let last : Coordinator.Item := match service.fault with
    | some fault => .fault fault
    | none => if stream then .ending else .text service.reply
  if stream then service.chunks.map .text ++ [last] else [last]

/-- The session of a run, from its start to the end of the invocation: the session then,
    the requests that it saw, and what came of it. -/
def invoke (engine : Engine) (i : Coordinator.Invocation) (stream : Bool) :
    Coordinator.Session :=
  let supply : Coordinator.Supply := if engine.service.isSome then .queued else .missing
  let items := (engine.service.map fun service => serviceItems service stream).getD []
  -- All answers are in the queue before the invocation starts.
  let start : Coordinator.Session :=
    { setting := engine.setting, supply, queues := items.map fun item => (runName, item) }
  if stream then ((start.run (.stream runName i)).1.run (.consume runName [])).1
  else (start.run (.execute runName i)).1

/-- The texts that a list of outcomes shows in turn, each by what it adds to the one
    before. -/
def printed : List Coordinator.Outcome → Nat → String
  | [], _ => ""
  | .shown _ (.yielded s) :: rest, seen =>
    String.ofList (s.text.toList.drop seen) ++ printed rest s.text.length
  | .shown _ (.returned s) :: rest, seen =>
    String.ofList (s.text.toList.drop seen) ++ printed rest s.text.length
  | _ :: rest, seen => printed rest seen

/-- The fault that a list of outcomes ends with, if it does. -/
def faultOf? : List Coordinator.Outcome → Option Fault
  | [] => none
  | .shown _ (.raised fault _) :: _ => some fault
  | _ :: rest => faultOf? rest

def noteRequests (engine : Engine) (calls : List (String × Coordinator.Output)) :
    Running Unit := do
  for call in calls do
    match call.2 with
    | .complete system user budget => note (.complete system user budget)
    | .stream system user budget => note (.stream system user budget)
    | .citation query =>
      match citationUrl engine.scheme query with
      | .ok url => modify fun t => { t with urls := t.urls ++ [url] }
      | .error _ => pure ()
    | _ => pure ()

/-- Report a fault of a run. A signal is no failure; a fault that is none of the engine's
    is left to others. -/
def reportFault (fault : Fault) : Running Nat := do
  match fault with
  | .engine e =>
    if e.isFailure then
      complain ("Error: " ++ e.message)
      if e.suggestion != "" then complain e.suggestion
      return 1
    else
      complain e.message
      return 0
  | other => throw other

def runAction (host : Host) (engine : Engine) (r : RunArguments) : Running Nat := do
  match engine.registry.actionFor r.action with
  | .error fault => reportFault fault
  | .ok action =>
    let text := r.text.getD host.input
    let context : DocumentContext :=
      { selection := some text, paragraph := r.paragraph, title := r.title, heading := r.heading }
    let s := invoke engine { action, selection := text, context := some context } r.stream
    noteRequests engine s.calls
    print (printed s.outcomes 0)
    match faultOf? s.outcomes with
    -- The text that was shown so far stays printed.
    | some fault =>
      remark host s.floor.desk.log
      reportFault fault
    | none =>
      print "\n"
      -- The suggestion is accepted at once: nobody is there to be asked.
      remark host (s.run (.control .accept)).1.floor.desk.log
      return 0

/-- Tell the service that it is not needed any more. -/
def closeService (engine : Engine) : Running Unit := do
  if engine.service.any Service.closes then note .closed

/-! ### The whole run -/

/-- Where the settings of a run are kept: where its arguments or the environment say, or at
    the default place. -/
def settingsPath (e : Environment) (a : Arguments) : Except Fault Path :=
  match (a.settingsPath.filter (· != "")).or (e.nonempty? "INKWELL_SETTINGS_PATH") with
  | some s => (Path.ofText s).expandHome e.home
  | none => .ok (Settings.Store.defaultPath e)

def carryOut (host : Host) (a : Arguments) (store : Settings.Store) (overrides : Fields)
    (s : Settings) : Running Nat := do
  match a.command with
  | .settings =>
    -- Only a text can be shown by its ends.
    let key ← match s.get .apiKey with
      | .text key => pure key
      | v => if v.isPresent then throw (.system .member
          (some ("'" ++ v.kind ++ "' object has no attribute 'strip'"))) else pure ""
    let report := s.report (Settings.redacted key) store host.environment overrides
    match Json.render ⟨true, false, true⟩ report with
    | .ok text => print (text ++ "\n")
    | .error refusal => throw refusal.fault
    return 0
  | .check path =>
    check host (firstPresent [optional path, optional a.actionsPath, s.get .actionsPath])
  | .list category =>
    let engine ← buildEngine host s a.actionsPath
    print (actionList engine.registry.snapshot category)
    return 0
  | .run r =>
    let engine ← buildEngine host s a.actionsPath
    try
      let status ← runAction host engine r
      closeService engine
      return status
    catch fault =>
      closeService engine
      throw fault

def runWith (host : Host) (a : Arguments) : Running Nat := do
  let e := host.environment
  let debug := a.debug || e.flag "INKWELL_DEBUG"
  setupJournal host debug false
  let path ← attempt (settingsPath e a)
  let store ← attempt (Settings.Store.ofPath path)
  match Settings.readEntries a.overrides with
  | .error fault =>
    complain ("Invalid --set override: " ++ fault.text)
    return 2
  | .ok overrides =>
    let s ← keep host (store.loadOrDefault e overrides)
    -- The journal was set up before the settings could be read, so it is set up again.
    if (s.get .debugLogging).isPresent && !debug then setupJournal host true true
    carryOut host a store overrides s

/-- A run from its command line: the exit status, or the fault it ends with, and the
    terminal. Wrong arguments give the status 2. -/
def run (host : Host) (arguments : List String) (t : Terminal) : Except Fault Nat × Terminal :=
  match Arguments.read arguments with
  | .ok a => (runWith host a).run t
  | .error ⟨_, .help⟩ => (.ok 0, t)
  | .error ⟨program, .wrong message⟩ =>
    (.ok 2, { t with errors := t.errors ++ program ++ ": error: " ++ message ++ "\n" })

end ActionEngine.CommandLine
