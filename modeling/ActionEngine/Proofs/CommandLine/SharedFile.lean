import ActionEngine.Proofs.CommandLine.Secrecy

/-!
# The log in the settings file

Nothing keeps the settings file apart from the file of the log. A run for which they are one
file adds a line to the settings before it reads them, if it logs everything. They are no
document any more then, and the remark on that names the index at which the line starts. So it
tells how long the settings were, and with them the ciphertext.
-/

namespace ActionEngine

open Disk

namespace Journal

variable {j : Journal} {f : File} {d : Disk} {dir : Path} {place : Place} {name : String}
  {content : List UInt8} {console : Int}

/-- A line is added to a file that has room for it. -/
theorem File.add_of_room (there : d.DirectoryAt dir place) (entry : IsEntry name)
    (path : f.path = dir.child name) (file : d.node? (place ++ [name]) = some (.file content))
    {line : String} (room : (content.length + line.length : Int) < f.maxBytes) :
    f.add d line = d.put (place ++ [name]) (.file (content ++ Text.utf8Encode line.toList)) := by
  have held : f.content d = content := by
    unfold File.content
    rw [path, there.read entry file]
    rfl
  have roomy : f.isFull d line = false := by
    unfold File.isFull
    rw [held]
    simp
    omega
  unfold File.add
  dsimp only
  rw [roomy, if_neg (by decide), held, path, there.write entry (by simp [file])]
  rfl

/-- A record that counts is written to the file and shown on the console. -/
theorem take_counting (file : j.file = some f) (shown : j.console = some console) {level : Int}
    {logger : String} (positive : 0 < level) (counts : j.levelOf logger ≤ level)
    (written : f.level ≤ level) (enough : console ≤ level) (stamp message : String) :
    j.take stamp d level logger message =
      (f.add d (line stamp level logger message), line stamp level logger message) := by
  unfold take
  rw [if_neg (by simp; omega), file, shown]
  simp [written, enough]

end Journal

namespace CommandLine

open Running Settings Settings.Store Steps

/-! ### A journal in the working directory -/

def logHost : Host where
  environment := { values := [("INKWELL_LOG_DIR", ".")] }
  stamp := "12:00"

def logFile : Journal.File where
  path := Path.child { slashes := 1 } "inkwell.log"
  level := 10

def logJournal : Journal where
  level := 10
  quietLevel := 30
  file := some logFile
  console := some 10
  path := some (Path.child {} "inkwell.log")

/-- The working directory is the root of the disk, and the file of the log holds some bytes. -/
structure LogHolds (d : Disk) (content : List UInt8) : Prop where
  there : d.DirectoryAt {} []
  file : d.node? ["inkwell.log"] = some (.file content)

variable {d : Disk} {content : List UInt8}

theorem isEntry_log : IsEntry "inkwell.log" := ⟨by decide, by decide, by decide⟩

namespace LogHolds

theorem put (holds : LogHolds d content) (content' : List UInt8) :
    LogHolds (d.put ["inkwell.log"] (.file content')) content' where
  there := holds.there.mono (.put (by simp [holds.file]) _)
  file := by rw [node?_put (by decide), if_pos rfl]

theorem setup (holds : LogHolds d content) : ∃ d', LogHolds d' content ∧
    Journal.setup {} logHost.environment d (Journal.commandOptions true false) =
      .ok (logJournal, d') := by
  have found : Journal.directory logHost.environment none = .ok {} := by decide +kernel
  have level : Journal.levelFor logHost.environment 10 = 10 := by decide +kernel
  have rooted : Journal.fromRoot d (Path.child {} "inkwell.log") = .ok logFile.path := by
    unfold Journal.fromRoot
    rw [holds.there.locate isEntry_log]
    rfl
  have begun : logFile.begin d = .ok (d.put ["inkwell.log"] (.file content)) := by
    have root : d.DirectoryAt { slashes := 1 } [] := ⟨rfl, rfl⟩
    unfold Journal.File.begin Journal.File.content logFile
    rw [root.read isEntry_log holds.file]
    exact root.write isEntry_log (by simp [holds.file]) content
  refine ⟨_, holds.put content, ?_⟩
  unfold Journal.setup Journal.commandOptions
  dsimp only
  rw [if_neg (by decide), if_pos rfl, level, found]
  change (d.ensureDirectory {} >>= _) = _
  rw [holds.there.ensureDirectory]
  change (Journal.fromRoot d (Path.child {} "inkwell.log") >>= _) = _
  rw [rooted]
  change (logFile.begin d >>= _) = _
  rw [begun]
  rfl

theorem add (holds : LogHolds d content) (line : String)
    (room : content.length + line.length < 1000000) :
    LogHolds (logFile.add d line) (content ++ Text.utf8Encode line.toList) := by
  have root : d.DirectoryAt { slashes := 1 } [] := ⟨rfl, rfl⟩
  have added : logFile.add d line =
      d.put ["inkwell.log"] (.file (content ++ Text.utf8Encode line.toList)) := by
    apply Journal.File.add_of_room root isEntry_log rfl holds.file
    change _ < (1000000 : Int)
    omega
  rw [added]
  exact holds.put _

end LogHolds

theorem takeAll_logJournal (d : Disk) {level : Log.Level} {logger : String} (message : String)
    (counts : logJournal.levelOf logger ≤ level.number) :
    logJournal.takeAll logHost.stamp d (Log.one level logger message) =
      (logFile.add d (Journal.line logHost.stamp level.number logger message),
        Journal.line logHost.stamp level.number logger message) := by
  have low : (10 : Int) ≤ level.number := by cases level <;> decide
  unfold Journal.takeAll Log.one
  rw [List.foldl_cons, List.foldl_nil]
  dsimp only
  rw [Journal.take_counting rfl rfl (by omega) counts low low, String.empty_append]

/-! ### Settings in the file of the log -/

variable {chars : List Char} {v : Value} {t u : Shelf} {store : Store}

/-- The remark on settings with a second line. -/
def spoiledRemark (index : Nat) : String :=
  "Settings file inkwell.log is not valid JSON: " ++
    Json.Fault.message ⟨.extraData, 2, 1, index⟩

/-- A document on one line is spoiled by the line of the log behind it. -/
theorem read_spoiled {line : String} {c : Char} {more : List Char}
    (path : store.path = Path.child {} "inkwell.log") (reads : Json.ReadsAs chars v)
    (single : '\n' ∉ chars) (plain : '\r' ∉ chars) (spelled : line.toList = c :: more)
    (filled : Json.isSpace c = false) (plain' : '\r' ∉ line.toList)
    (holds : LogHolds t.disk
      (Text.utf8Encode (chars ++ ['\n']) ++ Text.utf8Encode line.toList)) :
    store.read.run t = (.ok [], { t with
      log := t.log ++ Log.one .warning Settings.logger (spoiledRemark (chars.length + 1)) }) := by
  obtain ⟨there, file⟩ := holds
  have content : Text.utf8Encode (chars ++ ['\n']) ++ Text.utf8Encode line.toList =
      Text.utf8Encode (String.ofList (chars ++ '\n' :: c :: more)).toList := by
    rw [String.toList_ofList, spelled, ← Text.utf8Encode_append, List.append_assoc,
      List.singleton_append]
  rw [content] at file
  have present : t.disk.has store.path = .ok true := by
    rw [path, there.has isEntry_log]
    simp [file]
  have text : t.disk.readText store.path = .ok (String.ofList (chars ++ '\n' :: c :: more)) := by
    rw [path]
    apply readText_encoded (there.read isEntry_log file)
    rw [spelled] at plain'
    rw [String.toList_ofList]
    simpa [plain] using plain'
  have named : Path.text (Path.child {} "inkwell.log") = "inkwell.log" := by decide +kernel
  have spoiled : Json.parse (String.ofList (chars ++ '\n' :: c :: more)) =
      .error ⟨.extraData, 2, 1, chars.length + 1⟩ :=
    Json.parse_of_second_line reads single filled
  unfold Store.read
  rw [run_bind_of_ok (by rw [Keeping.run_look, present]), if_neg (by decide),
    run_bind_of_ok (by rw [Keeping.run_look, text]), spoiled, path]
  dsimp only
  rw [named]
  rfl

theorem load_spoiled (read : store.read.run t = (.ok [], u)) :
    (store.loadOrDefault logHost.environment []).run t = (.ok initial, u) := by
  have fields : environmentFields logHost.environment = [] := by decide +kernel
  have remarks : environmentRemarks logHost.environment = [] := by decide +kernel
  have untouched (source : String) : override source initial [] = pure initial := rfl
  apply loadOrDefault_of_ok
  unfold load
  rw [run_bind_of_ok (loadFile_of_read read), fields, remarks, untouched, pure_bind]
  change (Except.ok initial, { u with log := u.log ++ [] }) = _
  rw [List.append_nil]

/-- Reporting the settings shows nothing where errors are shown. -/
theorem errors_carryOut {host : Host} {a : Arguments} (command : a.command = .settings)
    (store : Store) (given : Fields) (s : Settings) (t : Terminal) :
    ((carryOut host a store given s).run t).2.errors = t.errors := by
  unfold carryOut
  rw [command]
  dsimp only
  split
  · rw [pure_bind]
    split <;> rfl
  · split
    · rfl
    · rw [pure_bind]
      split <;> rfl

/-- A command line that makes the file of the log the settings file. -/
def logArguments : List String :=
  ["--debug", "--settings-path", "inkwell.log", "settings"]

def logCommand : Arguments where
  settingsPath := some "inkwell.log"
  debug := true
  command := .settings

theorem read_logArguments : Arguments.read logArguments = .ok logCommand := by decide +kernel

theorem settingsPath_logCommand :
    settingsPath logHost.environment logCommand = .ok (Path.child {} "inkwell.log") := by
  decide +kernel

theorem ofPath_log :
    Store.ofPath (Path.child {} "inkwell.log") = .ok (storeAt "inkwell.log" "inkwell.key") := by
  decide +kernel

def setupLine : String :=
  Journal.line logHost.stamp 10 "inkwell.app" "Logging configured (level=DEBUG)"

def spoiledLine (index : Nat) : String :=
  Journal.line logHost.stamp 30 Settings.logger (spoiledRemark index)

/-- Setting the journal up adds the first line to the settings. -/
theorem run_setup (holds : LogHolds d content) (room : content.length < 999900)
    (entropy : Entropy) :
    ∃ e, LogHolds e (content ++ Text.utf8Encode setupLine.toList) ∧
      (setupJournal logHost true false).run { disk := d, entropy } =
        (.ok (), { disk := e, entropy, journal := logJournal, errors := setupLine }) := by
  have size : setupLine.length < 100 := by decide +kernel
  obtain ⟨e, opened, made⟩ := holds.setup
  have taken : logJournal.takeAll logHost.stamp e (Journal.setupRemark true) =
      (logFile.add e setupLine, setupLine) :=
    takeAll_logJournal e _ (by decide +kernel)
  refine ⟨_, opened.add setupLine (by omega), ?_⟩
  rw [run_setupJournal (t := { disk := d, entropy }) made, run_remark]
  dsimp only
  rw [taken, String.empty_append]

/-- Loading the settings gives the defaults and shows where the settings ended. -/
theorem run_keep_spoiled {t : Terminal} (reads : Json.ReadsAs chars v) (single : '\n' ∉ chars)
    (plain : '\r' ∉ chars)
    (holds : LogHolds t.disk
      (Text.utf8Encode (chars ++ ['\n']) ++ Text.utf8Encode setupLine.toList))
    (journal : t.journal = logJournal) :
    ∃ u, (keep logHost ((storeAt "inkwell.log" "inkwell.key").loadOrDefault
        logHost.environment [])).run t = (.ok initial, u) ∧
      u.errors = t.errors ++ spoiledLine (chars.length + 1) := by
  have spelled : setupLine.toList =
      '1' :: "2:00 | DEBUG    | inkwell.app | Logging configured (level=DEBUG)\n".toList := by
    decide +kernel
  have read : (storeAt "inkwell.log" "inkwell.key").read.run
      { disk := t.disk, entropy := t.entropy } =
      (.ok [], { disk := t.disk
                 entropy := t.entropy
                 log := Log.one .warning Settings.logger (spoiledRemark (chars.length + 1)) }) :=
    read_spoiled rfl reads single plain spelled (by decide) (by decide +kernel) holds
  have taken : logJournal.takeAll logHost.stamp t.disk
      (Log.one .warning Settings.logger (spoiledRemark (chars.length + 1))) =
        (logFile.add t.disk (spoiledLine (chars.length + 1)), spoiledLine (chars.length + 1)) :=
    takeAll_logJournal t.disk _ (by decide +kernel)
  refine ⟨_, run_keep logHost (load_spoiled read), ?_⟩
  rw [run_remark]
  dsimp only
  rw [journal, taken]

/-- Where the settings file is the file of the log, the run shows how long it was. -/
theorem run_shows_length (holds : LogHolds d (Text.utf8Encode (chars ++ ['\n'])))
    (reads : Json.ReadsAs chars v) (single : '\n' ∉ chars) (plain : '\r' ∉ chars)
    (short : chars.length < 200000) (entropy : Entropy) :
    (run logHost logArguments { disk := d, entropy }).2.errors =
      setupLine ++ spoiledLine (chars.length + 1) := by
  have size := Text.length_utf8Encode_le (chars ++ ['\n'])
  rw [List.length_append, List.length_singleton] at size
  obtain ⟨e, appended, started⟩ := run_setup holds (by omega) entropy
  obtain ⟨t, loaded, shown⟩ := run_keep_spoiled reads single plain
    (t := { disk := e, entropy, journal := logJournal, errors := setupLine }) appended rfl
  have debug : (logCommand.debug || logHost.environment.flag "INKWELL_DEBUG") = true := rfl
  have none : readEntries logCommand.overrides = .ok [] := rfl
  unfold run
  rw [read_logArguments]
  unfold runWith
  dsimp only
  rw [debug, run_bind_of_ok started, settingsPath_logCommand, run_attempt_bind, ofPath_log,
    run_attempt_bind, none]
  dsimp only
  rw [run_bind_of_ok loaded, Bool.not_true, Bool.and_false, if_neg (by decide),
    errors_carryOut rfl, shown]

theorem length_cipherLine (key : String) : (cipherLine (cipherOfKey key)).length =
    33 + 4 * ((16 * ((Text.utf8Encode key.toList).length / 16 + 1) + 59) / 3) := by
  have first : Aes.IsBlock (List.replicate 16 0) := rfl
  have token := Fernet.length_sign zeroKey_isWhole first 0 (Text.utf8Encode key.toList)
  have cipher : (cipherOfKey key).toList = (Vault.scheme ++ ":").toList ++
      Fernet.sign zeroKey 0 (List.replicate 16 0) (Text.utf8Encode key.toList) := by
    unfold cipherOfKey
    rw [String.toList_append, String.toList_ofList]
  change ("\x7b\"api_key_ciphertext\": \"".toList ++
    ((cipherOfKey key).toList ++ "\"\x7d".toList)).length = _
  rw [cipher, List.length_append, List.length_append, List.length_append, token]
  change 24 + (7 + _ + 2) = _
  omega

/-- The settings file of a sample is the file of the log. -/
theorem run_cipherDisk_shows_length {key : String} {length : Nat}
    (size : (cipherLine (cipherOfKey key)).length = length) (short : length < 200000) :
    (run logHost logArguments
      { disk := cipherDisk "inkwell.log" "inkwell.key" (cipherOfKey key) }).2.errors =
        setupLine ++ spoiledLine (length + 1) := by
  have closed := cipherOfKey_sealed key
  have file : (cipherDisk "inkwell.log" "inkwell.key" (cipherOfKey key)).node? ["inkwell.log"] =
      some (.file (Text.utf8Encode (cipherLine (cipherOfKey key) ++ ['\n']))) := by
    simp [cipherDisk, Disk.node?]
  subst size
  exact run_shows_length ⟨⟨rfl, rfl⟩, file⟩ (readsAs_cipherLine closed)
    (not_mem_cipherLine closed (by decide) (by decide))
    (not_mem_cipherLine closed (by decide) (by decide)) short {}

/-- Opening the log spoils the settings file, and the remark on that tells how long the
    ciphertext is: blanks behind the key are not hidden. -/
theorem log_in_settings_file_betrays_key :
    (∃ a path, Arguments.read logArguments = .ok a ∧ a.command = .settings ∧
      settingsPath logHost.environment a = .ok path ∧
      Store.ofPath path = .ok (storeAt "inkwell.log" "inkwell.key")) ∧
    (storeAt "inkwell.log" "inkwell.key").SuppliesAlike
      (cipherDisk "inkwell.log" "inkwell.key" (cipherOfKey "sk-1"))
      (cipherDisk "inkwell.log" "inkwell.key" (cipherOfKey "sk-1                ")) ∧
    (run logHost logArguments
      { disk := cipherDisk "inkwell.log" "inkwell.key" (cipherOfKey "sk-1") }).2.errors ≠
    (run logHost logArguments
      { disk := cipherDisk "inkwell.log" "inkwell.key"
          (cipherOfKey "sk-1                ") }).2.errors := by
  refine ⟨⟨logCommand, Path.child {} "inkwell.log", read_logArguments, rfl,
    settingsPath_logCommand, ofPath_log⟩,
    cipherDisks_alike isEntry_log ⟨by decide, by decide, by decide⟩ (by decide)
      (cipherOfKey_sealed _) (cipherOfKey_sealed _)
      ⟨by decide +kernel, by decide +kernel, by decide +kernel⟩, ?_⟩
  have short : (cipherLine (cipherOfKey "sk-1")).length = 133 := by
    rw [length_cipherLine]
    decide +kernel
  have long : (cipherLine (cipherOfKey "sk-1                ")).length = 153 := by
    rw [length_cipherLine]
    decide +kernel
  rw [run_cipherDisk_shows_length short (by decide), run_cipherDisk_shows_length long (by decide)]
  decide +kernel

end CommandLine

end ActionEngine
