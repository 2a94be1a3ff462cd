import ActionEngine.CommandLine.Program
import ActionEngine.Proofs.Journal.Twins
import ActionEngine.Proofs.Settings.Secrecy

/-!
# The settings command hides the API key

Two runs of the settings command whose API keys look the same when they are masked cannot be
told apart, whether the keys are stored in encrypted form, set by variables of the environment or
given as entries: they end with the same status, print the same, and write the same to the log.
The settings file must not be the file of the log, which is written before it is read.
-/

namespace ActionEngine.CommandLine

open Disk Running Settings Settings.Store Steps

/-! ### What the two runs start from -/

/-- The disks are the same, or they supply API keys that look the same and differ in nothing
    else. Then the settings file is not the file of the journal. -/
inductive DisksAlike (e : Environment) (a : Arguments) : Disk → Disk → Prop
  | same (d : Disk) : DisksAlike e a d d
  | stored {path : Path} {store : Store} {d d' : Disk} (found : settingsPath e a = .ok path)
    (opened : Store.ofPath path = .ok store) (supplied : store.SuppliesAlike d d')
    (apart : ∀ dir, Journal.directory e none = .ok dir →
      destination d.work store.path ≠ Journal.filePlace d.work dir 0) : DisksAlike e a d d'

variable {e e' : Environment} {a : Arguments} {d d' : Disk} {x : Difference} {dir : Path}
  {base : Disk}

theorem directory_alike (alike : EnvironmentAlike e e') :
    Journal.directory e' none = Journal.directory e none := by
  unfold Journal.directory
  rw [alike.nonempty? (by decide), alike.home, alike.userDirectory]

theorem levelFor_alike (alike : EnvironmentAlike e e') (level : Int) :
    Journal.levelFor e' level = Journal.levelFor e level := by
  unfold Journal.levelFor
  rw [alike.get?_of_ne (by decide)]

theorem settingsPath_alike (alike : EnvironmentAlike e e') (a : Arguments)
    (entries : List String) :
    settingsPath e' { a with overrides := entries } = settingsPath e a := by
  unfold settingsPath Settings.Store.defaultPath
  rw [alike.nonempty? (by decide), alike.home, alike.userDirectory]

/-- The disks differ in one file, which is not the journal's, and however the journal has been
    set up, the settings are loaded alike. -/
structure LoadsAlike (e : Environment) (a : Arguments) (x : Difference) (d d' : Disk) : Prop where
  twins : Twins x d d'
  apart : ∀ dir, Journal.directory e none = .ok dir → x.pin ≠ Journal.filePlace x.work dir 0
  loads : ∀ {path store dir disk disk'}, settingsPath e a = .ok path →
    Store.ofPath path = .ok store → Journal.directory e none = .ok dir →
    Journal.Parted dir x d disk disk' → ∀ entropy, ∃ pin, pin ≠ Journal.filePlace x.work dir 0 ∧
      Ends AllVeiled (PartedAt { x with pin }) (store.loadFile.run { disk, entropy })
        (store.loadFile.run { disk := disk', entropy })

/-- One disk and the same disk differ in nothing, which is at no file's place. -/
theorem loadsAlike_of_same (e : Environment) (a : Arguments) (d : Disk) :
    LoadsAlike e a ⟨d.work, [], [], []⟩ d d where
  twins := .of_same rfl rfl fun _ => rfl
  apart dir _ := by simp [Journal.filePlace]
  loads := by
    rintro path store dir disk disk' - opened - ⟨-, pin, held, twins⟩ entropy
    refine ⟨pin, ?_, ?_⟩
    · rcases held with rfl | ⟨n, rfl⟩
      · simp [Journal.filePlace]
      · exact Journal.filePlace_succ_ne _ _ n
    · rw [← ofSite_siteOf opened]
      exact loadFile_agreeing ⟨twins, rfl, rfl, rfl⟩ (twins.node?_eq rfl)

/-! ### A key that is stored -/

section Stored

variable {site : Vault.Site} {place : Place} {disk disk' : Disk}

theorem key_ne_fileName (site : Vault.Site) (n : Nat) : site.key ≠ Journal.fileName n := by
  have last : site.key.toList.getLast? = some 'y' := by
    simp [Vault.Site.key, List.getLast?_append]
  exact (Journal.fileName_ne n last (by decide) (by decide)).symm

theorem draft_ne_fileName (site : Vault.Site) (n : Nat) : site.draft ≠ Journal.fileName n := by
  have last : site.draft.toList.getLast? = some 'p' := by
    simp [Vault.Site.draft, List.getLast?_append]
  exact (Journal.fileName_ne n last (by decide) (by decide)).symm

theorem filePlace_ne {name : String} (other : ∀ n, name ≠ Journal.fileName n) (work place : Place)
    (dir : Path) (n : Nat) : place ++ [name] ≠ Journal.filePlace work dir n :=
  fun same => other n (List.singleton_inj.1 (List.append_inj' same rfl).2)

/-- If the settings files are where they were, the key file is there, too. -/
theorem loadFile_unmoved (supplied : (ofSite site).SuppliesAlike d d')
    (spares : Spares (fun place => ∃ n, place = Journal.filePlace x.work dir n) d disk)
    (twins : Twins x disk disk') (pin : x.pin = place ++ [site.name])
    (there : d.DirectoryAt site.dir place) (named : IsEntry site.name)
    (name : disk.node? x.pin = d.node? x.pin) (name' : disk'.node? x.pin = d'.node? x.pin)
    (entropy : Entropy) :
    Ends AllVeiled (PartedAt x) ((ofSite site).loadFile.run { disk, entropy })
      ((ofSite site).loadFile.run { disk := disk', entropy }) := by
  cases located : disk.locate (ofSite site).path with
  | error reason =>
      refine loadFile_unreached twins (fun place reached => ?_) rfl
      cases located.symm.trans reached
  | ok other =>
      have same : other = place ++ [site.name] := by
        rw [eq_destination located, spares.work]
        exact (eq_destination (there.locate named)).symm
      obtain ⟨above, there', -, here⟩ := DirectoryAt.of_locate named.below located
      obtain rfl : above = place := (List.append_inj' (here.symm.trans same) rfl).1
      have keyFile : disk.node? (above ++ [site.key]) = d.node? (above ++ [site.key]) := by
        obtain ⟨-, -, supplies, -, -, -⟩ := supplied
        obtain ⟨bytes, keyFile⟩ := supplies.keyFile there
        rw [keyFile]
        refine spares.kept _ _ ?_ keyFile
        rintro ⟨n, same⟩
        exact filePlace_ne (key_ne_fileName site) _ _ _ n same
      refine loadFile_supplied twins ?_
        (supplied.congr twins pin there there' name name' keyFile) rfl rfl rfl
      rw [pin, ← same, eq_destination located, twins.work]

/-- If the journal has moved the settings files away, none is read. -/
theorem avoids_of_moved {n : Nat} (pin : x.pin = Journal.filePlace x.work dir n)
    (moved : destination x.work (ofSite site).path ≠ x.pin) : site.Avoids x where
  name := moved
  key := by
    have below : site.key ≠ ".." := ne_above (by decide)
    rw [pin, destination_child _ _ below]
    exact filePlace_ne (key_ne_fileName site) _ _ _ n
  draft := by
    rw [pin, destination_child _ _ site.draft_ne_above]
    exact filePlace_ne (draft_ne_fileName site) _ _ _ n

theorem loadsAlike_of_stored {path : Path} {store : Store} (found : settingsPath e a = .ok path)
    (opened : Store.ofPath path = .ok store) (supplied : store.SuppliesAlike d d')
    (apart : ∀ dir, Journal.directory e none = .ok dir →
      destination d.work store.path ≠ Journal.filePlace d.work dir 0) :
    ∃ x, LoadsAlike e a x d d' := by
  generalize siteOf opened = site, ofSite_siteOf opened = same
  subst same
  obtain ⟨place, content, content', there, named, file, file', twins⟩ := supplied.twins
  have here : destination d.work (ofSite site).path = place ++ [site.name] :=
    (eq_destination (there.locate named)).symm
  refine ⟨⟨d.work, place ++ [site.name], content, content'⟩, twins,
    fun dir at_dir => here ▸ apart dir at_dir, ?_⟩
  rintro path' store' dir disk disk' found' opened' at_dir ⟨spares, pin, held, twins'⟩ entropy
  obtain rfl : store' = ofSite site := by
    cases found.symm.trans found'
    exact Except.ok.inj (opened'.symm.trans opened)
  by_cases moved : pin = place ++ [site.name]
  · subst moved
    refine ⟨_, here ▸ apart dir at_dir, ?_⟩
    rcases twins'.pinned with same | ⟨left, left'⟩
    · have agree (other : Place) : disk'.node? other = disk.node? other := by
        by_cases pinned : other = place ++ [site.name]
        · rw [pinned, same]
        · exact twins'.same other pinned
      exact loadFile_agreeing ⟨twins', rfl, rfl, rfl⟩ agree
    · exact loadFile_unmoved supplied spares twins' rfl there named (left.trans file.symm)
        (left'.trans file'.symm) entropy
  · -- The journal has taken the settings file for a backup and moved it on.
    obtain ⟨n, rfl⟩ := held.resolve_left moved
    refine ⟨_, Journal.filePlace_succ_ne _ _ n, ?_⟩
    exact loadFile_avoiding ⟨twins', rfl, rfl, rfl⟩
      (avoids_of_moved rfl fun same => moved (same.symm.trans here))

end Stored

theorem DisksAlike.loads (alike : DisksAlike e a d d') : ∃ x, LoadsAlike e a x d d' := by
  cases alike with
  | same => exact ⟨_, loadsAlike_of_same e a d⟩
  | stored found opened supplied apart => exact loadsAlike_of_stored found opened supplied apart

/-! ### Two terminals -/

/-- Two terminals show the same and have the same journal. Their disks differ in one file, which
    is not the journal's. -/
structure TerminalsAlike (dir : Path) (x : Difference) (base : Disk) (t t' : Terminal) : Prop where
  shown : ∃ disk entropy, t' = { t with disk, entropy }
  inside : t.journal.IsIn x.work dir
  apart : x.pin ≠ Journal.filePlace x.work dir 0
  disk : Journal.Parted dir x base t.disk t'.disk

/-- The terminals show the same, whatever their disks differ in. -/
def ShowAlike (dir : Path) (t t' : Terminal) : Prop :=
  ∃ x base, TerminalsAlike dir x base t t'

variable {host : Host} {t t' : Terminal}

theorem run_remark (host : Host) (log : Log) (t : Terminal) : (remark host log).run t =
    (.ok (), { t with disk := (t.journal.takeAll host.stamp t.disk log).1
                      errors := t.errors ++ (t.journal.takeAll host.stamp t.disk log).2 }) :=
  rfl

theorem run_attempt_bind {α β : Type} (a : α) (next : α → Running β) (t : Terminal) :
    (attempt (.ok a) >>= next).run t = (next a).run t :=
  rfl

theorem run_keep {α : Type} (host : Host) {step : Keeping α} {result : Except Fault α} {u : Shelf}
    (ran : step.run { disk := t.disk, entropy := t.entropy } = (result, u)) :
    (keep host step).run t =
      (result, ((remark host u.log).run { t with disk := u.disk, entropy := u.entropy }).2) := by
  unfold keep
  rw [run_get_bind, ran]
  rfl

theorem remark_alike (host : Host) (alike : TerminalsAlike dir x base t t') (log : Log) :
    Ends Eq (TerminalsAlike dir x base) ((remark host log).run t)
      ((remark { host with environment := e' } log).run t') := by
  obtain ⟨⟨disk, entropy, rfl⟩, inside, apart, parted⟩ := alike
  obtain ⟨left, same⟩ := parted.takeAll apart inside host.stamp log
  rw [run_remark, run_remark]
  dsimp only at left same ⊢
  exact ⟨.ok rfl, ⟨_, entropy, by rw [same]⟩, inside, apart, left⟩

section Setup

variable {debug force : Bool} {journal : Journal} {fault : Fault}

theorem run_setupJournal (made : t.journal.setup host.environment t.disk
    (Journal.commandOptions debug force) = .ok (journal, d)) :
    (setupJournal host debug force).run t =
      (remark host (Journal.setupRemark debug)).run { t with journal, disk := d } := by
  unfold setupJournal
  rw [run_get_bind, made]
  rfl

theorem run_setupJournal_of_error (failed : t.journal.setup host.environment t.disk
    (Journal.commandOptions debug force) = .error fault) :
    (setupJournal host debug force).run t = (.error fault, t) := by
  unfold setupJournal
  rw [run_get_bind, failed]
  rfl

/-- A journal without a directory cannot be set up. -/
theorem setupJournal_homeless (fresh : t.journal.path = none)
    (homeless : Journal.directory host.environment none = .error fault) :
    (setupJournal host debug force).run t = (.error fault, t) := by
  apply run_setupJournal_of_error
  unfold Journal.setup
  rw [fresh]
  change (Journal.directory host.environment none >>= _) = _
  rw [homeless]
  rfl

theorem setupJournal_alike (alike : TerminalsAlike dir x base t t')
    (environments : EnvironmentAlike host.environment e')
    (found : Journal.directory host.environment none = .ok dir) (debug force : Bool) :
    Ends Eq (TerminalsAlike dir x base) ((setupJournal host debug force).run t)
      ((setupJournal { host with environment := e' } debug force).run t') := by
  obtain ⟨⟨disk, entropy, rfl⟩, inside, apart, parted⟩ := alike
  have matching := parted.setup apart inside (o := Journal.commandOptions debug force) found
    ((directory_alike environments).trans found) (levelFor_alike environments _)
  cases made : t.journal.setup host.environment t.disk (Journal.commandOptions debug force) with
  | error fault =>
      rw [made] at matching
      generalize failed : t.journal.setup e' disk _ = result at matching
      cases matching
      rw [run_setupJournal_of_error made, run_setupJournal_of_error failed]
      exact ⟨.error fault, ⟨disk, entropy, rfl⟩, inside, apart, parted⟩
  | ok first =>
      rw [made] at matching
      generalize made' : t.journal.setup e' disk _ = result at matching
      cases matching with
      | @ok _ second related =>
          obtain ⟨_, d⟩ := first
          obtain ⟨journal, d'⟩ := second
          obtain ⟨rfl, inside, parted⟩ := related
          rw [run_setupJournal made, run_setupJournal made']
          have settled : TerminalsAlike dir x base { t with journal, disk := d }
              { t with journal, disk := d', entropy } :=
            ⟨⟨d', entropy, rfl⟩, inside, apart, parted⟩
          exact remark_alike host settled (Journal.setupRemark debug)

end Setup

theorem keep_alike {R : Settings → Settings → Prop} {step step' : Keeping Settings}
    (alike : TerminalsAlike dir x base t t') (pin : Place)
    (apart : pin ≠ Journal.filePlace x.work dir 0)
    (ends : Ends R (PartedAt { x with pin }) (step.run { disk := t.disk, entropy := t.entropy })
      (step'.run { disk := t'.disk, entropy := t'.entropy })) :
    Ends R (ShowAlike dir) ((keep host step).run t)
      ((keep { host with environment := e' } step').run t') := by
  obtain ⟨⟨disk, entropy, rfl⟩, inside, -, -⟩ := alike
  rcases ran : step.run { disk := t.disk, entropy := t.entropy } with ⟨result, u⟩
  rcases ran' : step'.run { disk, entropy } with ⟨result', u'⟩
  rw [run_keep host ran, run_keep (t := { t with disk, entropy }) _ ran']
  dsimp only at ends ⊢
  rw [ran, ran'] at ends
  obtain ⟨related, log, y, work, rfl, twins⟩ := ends
  dsimp only at log twins
  have settled : TerminalsAlike dir y u.disk { t with disk := u.disk, entropy := u.entropy }
      { t with disk := u'.disk, entropy := u'.entropy } :=
    ⟨⟨_, _, rfl⟩, work ▸ inside, work ▸ apart, .of_twins twins⟩
  rw [log]
  exact ⟨related, y, u.disk, (remark_alike host settled u.log).left⟩

/-! ### The settings command -/

variable {s s' : Settings} {given given' : Fields} {store : Store}

theorem print_blind (text : String) : Blind (ShowAlike dir) (print text) := by
  rintro t _ ⟨x, base, ⟨disk, entropy, rfl⟩, inside, apart, parted⟩
  exact .of_eq rfl ⟨x, base, ⟨disk, entropy, rfl⟩, inside, apart, parted⟩

theorem complain_blind (message : String) : Blind (ShowAlike dir) (complain message) := by
  rintro t _ ⟨x, base, ⟨disk, entropy, rfl⟩, inside, apart, parted⟩
  exact .of_eq rfl ⟨x, base, ⟨disk, entropy, rfl⟩, inside, apart, parted⟩

theorem carryOut_blind (command : a.command = .settings) :
    Blind (ShowAlike dir) (carryOut host a store given s) := by
  unfold carryOut
  rw [command]
  dsimp only
  split
  · refine (Blind.pure _).bind fun key => ?_
    split
    · exact (print_blind _).bind fun _ => .pure 0
    · exact .throw_bind _ _
  · split
    · exact .throw_bind _ _
    · refine (Blind.pure _).bind fun key => ?_
      split
      · exact (print_blind _).bind fun _ => .pure 0
      · exact .throw_bind _ _

/-- Reports on settings that are the same, but for API keys that look the same, are the same. -/
theorem carryOut_alike (command : a.command = .settings) (veiled : AllVeiled s s')
    (givens : List.Forall₂ Veiled given given')
    (environments : EnvironmentAlike host.environment e') (entries : List String) :
    carryOut { host with environment := e' } { a with overrides := entries } store given' s' =
      carryOut host a store given s := by
  have reports (masked : LooseText) :
      s'.report masked store e' given' = s.report masked store host.environment given :=
    veiled.report masked store environments.variableNames givens
  unfold carryOut
  rw [command]
  dsimp only
  simp only [reports]
  rcases veiled.apiKey with same | ⟨key, key', given, given', alike⟩
  · rw [same]
  · rw [given, given']
    dsimp only
    rw [pure_bind, pure_bind, alike.redacted]

theorem runWith_homeless (host : Host) (a : Arguments) {fault : Fault}
    (fresh : t.journal.path = none)
    (homeless : Journal.directory host.environment none = .error fault) :
    (runWith host a).run t = (.error fault, t) := by
  unfold runWith
  exact run_bind_of_error (setupJournal_homeless fresh homeless)

/-- The journal may have to be set up once more before the command is carried out. -/
theorem finish_alike (command : a.command = .settings)
    (environments : EnvironmentAlike host.environment e')
    (found : Journal.directory host.environment none = .ok dir) (veiled : AllVeiled s s')
    (givens : List.Forall₂ Veiled given given') (entries : List String) (debug : Bool)
    (shown : ShowAlike dir t t') :
    Ends Eq (ShowAlike dir)
      ((if (s.get .debugLogging).isPresent && !debug then
          setupJournal host true true >>= fun _ => carryOut host a store given s
        else carryOut host a store given s).run t)
      ((if (s'.get .debugLogging).isPresent && !debug then
          setupJournal { host with environment := e' } true true >>= fun _ =>
            carryOut { host with environment := e' } { a with overrides := entries } store given' s'
        else carryOut { host with environment := e' } { a with overrides := entries } store given'
          s').run t') := by
  rw [carryOut_alike command veiled givens environments, veiled.get (by decide)]
  split
  · obtain ⟨x, base, alike⟩ := shown
    refine (setupJournal_alike alike environments found true true).bind
      (fun u u' left => ⟨x, base, left⟩) fun _ _ u u' _ left => ?_
    exact carryOut_blind command _ _ ⟨x, base, left⟩
  · exact carryOut_blind command _ _ shown

theorem entropy_setupJournal (host : Host) (debug force : Bool) (t : Terminal) :
    ((setupJournal host debug force).run t).2.entropy = t.entropy := by
  cases made : t.journal.setup host.environment t.disk (Journal.commandOptions debug force) with
  | error fault => rw [run_setupJournal_of_error made]
  | ok first =>
      rw [run_setupJournal made]
      rfl

theorem runWith_alike {entries : List String} (command : a.command = .settings)
    (entered : List.Forall₂ EntryAlike a.overrides entries)
    (environments : EnvironmentAlike host.environment e')
    (found : Journal.directory host.environment none = .ok dir)
    (ahead : LoadsAlike host.environment a x base d) (alike : TerminalsAlike dir x base t t')
    (entropy : t'.entropy = t.entropy) :
    Ends Eq (ShowAlike dir) ((runWith host a).run t)
      ((runWith { host with environment := e' } { a with overrides := entries }).run t') := by
  unfold runWith
  dsimp only
  rw [environments.flag (by decide), settingsPath_alike environments]
  generalize (a.debug || host.environment.flag "INKWELL_DEBUG") = debug
  have settled : Ends Eq (fun u u' => TerminalsAlike dir x base u u' ∧ u'.entropy = u.entropy)
      ((setupJournal host debug false).run t)
      ((setupJournal { host with environment := e' } debug false).run t') := by
    obtain ⟨result, left⟩ := setupJournal_alike alike environments found debug false
    exact ⟨result, left, by rw [entropy_setupJournal, entropy_setupJournal, entropy]⟩
  refine settled.bind (fun u u' left => ⟨x, base, left.1⟩) fun _ _ u u' _ ⟨alike, entropy⟩ => ?_
  have shown : ShowAlike dir u u' := ⟨x, base, alike⟩
  cases located : settingsPath host.environment a with
  | error fault => exact ⟨.error fault, shown⟩
  | ok path =>
      rw [run_attempt_bind, run_attempt_bind]
      cases opened : Store.ofPath path with
      | error fault => exact ⟨.error fault, shown⟩
      | ok store =>
          rw [run_attempt_bind, run_attempt_bind]
          have givens := readEntries_veiled entered
          generalize readEntries a.overrides = read, readEntries entries = read' at givens
          cases givens with
          | error fault =>
              exact (complain_blind _).bind (fun _ => .pure 2) _ _ shown
          | ok givens =>
              obtain ⟨pin, apart, loaded⟩ := ahead.loads located opened found alike.disk u.entropy
              nth_rewrite 2 [← entropy] at loaded
              refine (keep_alike alike pin apart
                (loadOrDefault_alike environments givens loaded)).bind (fun _ _ => id) ?_
              intro s s' v v' veiled shown
              exact finish_alike command environments found veiled givens entries debug shown

/-- Two runs cannot be told apart: they end with the same status or the same fault, print the
    same, and write the same to the journal. Their disks differ in one file at most. -/
structure SeemAlike (r r' : Except Fault Nat × Terminal) : Prop where
  result : r'.1 = r.1
  output : r'.2.output = r.2.output
  errors : r'.2.errors = r.2.errors
  journal : r'.2.journal = r.2.journal
  logged : ∀ f, r.2.journal.file = some f → f.content r'.2.disk = f.content r.2.disk
  disk : ∃ pin, ∀ place, place ≠ pin → r'.2.disk.node? place = r.2.disk.node? place

theorem SeemAlike.of_ends {r r' : Except Fault Nat × Terminal}
    (ends : Ends Eq (ShowAlike dir) r r') : SeemAlike r r' := by
  obtain ⟨result, left⟩ := ends
  rcases r with ⟨first, t⟩
  rcases r' with ⟨second, t'⟩
  obtain ⟨x, base, ⟨disk, entropy, rfl⟩, inside, apart, parted⟩ := left
  refine ⟨?_, rfl, rfl, rfl, fun f file => parted.content apart (inside f file), ?_⟩
  · cases result with
    | error fault => rfl
    | ok same => exact congrArg Except.ok same.symm
  · obtain ⟨-, pin, -, twins⟩ := parted
    exact ⟨pin, twins.same⟩

/-- The settings command hides the API key. Two runs of it start with the same settings, but for
    API keys that look the same when they are masked, in the settings file, in the environment
    or among the entries; then the runs cannot be told apart. -/
theorem settings_command_hides_api_key {host : Host} {e' : Environment}
    {arguments arguments' entries : List String} {a : Arguments} {d d' : Disk}
    (read : Arguments.read arguments = .ok a)
    (read' : Arguments.read arguments' = .ok { a with overrides := entries })
    (command : a.command = .settings) (entered : List.Forall₂ EntryAlike a.overrides entries)
    (environments : EnvironmentAlike host.environment e')
    (disks : DisksAlike host.environment a d d') (entropy : Entropy) :
    SeemAlike (run host arguments { disk := d, entropy })
      (run { host with environment := e' } arguments' { disk := d', entropy }) := by
  obtain ⟨x, ahead⟩ := disks.loads
  unfold run
  rw [read, read']
  dsimp only
  cases found : Journal.directory host.environment none with
  | error fault =>
      have found' := (directory_alike environments).trans found
      rw [runWith_homeless host a rfl found,
        runWith_homeless { host with environment := e' } _ rfl found']
      exact ⟨rfl, rfl, rfl, rfl, nofun, x.pin, ahead.twins.same⟩
  | ok dir =>
      have fresh : TerminalsAlike dir x d { disk := d, entropy } { disk := d', entropy } :=
        ⟨⟨d', entropy, rfl⟩, nofun, ahead.apart dir found, .of_twins ahead.twins⟩
      exact .of_ends (runWith_alike command entered environments found ahead fresh rfl)

/-- An environment that says where the log stands and gives an API key. -/
def keyEnvironment (key : String) : Environment where
  values := [("INKWELL_LOG_DIR", "."), ("INKWELL_API_KEY", key)]

def keyArguments (entry : String) : List String :=
  ["--settings-path", "s.json", "--set", entry, "settings"]

/-- The keys of all three places change: the one in the settings file by blanks, the one in the
    environment in the middle, and the one among the entries in its last character. -/
theorem keys_of_three_layers_hidden : SeemAlike
    (run { environment := keyEnvironment "sk-12345" } (keyArguments "api_key=sk-1")
      { disk := cipherDisk "s.json" "s.key" (cipherOfKey "sk-1") })
    (run { environment := keyEnvironment "sk-98745" } (keyArguments "api_key=sk-2")
      { disk := cipherDisk "s.json" "s.key" (cipherOfKey "sk-1                ") }) := by
  have read : Arguments.read (keyArguments "api_key=sk-1") = .ok
      { settingsPath := some "s.json", overrides := ["api_key=sk-1"], command := .settings } := by
    decide +kernel
  have read' : Arguments.read (keyArguments "api_key=sk-2") = .ok
      { settingsPath := some "s.json", overrides := ["api_key=sk-2"], command := .settings } := by
    decide +kernel
  have entry : EntryAlike ("api_key" ++ "=" ++ "sk-1") ("api_key" ++ "=" ++ "sk-2") :=
    .key (by decide) (by decide) ⟨by decide, by decide, by decide⟩
  have environments : EnvironmentAlike (keyEnvironment "sk-12345") (keyEnvironment "sk-98745") :=
    ⟨.cons (.same _) (.cons (.key ⟨by decide, by decide, by decide⟩) .nil), rfl⟩
  have stored : (storeAt "s.json" "s.key").SuppliesAlike
      (cipherDisk "s.json" "s.key" (cipherOfKey "sk-1"))
      (cipherDisk "s.json" "s.key" (cipherOfKey "sk-1                ")) :=
    cipherDisks_alike ⟨by decide, by decide, by decide⟩ ⟨by decide, by decide, by decide⟩
      (by decide) (cipherOfKey_sealed _) (cipherOfKey_sealed _)
      ⟨by decide +kernel, by decide +kernel, by decide +kernel⟩
  have opened : Store.ofPath (Path.child {} "s.json") = .ok (storeAt "s.json" "s.key") := by
    decide +kernel
  refine settings_command_hides_api_key read read' rfl (.cons (by simpa using entry) .nil)
    environments (.stored (by decide +kernel) opened stored fun dir _ => ?_) {}
  have other (n : Nat) : "s.json" ≠ Journal.fileName n :=
    (Journal.fileName_ne n rfl (by decide) (by decide)).symm
  exact filePlace_ne other [] [] dir 0

end ActionEngine.CommandLine
