import ActionEngine.Proofs.Settings.Placement
import ActionEngine.Proofs.Settings.Twins
import ActionEngine.Proofs.Settings.Veiled

/-!
# Loading does not tell API keys apart

Two settings files supply API keys that look the same: they hold the same record, but for the
ciphertext. Loading them gives settings that are the same, but for these keys, and remarks the
same, whether or not the files are written in their present form on the way. The upper layers
may give such keys, too.
-/

namespace ActionEngine

open Disk Steps

theorem Disk.write_error_congr {d : Disk} {p : Path} {content : List UInt8} {fault : Fault}
    (h : d.write p content = .error fault) (content' : List UInt8) :
    d.write p content' = .error fault := by
  unfold Disk.write at h ⊢
  split at h
  · exact h
  · split at h
    · exact h
    · cases h

namespace Settings.Store

open Keeping

/-- The settings file supplies an API key in encrypted form: it has a ciphertext that is opened
    by the key of the key file. -/
inductive Supplies (store : Store) (d : Disk) (fields : Fields) (key : String) : Prop
  | mk {cipher : LooseText} {bytes : List UInt8} {fernet : Fernet.Key}
    (below : store.path.name ≠ "..") (holds : store.Holds d fields)
    (entry : cipherOf fields = .text cipher) (filled : cipher ≠ "")
    (keyFile : d.read store.keyPath = .ok bytes) (spelled : Vault.keyOf bytes = some fernet)
    (scheme : Vault.NamesScheme cipher)
    (opens : Vault.opened fernet (Vault.parts cipher.codes).2 = .ok key)

variable {site : Vault.Site} {x : Difference} {t t' u u' : Shelf} {s s' : Settings}
  {fields fields' : Fields} {key key' : String} {place : Place} {d d' : Disk}

theorem name_ofSite (site : Vault.Site) : (ofSite site).path.name = site.name := by
  simp [ofSite, Path.name, Path.child]

namespace Supplies

theorem holds (supplies : (ofSite site).Supplies d fields key) : (ofSite site).Holds d fields := by
  cases supplies
  assumption

theorem filled (supplies : (ofSite site).Supplies d fields key) : fields ≠ [] := by
  cases supplies with
  | mk _ _ entry =>
      rintro rfl
      cases entry

theorem there (supplies : (ofSite site).Supplies d fields key) : ∃ place content,
    d.DirectoryAt site.dir place ∧ IsEntry site.name ∧
      d.node? (place ++ [site.name]) = some (.file content) := by
  have filled := supplies.filled
  cases supplies with
  | mk below holds => exact holds.located filled (name_ofSite site ▸ below)

theorem keyFile (supplies : (ofSite site).Supplies d fields key)
    (there : d.DirectoryAt site.dir place) :
    ∃ content, d.node? (place ++ [site.key]) = some (.file content) := by
  cases supplies with
  | @mk _ bytes _ _ _ _ _ read =>
      exact ⟨bytes, (there.of_read (Disk.ne_above (by decide)) read).2⟩

/-- The vault decrypts the key. -/
theorem apiKey (supplies : (ofSite site).Supplies t.disk fields key) (locked : t.key = none) :
    ∃ fernet, ((ofSite site).apiKey (cipherOf fields) (plainOf fields)).run t =
      (.ok (.text key, false), { t with key := some fernet }) := by
  obtain ⟨place, content, there, -, -⟩ := supplies.there
  cases supplies with
  | @mk cipher bytes fernet below holds entry filled keyFile spelled scheme opens =>
      obtain ⟨entryKey, file⟩ := there.of_read (Disk.ne_above (by decide)) keyFile
      have decrypted := Vault.decrypt_of_unlock filled scheme
        (Vault.unlock_of_file there entryKey locked file spelled)
      rw [opens] at decrypted
      rw [entry]
      exact ⟨fernet, apiKey_of_decrypted (by simpa [Value.isPresent] using filled) decrypted⟩

/-- What the files supply is told from what stands at their places. -/
theorem congr (supplies : (ofSite site).Supplies d fields key)
    (there : d.DirectoryAt site.dir place) (there' : d'.DirectoryAt site.dir place)
    (name : d'.node? (place ++ [site.name]) = d.node? (place ++ [site.name]))
    (keyFile : d'.node? (place ++ [site.key]) = d.node? (place ++ [site.key])) :
    (ofSite site).Supplies d' fields key := by
  obtain ⟨-, -, -, named, -⟩ := supplies.there
  cases supplies with
  | mk below holds entry filled read spelled scheme opens =>
      obtain ⟨entryKey, -⟩ := there.of_read (Disk.ne_above (by decide)) read
      exact .mk below (holds.congr named there there' name) entry filled
        ((there.read_congr there' entryKey keyFile).trans read) spelled scheme opens

end Supplies

/-- Two disks whose settings files supply API keys that look the same: they hold the same
    record, but for the ciphertext. The disks do not differ in anything else. -/
inductive SuppliesAlike (store : Store) (d d' : Disk) : Prop
  | mk {fields fields' : Fields} {key key' : String} (work : d'.work = d.work)
    (others : ∀ place, place ≠ destination d.work store.path → d'.node? place = d.node? place)
    (supplies : store.Supplies d fields key) (supplies' : store.Supplies d' fields' key')
    (rest : Fields.drop fields' cipherField = Fields.drop fields cipherField)
    (alike : KeysAlike key key')

namespace SuppliesAlike

/-- The settings file is the one file in which the disks differ. -/
theorem twins (supplied : (ofSite site).SuppliesAlike d d') : ∃ place content content',
    d.DirectoryAt site.dir place ∧ IsEntry site.name ∧
      d.node? (place ++ [site.name]) = some (.file content) ∧
      d'.node? (place ++ [site.name]) = some (.file content') ∧
      Disk.Twins ⟨d.work, place ++ [site.name], content, content'⟩ d d' := by
  obtain ⟨work, others, supplies, supplies', -, -⟩ := supplied
  obtain ⟨place, content, there, named, file⟩ := supplies.there
  obtain ⟨place', content', there', named', file'⟩ := supplies'.there
  have here : place ++ [site.name] = destination d.work (ofSite site).path :=
    eq_destination (there.locate named)
  have here' : place' ++ [site.name] = destination d'.work (ofSite site).path :=
    eq_destination (there'.locate named')
  rw [here', work, ← here] at file'
  exact ⟨place, content, content', there, named, file, file', rfl, work,
    fun other away => others other (here ▸ away), .inr ⟨file, file'⟩⟩

/-- It is still so on two disks where the settings files and the key file are still there. -/
theorem congr (supplied : (ofSite site).SuppliesAlike d d') (twins : Disk.Twins x u.disk u'.disk)
    (pin : x.pin = place ++ [site.name]) (there : d.DirectoryAt site.dir place)
    (there' : u.disk.DirectoryAt site.dir place)
    (name : u.disk.node? x.pin = d.node? x.pin) (name' : u'.disk.node? x.pin = d'.node? x.pin)
    (keyFile : u.disk.node? (place ++ [site.key]) = d.node? (place ++ [site.key])) :
    (ofSite site).SuppliesAlike u.disk u'.disk := by
  obtain ⟨place', content, content', at_place, named, file, file', parted⟩ := supplied.twins
  obtain rfl := there.unique at_place
  obtain ⟨-, -, supplies, supplies', rest, alike⟩ := supplied
  have here : place ++ [site.name] = destination u.disk.work (ofSite site).path :=
    eq_destination (there'.locate named)
  have keyFile' : u'.disk.node? (place ++ [site.key]) = d'.node? (place ++ [site.key]) := by
    by_cases same : place ++ [site.key] = x.pin
    · rw [same, name']
    · rw [twins.same _ same, keyFile]
      exact (parted.same _ (pin ▸ same)).symm
  rw [pin] at name name'
  exact .mk (twins.work'.trans twins.work.symm)
    (fun other away => twins.same other (by rwa [pin, here]))
    (supplies.congr there there' name keyFile)
    (supplies'.congr (parted.directoryAt there) (twins.directoryAt there') name' keyFile')
    rest alike

end SuppliesAlike

/-! ### Writing the file in its present form -/

/-- A vault that knows its key is no obstacle to saving. -/
theorem save_known (there : t.disk.DirectoryAt site.dir place) (writable : Writable s)
    (text : s.get .apiKey = .text key) {fernet : Fernet.Key} (known : t.key = some fernet) :
    ∃ bytes entropy, ((ofSite site).save s).run t =
      (Vault.replaceFile (site.dir.child site.name) bytes >>= fun _ =>
        note .debug ("Settings saved to " ++ (ofSite site).path.text)).run { t with entropy } := by
  obtain ⟨fields, entropy, recorded⟩ : ∃ fields entropy,
      ((ofSite site).toRecord s).run t = (.ok fields, { t with entropy }) := by
    unfold toRecord
    dsimp only
    rw [text]
    by_cases empty : key = ""
    · subst empty
      exact ⟨_, t.entropy, rfl⟩
    · have unlocked : (Vault.unlock (ofSite site).keyPath).run t = (.ok fernet, t) :=
        Vault.unlock_known known
      obtain ⟨token, entropy, encrypted, -⟩ := Vault.encrypt_of_unlock empty unlocked
      rw [if_pos (by simpa [Value.isPresent] using empty)]
      exact ⟨_, entropy, (run_bind_of_ok encrypted).trans rfl⟩
  obtain ⟨body, rendered⟩ := Json.render_record_ok ⟨true, true, true⟩ fun f hf =>
    (isDocument_of_mem_toRecord writable recorded f hf).write_ok _
  have above : (ofSite site).path.parent = site.dir := Path.parent_child site.dir _
  exact ⟨_, entropy, save_eq recorded rendered (above ▸ there.ensureDirectory)⟩

/-- What becomes of saving is told by the disk: the file is replaced, or its draft cannot be
    written. -/
theorem migrate_known (there : t.disk.DirectoryAt site.dir place) (named : IsEntry site.name)
    (free : t.disk.node? (place ++ [site.name]) ≠ some .directory) (writable : Writable s)
    (text : s.get .apiKey = .text key) {fernet : Fernet.Key} (known : t.key = some fernet) :
    (∃ bytes entropy, ((ofSite site).migrate s).run t = (.ok (), { t with
      disk := t.disk.replaced place site.draft site.name bytes
      entropy
      log := t.log ++ Log.one .debug logger ("Settings saved to " ++ (ofSite site).path.text) }) ∧
      IsEntry site.draft ∧ t.disk.node? (place ++ [site.draft]) ≠ some .directory) ∨
    ∃ fault entropy, (∀ bytes, t.disk.write (site.dir.child site.draft) bytes = .error fault) ∧
      ((ofSite site).migrate s).run t =
        (if fault.isFileFault then .ok () else .error fault, { t with
          entropy
          log := if fault.isFileFault then t.log ++ Log.one .warning logger
            ("Failed to migrate settings payload: " ++ fault.text) else t.log }) := by
  obtain ⟨bytes, entropy, saved⟩ := save_known there writable text known
  cases written : t.disk.write (site.dir.child site.draft) bytes with
  | error fault =>
      refine .inr ⟨fault, entropy, write_error_congr written, ?_⟩
      rw [run_bind_of_error (Vault.run_replaceFile_of_error (t := { t with entropy })
        site.withSuffix_name written)] at saved
      unfold migrate
      rw [run_tryCatch_of_error saved]
      cases fault.isFileFault <;> rfl
  | ok d =>
      obtain ⟨entry, free'⟩ := (there.write_ok_iff site.draft_ne_above _).1 ⟨d, written⟩
      refine .inl ⟨bytes, entropy, ?_, entry, free'⟩
      rw [run_bind_of_ok (Vault.run_replaceFile (t := { t with entropy }) site.withSuffix_name
        there entry named free' free bytes)] at saved
      exact run_tryCatch_of_ok saved

/-- Two files that differ are replaced by two that differ. -/
theorem twins_replaced (twins : Disk.Twins x d d') (pin : x.pin = place ++ [site.name])
    (bytes bytes' : List UInt8) :
    Disk.Twins { x with content := bytes, content' := bytes' }
      (d.replaced place site.draft site.name bytes)
      (d'.replaced place site.draft site.name bytes') where
  work := twins.work
  work' := twins.work'
  same other away := by
    dsimp only at away
    rw [pin] at away
    rw [node?_replaced, node?_replaced, if_neg away, if_neg away]
    split
    · rfl
    · exact twins.same other (pin ▸ away)
  pinned := by
    dsimp only
    rw [pin, node?_replaced, node?_replaced, if_pos rfl, if_pos rfl]
    exact .inr ⟨rfl, rfl⟩

/-- The logs are the same, and the disks differ in the file that they differed in before. -/
structure PartedAt (x : Difference) (u u' : Shelf) : Prop where
  log : u'.log = u.log
  disk : ∃ y : Difference, y.work = x.work ∧ y.pin = x.pin ∧ Disk.Twins y u.disk u'.disk

theorem PartedAt.of_pin {y : Difference} (parted : PartedAt y u u') (work : y.work = x.work)
    (pin : y.pin = x.pin) : PartedAt x u u' := by
  obtain ⟨log, z, work', pin', twins⟩ := parted
  exact ⟨log, z, work'.trans work, pin'.trans pin, twins⟩

theorem migrate_alike (there : t.disk.DirectoryAt site.dir place) (named : IsEntry site.name)
    (free : t.disk.node? (place ++ [site.name]) ≠ some .directory)
    (twins : Disk.Twins x t.disk t'.disk) (pin : x.pin = place ++ [site.name])
    (logs : t'.log = t.log) (writable : Writable s) (writable' : Writable s')
    (text : s.get .apiKey = .text key) (text' : s'.get .apiKey = .text key')
    {fernet fernet' : Fernet.Key} (known : t.key = some fernet) (known' : t'.key = some fernet') :
    Ends (fun _ _ => True) (PartedAt x) (((ofSite site).migrate s).run t)
      (((ofSite site).migrate s').run t') := by
  have there' := twins.directoryAt there
  have free' := mt twins.directory_iff.1 free
  have unblocked {d : Disk} (there : d.DirectoryAt site.dir place) (entry : IsEntry site.draft)
      (clear : d.node? (place ++ [site.draft]) ≠ some .directory) {fault : Fault}
      (blocked : ∀ bytes, d.write (site.dir.child site.draft) bytes = .error fault) : False := by
    obtain ⟨e, written⟩ := (there.write_ok_iff site.draft_ne_above []).2 ⟨entry, clear⟩
    cases written.symm.trans (blocked [])
  rcases migrate_known there named free writable text known with
    ⟨bytes, entropy, ran, entry, clear⟩ | ⟨fault, entropy, blocked, ran⟩
  · rcases migrate_known there' named free' writable' text' known' with
      ⟨bytes', entropy', ran', -, -⟩ | ⟨fault', -, blocked', -⟩
    · rw [ran, ran']
      exact ⟨.ok trivial, congrArg (· ++ _) logs, { x with content := bytes, content' := bytes' },
        rfl, rfl, twins_replaced twins pin bytes bytes'⟩
    · exact (unblocked there' entry (mt twins.directory_iff.1 clear) blocked').elim
  · rcases migrate_known there' named free' writable' text' known' with
      ⟨bytes', entropy', -, entry', clear'⟩ | ⟨fault', entropy', blocked', ran'⟩
    · exact (unblocked there entry' (mt twins.directory_iff.2 clear') blocked).elim
    · have same := twins.write (site.dir.child site.draft) []
      rw [blocked, blocked'] at same
      obtain rfl : fault' = fault := by
        cases same
        rfl
      rw [ran, ran', logs]
      refine ⟨?_, rfl, x, rfl, rfl, twins⟩
      dsimp only
      split
      · exact .ok trivial
      · exact .error _

/-! ### Loading the file -/

theorem get_apiKey_of_text {d : Disk} (holds : (ofSite site).Holds d fields) (key : String) :
    (ofRecord fields (.text key)).get .apiKey = .text key := by
  rw [get_apiKey_ofRecord holds.documents.1]
  split
  · rfl
  · next empty =>
    have empty : key = "" := by simpa [Value.isPresent] using empty
    rw [empty]

/-- Records that are the same, but for the ciphertext, give the same to all other fields. -/
theorem ofRecord_veiled (holds : (ofSite site).Holds d fields)
    (holds' : (ofSite site).Holds d' fields')
    (same : Fields.drop fields' cipherField = Fields.drop fields cipherField)
    (alike : KeysAlike key key') :
    AllVeiled (ofRecord fields (.text key)) (ofRecord fields' (.text key')) := by
  intro field
  by_cases here : field = .apiKey
  · subst here
    rw [get_apiKey_of_text holds, get_apiKey_of_text holds']
    exact .key alike
  · have apart : LooseText.whole field.name ≠ cipherField := by
      cases field <;> decide
    have found : fields'.get? field.name = fields.get? field.name := by
      have found := congrArg (Fields.get? · field.name) same
      rwa [Fields.get?_drop holds'.documents.1, Fields.get?_drop holds.documents.1,
        if_neg apart, if_neg apart] at found
    rw [get_ofRecord holds.documents.1, get_ofRecord holds'.documents.1, if_neg here, if_neg here,
      found]
    exact .same _

/-- Files that supply keys that look the same are loaded alike. -/
theorem loadFile_supplied (twins : Disk.Twins x t.disk t'.disk)
    (pin : x.pin = destination x.work (ofSite site).path)
    (supplied : (ofSite site).SuppliesAlike t.disk t'.disk) (locked : t.key = none)
    (locked' : t'.key = none) (logs : t'.log = t.log) :
    Ends AllVeiled (PartedAt x) ((ofSite site).loadFile.run t) ((ofSite site).loadFile.run t') := by
  obtain @⟨fields, fields', key, key', -, -, supplies, supplies', same, alike⟩ := supplied
  obtain ⟨place, content, there, named, file⟩ := supplies.there
  obtain ⟨fernet, found⟩ := supplies.apiKey locked
  obtain ⟨fernet', found'⟩ := supplies'.apiKey locked'
  have here : x.pin = place ++ [site.name] := by
    rw [pin, ← twins.work]
    exact (eq_destination (there.locate named)).symm
  have veiled := ofRecord_veiled supplies.holds supplies'.holds same alike
  have outdated : isOutdated fields' = isOutdated fields := by
    unfold isOutdated
    dsimp only
    rw [same]
  cases stale : isOutdated fields with
  | false =>
      rw [loadFile_of_current supplies.holds supplies.filled found (by rw [stale]; rfl),
        loadFile_of_current supplies'.holds supplies'.filled found' (by rw [outdated, stale]; rfl)]
      exact ⟨.ok veiled, logs, x, rfl, rfl, twins⟩
  | true =>
      have migrated : Ends (fun _ _ => True) (PartedAt x)
          (((ofSite site).migrate (ofRecord fields (.text key))).run { t with key := some fernet })
          (((ofSite site).migrate (ofRecord fields' (.text key'))).run
            { t' with key := some fernet' }) :=
        migrate_alike there named (by simp [file]) twins here logs
          (writable_ofRecord supplies.holds.documents (.text key))
          (writable_ofRecord supplies'.holds.documents (.text key'))
          (get_apiKey_of_text supplies.holds key) (get_apiKey_of_text supplies'.holds key') rfl rfl
      rw [loadFile_eq supplies.holds supplies.filled, loadFile_eq supplies'.holds supplies'.filled,
        run_bind_of_ok found, run_bind_of_ok found']
      dsimp only
      rw [outdated, stale, if_pos (by decide), if_pos (by decide)]
      exact migrated.bind (fun _ _ => id) fun _ _ u u' _ left => ⟨.ok veiled, left⟩

/-- A settings file that cannot be reached counts as missing. -/
theorem loadFile_unreached (twins : Disk.Twins x t.disk t'.disk)
    (unreached : ∀ place, t.disk.locate (ofSite site).path ≠ .ok place) (logs : t'.log = t.log) :
    Ends AllVeiled (PartedAt x) ((ofSite site).loadFile.run t) ((ofSite site).loadFile.run t') := by
  have has := twins.has (ofSite site).path
  cases found : t.disk.has (ofSite site).path with
  | error fault =>
      rw [found] at has
      have fails {t : Shelf} (h : t.disk.has (ofSite site).path = .error fault) :
          (ofSite site).loadFile.run t = (.error fault, t) := by
        unfold loadFile Store.read
        exact run_bind_of_error (run_bind_of_error (by rw [run_look, h]))
      rw [fails found, fails has]
      exact ⟨.error fault, logs, x, rfl, rfl, twins⟩
  | ok present =>
      rw [found] at has
      cases present with
      | true =>
          unfold Disk.has at found
          split at found
          · next place located => exact absurd located (unreached place)
          · cases found
          · cases found
      | false =>
          rw [loadFile_of_read (run_read_of_missing found),
            loadFile_of_read (run_read_of_missing has)]
          exact ⟨.ok (.refl _), logs, x, rfl, rfl, twins⟩

/-- Files that are not read make no difference. -/
theorem loadFile_avoiding (twins : Shelf.Twins x t t') (avoids : site.Avoids x) :
    Ends AllVeiled (PartedAt x) ((ofSite site).loadFile.run t) ((ofSite site).loadFile.run t') := by
  obtain ⟨result, left⟩ := loadFile_blind avoids t t' twins
  exact ⟨result.imp fun s _ same => same ▸ .refl s, left.log, x, rfl, rfl, left.disk⟩

/-- Disks that agree make no difference. -/
theorem loadFile_agreeing (twins : Shelf.Twins x t t')
    (same : ∀ place, t'.disk.node? place = t.disk.node? place) :
    Ends AllVeiled (PartedAt x) ((ofSite site).loadFile.run t) ((ofSite site).loadFile.run t') := by
  -- The place of the difference is any that is none of the site's: it is longer than these.
  let far : Place := "" :: (destination x.work (site.dir.child site.name) ++
    destination x.work (site.dir.child site.key) ++ destination x.work (site.dir.child site.draft))
  have size : far.length = (destination x.work (site.dir.child site.name)).length +
      (destination x.work (site.dir.child site.key)).length +
      (destination x.work (site.dir.child site.draft)).length + 1 := by
    simp only [far, List.length_cons, List.length_append]
  have longer {p : Path} (short : (destination x.work p).length < far.length) :
      destination x.work p ≠ far :=
    fun h => Nat.ne_of_lt short (congrArg List.length h)
  have avoids : site.Avoids { x with pin := far, content' := x.content } :=
    ⟨longer (by omega), longer (by omega), longer (by omega)⟩
  obtain ⟨result, left⟩ := loadFile_blind avoids t t'
    ⟨.of_same twins.disk.work twins.disk.work' same, twins.entropy, twins.key, twins.log⟩
  exact ⟨result.imp fun s _ same => same ▸ .refl s, left.log, x, rfl, rfl,
    .of_same left.disk.work left.disk.work' (left.disk.node?_eq rfl)⟩

/-! ### The upper layers -/

variable {given given' : Fields} {e e' : Environment} {store : Store}

theorem override_alike (source : String) (veiled : AllVeiled s s')
    (givens : List.Forall₂ Veiled given given') (logs : t'.log = t.log)
    (twins : Disk.Twins x t.disk t'.disk) :
    Ends AllVeiled (PartedAt x) ((override source s given).run t)
      ((override source s' given').run t') := by
  obtain ⟨veiled, names⟩ := veiled.overridden givens
  unfold override
  dsimp only
  rw [names]
  split
  · exact ⟨.ok veiled, congrArg (· ++ _) logs, x, rfl, rfl, twins⟩
  · exact ⟨.ok veiled, logs, x, rfl, rfl, twins⟩

/-- Entries and variables that give API keys that look the same are laid over alike. -/
theorem load_alike (environments : EnvironmentAlike e e')
    (givens : List.Forall₂ Veiled given given')
    (loaded : Ends AllVeiled (PartedAt x) (store.loadFile.run t) (store.loadFile.run t')) :
    Ends AllVeiled (PartedAt x) ((store.load e given).run t) ((store.load e' given').run t') := by
  unfold load
  rw [environments.environmentRemarks]
  refine loaded.bind (fun _ _ => id) fun s s' u u' veiled ⟨logs, y, work, pin, twins⟩ => ?_
  refine (override_alike "CLI" veiled givens logs twins).bind
    (fun _ _ left => left.of_pin work pin) fun s s' v v' veiled ⟨logs, z, work', pin', twins⟩ => ?_
  rw [run_bind_of_ok (run_remark _ v), run_bind_of_ok (run_remark _ v')]
  have upper : Ends AllVeiled (PartedAt z)
      ((override "environment" s (environmentFields e)).run
        { v with log := v.log ++ environmentRemarks e })
      ((override "environment" s' (environmentFields e')).run
        { v' with log := v'.log ++ environmentRemarks e }) :=
    override_alike "environment" veiled environments.environmentFields (congrArg (· ++ _) logs)
      twins
  exact ⟨upper.result, upper.left.of_pin (work'.trans work) (pin'.trans pin)⟩

theorem loadOrDefault_alike (environments : EnvironmentAlike e e')
    (givens : List.Forall₂ Veiled given given')
    (loaded : Ends AllVeiled (PartedAt x) (store.loadFile.run t) (store.loadFile.run t')) :
    Ends AllVeiled (PartedAt x) ((store.loadOrDefault e given).run t)
      ((store.loadOrDefault e' given').run t') := by
  obtain ⟨result, logs, disk⟩ := load_alike environments givens loaded
  rcases ran : (store.load e given).run t with ⟨fault | s, u⟩
  · rcases ran' : (store.load e' given').run t' with ⟨_, u'⟩
    rw [ran, ran'] at result logs disk
    cases result
    rw [run_loadOrDefault_of_error ran, run_loadOrDefault_of_error ran']
    split
    · exact ⟨.ok (.refl _), congrArg (· ++ _) logs, disk⟩
    · exact ⟨.error fault, logs, disk⟩
  · rcases ran' : (store.load e' given').run t' with ⟨_ | s', u'⟩
    · rw [ran, ran'] at result
      cases result
    · rw [ran, ran'] at result logs disk
      rw [loadOrDefault_of_ok ran, loadOrDefault_of_ok ran']
      exact ⟨result, logs, disk⟩

/-! ### Samples -/

/-- A key of the vault, with nothing but zeros. -/
def zeroKey : Fernet.Key := ⟨List.replicate 16 0, List.replicate 16 0⟩

def zeroKeyFile : List UInt8 :=
  Text.utf8Encode "AAAAAAAAAAAAAAAAAAAAAAAAAAAAAAAAAAAAAAAAAAA=".toList

def cipherOfKey (key : String) : String :=
  Vault.scheme ++ ":" ++ String.ofList
    (Fernet.sign zeroKey 0 (List.replicate 16 0) (Text.utf8Encode key.toList))

/-- A record on one line, with nothing but a ciphertext. -/
def cipherLine (cipher : String) : List Char :=
  "\x7b\"api_key_ciphertext\": \"".toList ++ (cipher.toList ++ "\"\x7d".toList)

/-- Settings and the vault's key in the working directory. -/
def storeAt (name keyName : String) : Store where
  path := Path.child {} name
  keyPath := Path.child {} keyName

/-- A disk with these two files. -/
def cipherDisk (name keyName cipher : String) : Disk where
  nodes := [([name], .file (Text.utf8Encode (cipherLine cipher ++ ['\n']))),
    ([keyName], .file zeroKeyFile)]

theorem zeroKey_isWhole : zeroKey.IsWhole := ⟨rfl, rfl⟩

theorem cipherOfKey_sealed (key : String) : Vault.Sealed zeroKey key (cipherOfKey key) :=
  ⟨0, List.replicate 16 0, rfl, rfl⟩

section Sample

variable {name keyName cipher : String} {fernet : Fernet.Key}

/-- A ciphertext is written as it is. -/
theorem writeChar_cipher (closed : Vault.Sealed fernet key cipher) :
    ∀ c ∈ cipher.toList, Json.writeChar true c = [c] := by
  have scheme : (Vault.scheme ++ ":").toList.all fun c => Json.writeChar true c == [c] := by decide
  obtain ⟨time, start, -, rfl⟩ := closed
  intro c hc
  rw [String.toList_append, String.toList_ofList] at hc
  rcases List.mem_append.1 hc with front | token
  · exact eq_of_beq (List.all_eq_true.1 scheme c front)
  · rcases Base64.mem_encode _ c token with rfl | ⟨n, small, rfl⟩
    · decide
    · exact writeChar_digit small

theorem not_mem_cipherLine (closed : Vault.Sealed fernet key cipher) {c : Char}
    (escaped : Json.writeChar true c ≠ [c]) (quote : c ≠ '"') : c ∉ cipherLine cipher := by
  have frame : ("\x7b\"api_key_ciphertext\": \"".toList ++ "\"\x7d".toList).all fun c =>
      c == '"' || Json.writeChar true c == [c] := by
    decide
  have outside (mem : c ∈ "\x7b\"api_key_ciphertext\": \"".toList ++ "\"\x7d".toList) : False := by
    have here := List.all_eq_true.1 frame c mem
    simp [quote, escaped] at here
  intro hc
  rcases List.mem_append.1 hc with first | hc
  · exact outside (List.mem_append_left _ first)
  rcases List.mem_append.1 hc with inner | last
  · exact escaped (writeChar_cipher closed c inner)
  · exact outside (List.mem_append_right _ last)

theorem readsAs_cipherLine (closed : Vault.Sealed fernet key cipher) :
    Json.ReadsAs (cipherLine cipher) (.record [(cipherField, .text cipher)]) := by
  have read : Json.ReadsAs (Json.bracketed ⟨false, true, true⟩ 0 '\x7b' '\x7d'
      [Json.writeText true cipherField ++ ':' :: ' ' :: Json.writeText true cipher])
      (.record [(cipherField, .text cipher)]) :=
    Json.readsAs_record (List.nodup_singleton _) (.cons ⟨_, rfl, LooseText.settled_whole _,
        Json.readsAs_text true (LooseText.settled_whole _)⟩ .nil)
  have name : Json.writeText true cipherField = "\"api_key_ciphertext\"".toList := by decide
  have value : Json.writeText true cipher = '"' :: (cipher.toList ++ ['"']) := by
    rw [Json.writeText_whole, Json.flatMap_writeChar (writeChar_cipher closed)]
    rfl
  rw [name, value] at read
  change Json.ReadsAs ("\x7b\"api_key_ciphertext\": \"".toList ++
    (cipher.toList ++ "\"\x7d".toList)) _
  simpa [Json.bracketed] using read

theorem parse_cipherLine (closed : Vault.Sealed fernet key cipher) :
    Json.parse (String.ofList (cipherLine cipher ++ ['\n'])) =
      .ok (.record [(cipherField, .text cipher)]) := by
  have ends : Json.Ends ['\n'] := Json.ends_cons (by decide) (by decide) (by decide) (by decide)
  unfold Json.parse
  rw [String.toList_ofList, Json.document_of_readsAs (readsAs_cipherLine closed) ends]
  rfl

theorem cipherDisk_supplies (entry : IsEntry name) (entryKey : IsEntry keyName)
    (apart : keyName ≠ name) (closed : Vault.Sealed zeroKey key cipher) :
    (storeAt name keyName).Supplies (cipherDisk name keyName cipher)
      [(cipherField, .text cipher)] key := by
  have there : (cipherDisk name keyName cipher).DirectoryAt {} [] := ⟨rfl, rfl⟩
  have file : (cipherDisk name keyName cipher).node? ([] ++ [name]) =
      some (.file (Text.utf8Encode (cipherLine cipher ++ ['\n']))) := by
    simp [cipherDisk, Disk.node?]
  have keyFile : (cipherDisk name keyName cipher).node? ([] ++ [keyName]) =
      some (.file zeroKeyFile) := by
    have other : (keyName == name) = false := by simpa using apart
    simp [cipherDisk, Disk.node?, List.lookup_cons, other]
  have named : (storeAt name keyName).path.name = name := by
    simp [storeAt, Path.name, Path.child]
  have text : (cipherDisk name keyName cipher).readText (storeAt name keyName).path =
      .ok (String.ofList (cipherLine cipher ++ ['\n'])) := by
    apply readText_encoded
    · rw [String.toList_ofList]
      exact there.read entry file
    · rw [String.toList_ofList]
      exact List.not_mem_append (not_mem_cipherLine closed (by decide) (by decide)) (by decide)
  obtain ⟨scheme, opens⟩ := closed.opens zeroKey_isWhole
  exact .mk (named ▸ entry.below)
    (.record ((there.has entry).trans (by rw [file]; rfl)) text (parse_cipherLine closed))
    rfl closed.filled (there.read entryKey keyFile) (by decide +kernel) scheme opens

/-- Two disks that differ in the ciphertext only, where the keys look the same. -/
theorem cipherDisks_alike {cipher' : String} (entry : IsEntry name) (entryKey : IsEntry keyName)
    (apart : keyName ≠ name) (closed : Vault.Sealed zeroKey key cipher)
    (closed' : Vault.Sealed zeroKey key' cipher') (alike : KeysAlike key key') :
    (storeAt name keyName).SuppliesAlike (cipherDisk name keyName cipher)
      (cipherDisk name keyName cipher') := by
  refine .mk rfl (fun place away => ?_) (cipherDisk_supplies entry entryKey apart closed)
    (cipherDisk_supplies entry entryKey apart closed') rfl alike
  have here : destination [] (storeAt name keyName).path = [name] :=
    destination_child [] {} entry.below
  have other : (place == [name]) = false :=
    beq_eq_false_iff_ne.2 fun same => away (same.trans here.symm)
  simp [cipherDisk, Disk.node?, List.lookup_cons, other]

end Sample

end Settings.Store

end ActionEngine
