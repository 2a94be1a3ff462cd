import ActionEngine.Proofs.Json.Document
import ActionEngine.Proofs.Secret.Vault
import ActionEngine.Proofs.Settings.Override
import ActionEngine.Proofs.Value

/-!
# What loading gives

The settings in effect are made of four layers: the defaults, the settings file with its
API key, the entries of the command line and the variables of the environment. Bringing
the file to its present form on the way does not change what is loaded. Loading fails only
if the vault's key cannot be used for the API key that the file holds.
-/

namespace ActionEngine.Settings

open Keeping Steps

namespace Store

variable {store : Store} {t u : Shelf} {fields : Fields}

/-! ### The file -/

/-- The settings file is absent, or it holds a record with some fields. -/
inductive Holds (store : Store) (d : Disk) : Fields → Prop
  | absent (free : d.has store.path = .ok false) : Holds store d []
  | record {text : String} {fields : Fields} (present : d.has store.path = .ok true)
      (read : d.readText store.path = .ok text)
      (parsed : Json.parse text = .ok (.record fields)) : Holds store d fields

theorem documents_of_parse {text : String} (parsed : Json.parse text = .ok (.record fields)) :
    fields.keys.Nodup ∧ ∀ f ∈ fields, Json.IsDocument f.2 := by
  cases Json.parse_gives parsed with
  | record nodup settled held => exact ⟨nodup, held⟩

theorem Holds.documents {d : Disk} (holds : store.Holds d fields) :
    fields.keys.Nodup ∧ ∀ f ∈ fields, Json.IsDocument f.2 := by
  cases holds with
  | absent free => exact ⟨Fields.nodup_keys_nil, by simp⟩
  | record present read parsed => exact documents_of_parse parsed

theorem Holds.isClean {d : Disk} (holds : store.Holds d fields) (filled : fields ≠ []) :
    store.path.IsClean := by
  cases holds with
  | absent free => exact absurd rfl filled
  | record present read parsed => exact Disk.isClean_of_has present

theorem Holds.run_read (holds : store.Holds t.disk fields) :
    store.read.run t = (.ok fields, t) := by
  unfold read
  cases holds with
  | absent free =>
      rw [run_bind_of_ok (a := false) (by rw [run_look, free])]
      rfl
  | record present read parsed =>
      rw [run_bind_of_ok (a := true) (by rw [run_look, present])]
      rw [if_neg (by decide), run_bind_of_ok (by rw [run_look, read]), parsed]
      rfl

/-- Whatever the file is, the fields that are read from it can stand in a document. -/
theorem documents_of_read (ran : store.read.run t = (.ok fields, u)) :
    fields.keys.Nodup ∧ ∀ f ∈ fields, Json.IsDocument f.2 := by
  have empty : (Fields.keys []).Nodup ∧ ∀ f ∈ ([] : Fields), Json.IsDocument f.2 :=
    ⟨Fields.nodup_keys_nil, by simp⟩
  unfold read at ran
  obtain ⟨present, v, -, ran⟩ := run_bind_ok ran
  split at ran
  · cases ran
    exact empty
  · obtain ⟨text, w, -, ran⟩ := run_bind_ok ran
    split at ran
    · next parsed =>
      cases ran
      exact documents_of_parse parsed
    · cases ran
      exact empty
    · split at ran
      · cases ran
      · cases ran
        exact empty

def cipherOf (fields : Fields) : Value :=
  (fields.get? cipherField).getD .null

def plainOf (fields : Fields) : Value :=
  (fields.get? Field.apiKey.name).getD .null

/-- The API key that a file gives: the decrypted one, or else the one in plain form. -/
def storedKey (store : Store) (t : Shelf) (fields : Fields) : Value :=
  if (cipherOf fields).isPresent then
    match ((Vault.decrypt store.keyPath (cipherOf fields)).run t).1 with
    | .ok key => .text key
    | .error _ => .text ""
  else if (plainOf fields).isPresent then plainOf fields
  else .text ""

/-- The value that a file gives to a field; an empty API key is none. -/
def fromFile? (store : Store) (t : Shelf) (fields : Fields) (field : Field) : Option Value :=
  if field = .apiKey then (some (store.storedKey t fields)).filter Value.isPresent
  else fields.get? field.name

/-- The vault can do what the API key of a file needs: an encrypted key is decrypted or
    refused, and a plain one is encrypted unless a file cannot be read or written. -/
def KeyUsable (store : Store) (t : Shelf) (fields : Fields) : Prop :=
  if (cipherOf fields).isPresent then
    FailsAt (·.isValueFault) (Vault.decrypt store.keyPath (cipherOf fields)) t
  else (plainOf fields).isPresent →
    FailsAt (·.isFileFault) (Vault.encrypt store.keyPath (plainOf fields)) t

theorem get_ofRecord (nodup : fields.keys.Nodup) (key : Value) (field : Field) :
    (ofRecord fields key).get field =
      (if field = .apiKey then (some key).filter Value.isPresent
        else fields.get? field.name).getD field.default := by
  have kept : Fields.keys (Fields.drop fields Field.apiKey.name) |>.Nodup :=
    nodup.sublist (Fields.keys_filter_sublist _ _)
  unfold ofRecord
  dsimp only
  by_cases same : field = .apiKey
  · subst same
    rw [if_pos rfl]
    by_cases present : key.isPresent
    · rw [if_pos present, get_set, if_pos rfl, Option.filter_some, if_pos present]
      rfl
    · rw [if_neg present, get_setNamed kept, Fields.get?_drop nodup, if_pos rfl,
        Option.filter_some, if_neg present]
      rfl
  · have apart : LooseText.whole field.name ≠ Field.apiKey.name :=
      fun h => same (Field.key_injective h)
    have rest : (initial.setNamed (Fields.drop fields Field.apiKey.name)).get field =
        (fields.get? field.name).getD field.default := by
      rw [get_setNamed kept, Fields.get?_drop nodup, if_neg apart]
      rfl
    rw [if_neg same]
    split
    · rw [get_set, if_neg same, rest]
    · exact rest

/-! ### Saving -/

/-- Everything but the API key can stand in a document. -/
def Writable (s : Settings) : Prop :=
  ∀ field, field ≠ .apiKey → Json.IsDocument (s.get field)

theorem isDocument_default (field : Field) : Json.IsDocument field.default := by
  cases field with
  | maxRetries | minimumReply | streamBudget => exact .small (by decide)
  | defaultHeaders | metadata => exact .record Fields.nodup_keys_nil (by simp) (by simp)
  | organization | actionsPath => exact .null
  | debugLogging => exact .bool false
  | temperature | requestTimeout | retryMin | retryMax => exact .float _
  | _ => exact .text (LooseText.settled_whole _)

theorem writable_ofRecord (documents : fields.keys.Nodup ∧ ∀ f ∈ fields, Json.IsDocument f.2)
    (key : Value) : Writable (ofRecord fields key) := by
  obtain ⟨nodup, documents⟩ := documents
  intro field apart
  rw [get_ofRecord nodup, if_neg apart]
  cases found : fields.get? field.name with
  | none => exact isDocument_default field
  | some v => exact documents _ (Fields.mem_of_get? found)

theorem isDocument_of_mem_fields {s : Settings} (writable : Writable s) :
    ∀ f ∈ Fields.drop s.fields Field.apiKey.name, Json.IsDocument f.2 := by
  intro f hf
  obtain ⟨hf, apart⟩ := List.mem_filter.1 hf
  obtain ⟨field, -, rfl⟩ := List.mem_map.1 hf
  have other : field ≠ .apiKey := by
    rintro rfl
    exact bne_iff_ne.1 apart rfl
  rw [(writable field other).plain]
  exact writable field other

theorem isDocument_of_mem_toRecord {s : Settings} (writable : Writable s) {record : Fields}
    (h : (store.toRecord s).run t = (.ok record, u)) : ∀ f ∈ record, Json.IsDocument f.2 := by
  have known := isDocument_of_mem_fields writable
  have numbered : Json.IsDocument (.int version) := .small (by decide)
  unfold toRecord at h
  dsimp only at h
  split at h
  · obtain ⟨token, v, -, h⟩ := run_bind_ok h
    cases h
    simpa [or_imp, forall_and, numbered, Json.IsDocument.text] using known
  · cases h
    simpa [or_imp, forall_and, numbered] using known

/-- Saving fails only as encrypting the key and writing the file do. -/
theorem save_fails {P : Fault → Prop} {s : Settings} (writable : Writable s)
    (key : (s.get .apiKey).isPresent → FailsAt P (Vault.encrypt store.keyPath (s.get .apiKey)) t)
    (above : ∀ d fault, Disk.ensureDirectory d store.path.parent = .error fault → P fault)
    (replaces : ∀ content u, FailsAt P (Vault.replaceFile store.path content) u) :
    FailsAt P (store.save s) t := by
  unfold save
  apply FailsAt.bind
  · unfold toRecord
    dsimp only
    split
    · next present =>
      apply (key present).bind
      exact fun _ _ _ => .of_ok rfl
    · exact .of_ok rfl
  · intro record u recorded
    obtain ⟨body, rendered⟩ :=
      Json.render_record_ok ⟨true, true, true⟩ fun f hf =>
        (isDocument_of_mem_toRecord writable recorded f hf).write_ok _
    rw [rendered]
    apply (alter_fails above u).bind
    intro _ v _
    apply (replaces _ v).bind
    exact fun _ _ _ => .of_ok rfl

theorem save_of_error {s : Settings} {fault : Fault} (present : (s.get .apiKey).isPresent)
    (h : (Vault.encrypt store.keyPath (s.get .apiKey)).run t = (.error fault, u)) :
    (store.save s).run t = (.error fault, u) := by
  unfold save
  apply run_bind_of_error
  unfold toRecord
  dsimp only
  rw [if_pos present]
  exact run_bind_of_error h

/-- A file that cannot be written is passed over with a remark. -/
theorem migrate_of_unwritable {s : Settings} {fault : Fault} (file : fault.isFileFault)
    (h : (store.save s).run t = (.error fault, u)) :
    ∃ log, (store.migrate s).run t = (.ok (), { u with log }) := by
  unfold migrate
  rw [run_tryCatch_of_error h, if_pos file]
  exact ⟨_, rfl⟩

theorem migrate_ok {s : Settings}
    (h : FailsAt (·.isFileFault) (store.save s) t) :
    ∃ u, (store.migrate s).run t = (.ok (), u) := by
  rcases ran : (store.save s).run t with ⟨fault | _, u⟩
  · obtain ⟨log, passed⟩ := migrate_of_unwritable (h fault u ran) ran
    exact ⟨_, passed⟩
  · exact ⟨u, run_tryCatch_of_ok ran⟩

theorem migrate_of_error {s : Settings} {fault : Fault} (other : fault.isFileFault = false)
    (h : (store.save s).run t = (.error fault, u)) :
    (store.migrate s).run t = (.error fault, u) := by
  unfold migrate
  rw [run_tryCatch_of_error h, other]
  rfl

/-! ### The API key -/

theorem apiKey_of_decrypted {cipher plain : Value} {key : String} (present : cipher.isPresent)
    (h : (Vault.decrypt store.keyPath cipher).run t = (.ok key, u)) :
    (store.apiKey cipher plain).run t = (.ok (.text key, false), u) := by
  unfold apiKey
  rw [if_pos present]
  exact (run_bind_of_ok (run_tryCatch_of_ok ((run_bind_of_ok h).trans rfl))).trans rfl

theorem apiKey_of_refused {cipher : Value} {fault : Fault} (present : cipher.isPresent)
    (plain : Value) (h : (Vault.decrypt store.keyPath cipher).run t = (.error fault, u)) :
    ∃ log, (store.apiKey cipher plain).run t =
      (if fault.isValueFault then .ok (.text "", false) else .error fault, { u with log }) := by
  unfold apiKey
  rw [if_pos present, run_bind, run_tryCatch_of_error (run_bind_of_error h)]
  cases fault.isValueFault
  · exact ⟨u.log, rfl⟩
  · exact ⟨_, rfl⟩

theorem apiKey_plain (store : Store) (t : Shelf) {cipher plain : Value}
    (absent : cipher.isPresent = false) (present : plain.isPresent) :
    ∃ log, (store.apiKey cipher plain).run t = (.ok (plain, true), { t with log }) := by
  unfold apiKey
  rw [absent, present]
  exact ⟨_, rfl⟩

theorem apiKey_absent {cipher plain : Value} (absent : cipher.isPresent = false)
    (absent' : plain.isPresent = false) :
    (store.apiKey cipher plain).run t = (.ok (.text "", false), t) := by
  unfold apiKey
  rw [absent, absent']
  rfl

/-! ### Loading the file -/

theorem loadFile_eq (holds : store.Holds t.disk fields) (filled : fields ≠ []) :
    store.loadFile.run t =
      (store.apiKey (cipherOf fields) (plainOf fields) >>= fun (key, plaintext) =>
        if plaintext || isOutdated fields then do
          store.migrate (ofRecord fields key)
          return ofRecord fields key
        else return ofRecord fields key).run t := by
  unfold loadFile
  rw [run_bind_of_ok holds.run_read, if_neg (by simpa using filled)]
  rfl

theorem loadFile_of_current {key : Value} {plaintext : Bool} (holds : store.Holds t.disk fields)
    (filled : fields ≠ [])
    (found : (store.apiKey (cipherOf fields) (plainOf fields)).run t = (.ok (key, plaintext), u))
    (current : (plaintext || isOutdated fields) = false) :
    store.loadFile.run t = (.ok (ofRecord fields key), u) := by
  rw [loadFile_eq holds filled, run_bind_of_ok found]
  dsimp only
  rw [current]
  rfl

theorem loadFile_of_stale {key : Value} {plaintext : Bool} {v : Shelf}
    (holds : store.Holds t.disk fields) (filled : fields ≠ [])
    (found : (store.apiKey (cipherOf fields) (plainOf fields)).run t = (.ok (key, plaintext), u))
    (stale : (plaintext || isOutdated fields) = true)
    (migrated : (store.migrate (ofRecord fields key)).run u = (.ok (), v)) :
    store.loadFile.run t = (.ok (ofRecord fields key), v) := by
  rw [loadFile_eq holds filled, run_bind_of_ok found]
  dsimp only
  rw [if_pos stale]
  exact run_bind_of_ok migrated

theorem loadFile_of_key {key : Value} {plaintext : Bool} (holds : store.Holds t.disk fields)
    (filled : fields ≠ [])
    (found : (store.apiKey (cipherOf fields) (plainOf fields)).run t = (.ok (key, plaintext), u))
    (saves : FailsAt (·.isFileFault) (store.save (ofRecord fields key)) u) :
    ∃ v, store.loadFile.run t = (.ok (ofRecord fields key), v) := by
  cases stale : plaintext || isOutdated fields with
  | true =>
      obtain ⟨v, migrated⟩ := migrate_ok saves
      exact ⟨v, loadFile_of_stale holds filled found stale migrated⟩
  | false => exact ⟨u, loadFile_of_current holds filled found stale⟩

theorem get_apiKey_ofRecord (nodup : fields.keys.Nodup) (key : Value) :
    (ofRecord fields key).get .apiKey = if key.isPresent then key else .text "" := by
  rw [get_ofRecord nodup, if_pos rfl, Option.filter_some]
  split <;> rfl

theorem save_ofRecord_fails {key : Value} (named : store.path.name ≠ "") {d : Disk}
    (holds : store.Holds d fields) (filled : fields ≠ [])
    (h : key.isPresent →
      FailsAt (·.isFileFault) (Vault.encrypt store.keyPath key) t) :
    FailsAt (·.isFileFault) (store.save (ofRecord fields key)) t := by
  have clean := holds.isClean filled
  refine save_fails (writable_ofRecord holds.documents key) ?_
    (fun _ => Disk.ensureDirectory_fails clean.parent) (Vault.replaceFile_fails named clean)
  rw [get_apiKey_ofRecord holds.documents.1]
  split
  · next present => exact fun _ => h present
  · exact fun empty => absurd empty (by decide)

/-- If the key is usable, the settings of the file are loaded, whether or not the file is
    written in its present form on the way. -/
theorem loadFile_ok (named : store.path.name ≠ "") (holds : store.Holds t.disk fields)
    (usable : store.KeyUsable t fields) :
    ∃ v, store.loadFile.run t = (.ok (ofRecord fields (store.storedKey t fields)), v) := by
  by_cases filled : fields = []
  · subst filled
    unfold loadFile
    rw [run_bind_of_ok holds.run_read]
    exact ⟨t, rfl⟩
  unfold KeyUsable at usable
  unfold storedKey
  by_cases cipher : (cipherOf fields).isPresent
  · rw [if_pos cipher] at usable ⊢
    rcases ran : (Vault.decrypt store.keyPath (cipherOf fields)).run t with ⟨fault | key, u⟩
    · obtain ⟨log, found⟩ := apiKey_of_refused cipher (plainOf fields) ran
      rw [if_pos (usable fault u ran)] at found
      apply loadFile_of_key holds filled found
      apply save_ofRecord_fails named holds filled
      exact fun empty => absurd empty Bool.false_ne_true
    · apply loadFile_of_key holds filled (apiKey_of_decrypted cipher ran)
      apply save_ofRecord_fails named holds filled
      intro _
      -- The vault that has decrypted the key can encrypt it again.
      obtain ⟨fernet, known⟩ := Vault.key_of_decrypt cipher ran
      obtain ⟨token, w, encrypted⟩ := Vault.encrypt_of_key store.keyPath known key
      exact .of_ok encrypted
  · rw [if_neg cipher] at usable ⊢
    rw [Bool.not_eq_true] at cipher
    by_cases plain : (plainOf fields).isPresent
    · rw [if_pos plain]
      obtain ⟨log, found⟩ := apiKey_plain store t cipher plain
      apply loadFile_of_key holds filled found
      apply save_ofRecord_fails named holds filled
      exact fun _ => (Vault.encrypt_logless _ _).failsAt (usable plain) log
    · rw [if_neg plain]
      rw [Bool.not_eq_true] at plain
      apply loadFile_of_key holds filled (apiKey_absent cipher plain)
      apply save_ofRecord_fails named holds filled
      exact fun empty => absurd empty (by decide)

/-- Whatever has been loaded can stand in a document. -/
theorem writable_of_loadFile {s : Settings} (loaded : store.loadFile.run t = (.ok s, u)) :
    Writable s := by
  unfold loadFile at loaded
  obtain ⟨fields, v, read, loaded⟩ := run_bind_ok loaded
  split at loaded
  · cases loaded
    exact fun field _ => isDocument_default field
  · obtain ⟨⟨key, plaintext⟩, w, -, loaded⟩ := run_bind_ok loaded
    have same : s = ofRecord fields key := by
      dsimp only at loaded
      split at loaded
      · obtain ⟨_, x, -, loaded⟩ := run_bind_ok loaded
        cases loaded
        rfl
      · cases loaded
        rfl
    exact same ▸ writable_ofRecord (documents_of_read read) key

/-- The API key of a file with an encrypted one is what decrypting gives. -/
theorem loadFile_decrypted (named : store.path.name ≠ "") (holds : store.Holds t.disk fields)
    (present : (cipherOf fields).isPresent)
    (usable : FailsAt (·.isValueFault) (Vault.decrypt store.keyPath (cipherOf fields)) t) :
    ∃ s u, store.loadFile.run t = (.ok s, u) ∧ ∀ text, text ≠ "" →
      (s.get .apiKey = .text text ↔
        ((Vault.decrypt store.keyPath (cipherOf fields)).run t).1 = .ok text) := by
  obtain ⟨u, loaded⟩ := loadFile_ok named holds (by rwa [KeyUsable, if_pos present])
  refine ⟨_, u, loaded, fun text filled => ?_⟩
  rw [get_apiKey_ofRecord holds.documents.1, storedKey, if_pos present]
  rcases ((Vault.decrypt store.keyPath (cipherOf fields)).run t).1 with fault | key
  · simp [Value.isPresent, filled.symm]
  · by_cases empty : key = ""
    · simp [empty, Value.isPresent, filled.symm]
    · simp [empty, Value.isPresent]

/-- A fault of decrypting that is no refusal is that of loading. -/
theorem loadFile_of_undecrypted (holds : store.Holds t.disk fields)
    (cipher : (cipherOf fields).isPresent) {fault : Fault} (other : fault.isValueFault = false)
    (ran : (Vault.decrypt store.keyPath (cipherOf fields)).run t = (.error fault, u)) :
    ∃ v, store.loadFile.run t = (.error fault, v) := by
  have filled : fields ≠ [] := by
    rintro rfl
    cases cipher
  obtain ⟨log, failed⟩ := apiKey_of_refused cipher (plainOf fields) ran
  rw [other] at failed
  rw [loadFile_eq holds filled]
  exact ⟨_, run_bind_of_error failed⟩

/-- A fault of encrypting that is none of the file system is that of loading. -/
theorem loadFile_of_unencrypted (holds : store.Holds t.disk fields)
    (cipher : (cipherOf fields).isPresent = false) (plain : (plainOf fields).isPresent)
    {fault : Fault} (other : fault.isFileFault = false)
    (ran : (Vault.encrypt store.keyPath (plainOf fields)).run t = (.error fault, u)) :
    ∃ log, store.loadFile.run t = (.error fault, { u with log }) := by
  have filled : fields ≠ [] := by
    rintro rfl
    cases plain
  obtain ⟨log, found⟩ := apiKey_plain store t cipher plain
  have same : (ofRecord fields (plainOf fields)).get .apiKey = plainOf fields := by
    rw [get_apiKey_ofRecord holds.documents.1, if_pos plain]
  -- The remark on the plain key is the only change before the key is encrypted.
  have failed : (Vault.encrypt store.keyPath (plainOf fields)).run { t with log } =
      (.error fault, { u with log }) := by
    rw [Vault.encrypt_logless, ran]
  rw [← same] at failed plain
  refine ⟨log, ?_⟩
  rw [loadFile_eq holds filled, run_bind_of_ok found]
  exact run_bind_of_error (migrate_of_error other (save_of_error plain failed))

theorem loadFile_error (holds : store.Holds t.disk fields)
    (unusable : ¬ store.KeyUsable t fields) :
    ∃ fault v, store.loadFile.run t = (.error fault, v) := by
  unfold KeyUsable at unusable
  by_cases cipher : (cipherOf fields).isPresent
  · rw [if_pos cipher] at unusable
    simp only [FailsAt, not_forall] at unusable
    obtain ⟨fault, u, ran, other⟩ := unusable
    rw [Bool.not_eq_true] at other
    exact ⟨fault, loadFile_of_undecrypted holds cipher other ran⟩
  · rw [if_neg cipher] at unusable
    simp only [FailsAt, not_forall] at unusable
    obtain ⟨plain, fault, u, ran, other⟩ := unusable
    rw [Bool.not_eq_true] at cipher other
    obtain ⟨log, failed⟩ := loadFile_of_unencrypted holds cipher plain other ran
    exact ⟨fault, _, failed⟩

/-! ### The overrides -/

/-- Overrides leave everything but the log alone. -/
theorem run_override (source : String) (s : Settings) (given : Fields) (t : Shelf) :
    ∃ log, (override source s given).run t = (.ok (s.overridden given).1, { t with log }) := by
  unfold override
  dsimp only
  split
  · exact ⟨_, rfl⟩
  · exact ⟨t.log, rfl⟩

/-- The upper layers are laid over whatever the file gives, and change nothing but the log. -/
theorem load_of_loadFile {s : Settings} (loaded : store.loadFile.run t = (.ok s, u))
    (e : Environment) (given : Fields) :
    ∃ log, (store.load e given).run t =
      (.ok ((s.overridden given).1.overridden (environmentFields e)).1, { u with log }) := by
  unfold load
  rw [run_bind_of_ok loaded]
  obtain ⟨log, applied⟩ := run_override "CLI" s given u
  rw [run_bind_of_ok applied, run_bind_of_ok (run_remark _ _)]
  exact run_override _ _ _ _

theorem load_ok (named : store.path.name ≠ "") (holds : store.Holds t.disk fields)
    (usable : store.KeyUsable t fields) (e : Environment) (given : Fields) :
    ∃ u, (store.load e given).run t =
      (.ok (((ofRecord fields (store.storedKey t fields)).overridden given).1.overridden
        (environmentFields e)).1, u) := by
  obtain ⟨u, loaded⟩ := loadFile_ok named holds usable
  obtain ⟨log, laid⟩ := load_of_loadFile loaded e given
  exact ⟨_, laid⟩

theorem load_error (holds : store.Holds t.disk fields) (unusable : ¬ store.KeyUsable t fields)
    (e : Environment) (given : Fields) :
    ∃ fault u, (store.load e given).run t = (.error fault, u) := by
  obtain ⟨fault, u, failed⟩ := loadFile_error holds unusable
  exact ⟨fault, u, run_bind_of_error failed⟩

/-! ### Loading or taking the defaults -/

section Defaults

variable {e : Environment} {given : Fields}

theorem loadOrDefault_of_ok {s : Settings} (h : (store.load e given).run t = (.ok s, u)) :
    (store.loadOrDefault e given).run t = (.ok s, u) := by
  unfold loadOrDefault
  rw [run_bind_of_ok (run_tryCatch_of_ok ((run_bind_of_ok h).trans rfl))]
  rfl

/-- An ordinary fault is remarked, and then the defaults are taken. -/
theorem run_loadOrDefault_of_error {fault : Fault}
    (h : (store.load e given).run t = (.error fault, u)) :
    (store.loadOrDefault e given).run t =
      if fault.isOrdinary then (.ok initial, { u with
        log := u.log ++ Log.one .warning "inkwell.app"
          ("Failed to load settings from " ++ store.path.text ++ ": " ++ fault.text) })
      else (.error fault, u) := by
  unfold loadOrDefault
  rw [run_bind, run_tryCatch_of_error (run_bind_of_error h)]
  unfold Fault.isOrdinary
  cases fault.isFileFault || fault.isValueFault <;> rfl

theorem loadOrDefault_of_error {fault : Fault}
    (h : (store.load e given).run t = (.error fault, u)) :
    ∃ v, (store.loadOrDefault e given).run t =
      (if fault.isOrdinary then .ok initial else .error fault, v) := by
  rw [run_loadOrDefault_of_error h]
  split
  · exact ⟨_, rfl⟩
  · exact ⟨u, rfl⟩

end Defaults

/-! ### The layers -/

/-- What the upper layers make of settings, field by field. -/
theorem get_upper {given : Fields} (distinct : given.keys.Nodup) (s : Settings) (e : Environment)
    (field : Field) :
    ((s.overridden given).1.overridden (environmentFields e)).1.get field =
      ((fromVariable? e field).or ((given.get? field.name).filter fun v => !v.isNull)).getD
        (s.get field) := by
  obtain ⟨distinct', gives⟩ := environmentFields_give e
  rw [get_overridden distinct', gives, fromVariable?_filter, get_overridden distinct,
    Option.getD_or]

/-- What the three upper layers make of a file, field by field. -/
theorem get_loaded {given : Fields} (nodup : fields.keys.Nodup) (distinct : given.keys.Nodup)
    (store : Store) (t : Shelf) (e : Environment) (field : Field) :
    (((ofRecord fields (store.storedKey t fields)).overridden given).1.overridden
        (environmentFields e)).1.get field =
      (((fromVariable? e field).or ((given.get? field.name).filter fun v => !v.isNull)).or
        (store.fromFile? t fields field)).getD field.default := by
  rw [get_upper distinct, get_ofRecord nodup]
  exact Option.getD_or.symm

/-- Passing over a null makes a difference exactly where the layers below it give a value
    that is not null. -/
theorem passed_over_iff (first second third : Option Value) (last : Value) :
    ((first.or (second.filter fun v => !v.isNull)).or third).getD last =
        ((first.or second).or third).getD last ↔
      (first = none → second = some .null → third.getD last = .null) := by
  cases first with
  | some v => simp
  | none =>
      cases second with
      | none => simp
      | some v => cases v <;> simp [Option.filter, Value.isNull]

theorem name_of_ofPath {path : Path} (opened : ofPath path = .ok store) :
    store.path.name ≠ "" := by
  unfold ofPath Path.withSuffix at opened
  split at opened
  · cases opened
  · next named =>
    cases opened
    simpa using named

/-- A plain key that cannot be encoded is of no use once the vault has its own key. -/
theorem not_keyUsable_of_unencodable {secret : LooseText} {fault : Fault} {key : Fernet.Key}
    (absent : (cipherOf fields).isPresent = false) (plain : plainOf fields = .text secret)
    (refused : secret.utf8 = .error fault)
    (unlocked : (Vault.unlock store.keyPath).run t = (.ok key, u)) :
    ¬store.KeyUsable t fields := by
  intro usable
  have present : (plainOf fields).isPresent := by
    rw [plain]
    cases secret with
    | whole s => cases refused
    | broken front h rest => simp [Value.isPresent]
  obtain ⟨failed, other⟩ := Vault.encrypt_unencodable refused unlocked
  rw [← plain] at failed
  rw [KeyUsable, absent, if_neg Bool.false_ne_true] at usable
  rw [usable present fault u failed] at other
  cases other

/-- A later layer goes before an earlier one: a field has the value of its variable, or
    else that of the last entry for it, or else that of the file, or else its default. An
    entry that gives null is passed over, so this fails to be the value of the last entry
    exactly where null is given over a value of the file that is not null. All of this is so
    exactly if the API key of the file is usable, and a plain one that cannot be encoded is
    not. Otherwise loading fails, and after an ordinary fault all fields have their
    defaults. -/
theorem later_layers_go_first {path : Path} (opened : ofPath path = .ok store)
    (holds : store.Holds t.disk fields) {entries : List String} {given : Fields}
    (read : readEntries entries = .ok given) (e : Environment) :
    ((∃ s u, (store.load e given).run t = (.ok s, u)) ↔ store.KeyUsable t fields) ∧
    (∀ secret fault key u, (cipherOf fields).isPresent = false → plainOf fields = .text secret →
      secret.utf8 = .error fault → (Vault.unlock store.keyPath).run t = (.ok key, u) →
      ¬store.KeyUsable t fields) ∧
    (∀ fault u, (store.load e given).run t = (.error fault, u) → fault.isOrdinary →
      ∃ v, (store.loadOrDefault e given).run t = (.ok initial, v)) ∧
    ∀ s u, (store.load e given).run t = (.ok s, u) →
      (store.loadOrDefault e given).run t = (.ok s, u) ∧
      ∀ field,
        s.get field =
          (((fromVariable? e field).or ((lastGiven? entries field).filter fun v => !v.isNull)).or
            (store.fromFile? t fields field)).getD field.default ∧
        (s.get field =
            (((fromVariable? e field).or (lastGiven? entries field)).or
              (store.fromFile? t fields field)).getD field.default ↔
          (fromVariable? e field = none → lastGiven? entries field = some .null →
            (store.fromFile? t fields field).getD field.default = .null)) := by
  have named := name_of_ofPath opened
  obtain ⟨distinct, last⟩ := readEntries_gives read
  have usable_of {s : Settings} {u : Shelf} (h : (store.load e given).run t = (.ok s, u)) :
      store.KeyUsable t fields := by
    by_contra unusable
    obtain ⟨fault, v, failed⟩ := load_error holds unusable e given
    rw [failed] at h
    cases h
  refine ⟨⟨?_, ?_⟩, fun _ _ _ _ => not_keyUsable_of_unencodable, ?_, ?_⟩
  · rintro ⟨s, u, h⟩
    exact usable_of h
  · intro usable
    obtain ⟨u, h⟩ := load_ok named holds usable e given
    exact ⟨_, u, h⟩
  · intro fault u failed ordinary
    obtain ⟨v, fell⟩ := loadOrDefault_of_error failed
    rw [if_pos ordinary] at fell
    exact ⟨v, fell⟩
  · intro s u h
    refine ⟨loadOrDefault_of_ok h, fun field => ?_⟩
    obtain ⟨v, loaded⟩ := load_ok named holds (usable_of h) e given
    rw [loaded] at h
    cases h
    rw [get_loaded holds.documents.1 distinct, last]
    exact ⟨rfl, passed_over_iff _ _ _ _⟩

def sampleStore : Store where
  path := { parts := ["s.json"] }
  keyPath := { parts := ["s.key"] }

/-- A shelf on which the store's file names an organization. -/
def sampleShelf : Shelf where
  disk := { nodes := [(["s.json"], .file (Text.utf8Encode
    "\x7b\"organization\": \"acme\", \"version\": 1\x7d".toList))] }

theorem sample_holds :
    sampleStore.Holds sampleShelf.disk [("organization", .text "acme"), ("version", .int 1)] := by
  have read : sampleShelf.disk.readText sampleStore.path =
      .ok "\x7b\"organization\": \"acme\", \"version\": 1\x7d" := by
    decide +kernel
  exact .record (by decide +kernel) read (by decide +kernel)

theorem sample_usable :
    sampleStore.KeyUsable sampleShelf [("organization", .text "acme"), ("version", .int 1)] := by
  unfold KeyUsable
  rw [if_neg (by decide)]
  exact fun present => absurd present (by decide)

/-- The organization comes from the file, the limit of retries from an entry, the model from
    its variable although an entry is given for it too, and the temperature is the default. -/
theorem layers_of_sample :
    readEntries ["model=m2", "max_retries=5"] =
      .ok [("model", .text "m2"), ("max_retries", .int 5)] ∧
    ∃ s u, (sampleStore.load { values := [("INKWELL_MODEL", "m3")] }
        [("model", .text "m2"), ("max_retries", .int 5)]).run sampleShelf = (.ok s, u) ∧
      s.get .organization = .text "acme" ∧ s.get .maxRetries = .int 5 ∧
      s.get .model = .text "m3" ∧ s.get .temperature = Field.default .temperature := by
  have read : readEntries ["model=m2", "max_retries=5"] =
      .ok [("model", .text "m2"), ("max_retries", .int 5)] := by
    decide +kernel
  have opened : ofPath sampleStore.path = .ok sampleStore := by decide +kernel
  obtain ⟨loads, -, -, gives⟩ := later_layers_go_first opened sample_holds read
    { values := [("INKWELL_MODEL", "m3")] }
  obtain ⟨s, u, loaded⟩ := loads.2 sample_usable
  have value field := ((gives s u loaded).2 field).1
  refine ⟨read, s, u, loaded, ?_, ?_, ?_, ?_⟩
  · rw [value]
    decide +kernel
  · rw [value]
    decide +kernel
  · rw [value]
    decide +kernel
  · rw [value]
    decide +kernel

/-- The last entry for the organization gives null, but the one of the file stays. -/
theorem null_entry_keeps_file_value :
    readEntries ["organization=none"] = .ok [("organization", .null)] ∧
    lastGiven? ["organization=none"] .organization = some .null ∧
    fromVariable? {} .organization = none ∧
    ∃ s u, (sampleStore.load {} [("organization", .null)]).run sampleShelf = (.ok s, u) ∧
      s.get .organization = .text "acme" := by
  have read : readEntries ["organization=none"] = .ok [("organization", .null)] := by
    decide +kernel
  have named : sampleStore.path.name ≠ "" := by decide +kernel
  obtain ⟨u, loaded⟩ := load_ok named sample_holds sample_usable {} [("organization", .null)]
  refine ⟨read, by decide +kernel, by decide +kernel, _, u, loaded, ?_⟩
  rw [get_loaded sample_holds.documents.1 (readEntries_gives read).1]
  decide +kernel

end Store

end ActionEngine.Settings
