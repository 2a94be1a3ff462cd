import ActionEngine.Proofs.Settings.Load

/-!
# Falling back

Loading settings falls back to the defaults if it fails in an ordinary way: a file cannot
be read or written, or a value is refused. A settings file that is no JSON object is mostly
passed over before that, and then the upper layers still apply. A record in the settings
file is never in the way, unless the API key that counts is no text.
-/

namespace ActionEngine.Settings.Store

open Keeping Steps

variable {store : Store} {t u : Shelf} {fields : Fields} {e : Environment} {given : Fields}

/-! ### Loading or taking the defaults -/

theorem loadOrDefault_ok (h : FailsAt (·.isOrdinary) (store.load e given) t) :
    ∃ s v, (store.loadOrDefault e given).run t = (.ok s, v) := by
  rcases ran : (store.load e given).run t with ⟨fault | s, u⟩
  · obtain ⟨v, fell⟩ := loadOrDefault_of_error ran
    rw [if_pos (h fault u ran)] at fell
    exact ⟨initial, v, fell⟩
  · exact ⟨s, u, loadOrDefault_of_ok ran⟩

/-! ### A file that is no record -/

/-- Something stands at the settings path, and it is no JSON object: bytes that are no text,
    a text that is no JSON, another JSON value, or a directory. -/
structure Broken (store : Store) (d : Disk) : Prop where
  present : d.has store.path = .ok true
  other : ∀ text fields, d.readText store.path = .ok text →
    Json.parse text ≠ .ok (.record fields)

/-- The settings file is a text, and no integer in it is too long to be read. -/
def Legible (store : Store) (d : Disk) : Prop :=
  ∃ text, d.readText store.path = .ok text ∧
    ∀ fault digits, Json.parse text = .error fault → fault.problem ≠ .longInteger digits

theorem Broken.run_read (broken : store.Broken t.disk) (legible : store.Legible t.disk) :
    ∃ u, store.read.run t = (.ok [], u) := by
  obtain ⟨text, read, short⟩ := legible
  unfold Store.read
  rw [run_bind_of_ok (a := true) (by rw [run_look, broken.present]), if_neg (by decide),
    run_bind_of_ok (by rw [run_look, read])]
  rcases parsed : Json.parse text with fault | v
  · dsimp only
    split
    · next digits long => exact absurd long (short fault digits parsed)
    · exact ⟨_, rfl⟩
  · cases v with
    | record fields => exact absurd parsed (broken.other text fields read)
    | _ => exact ⟨_, rfl⟩

theorem Broken.read_fails (broken : store.Broken t.disk) (illegible : ¬ store.Legible t.disk) :
    ∃ fault, store.read.run t = (.error fault, t) ∧ fault.isOrdinary := by
  unfold Store.read
  rw [run_bind_of_ok (a := true) (by rw [run_look, broken.present]), if_neg (by decide)]
  cases read : t.disk.readText store.path with
  | error fault =>
      refine ⟨fault, run_bind_of_error (by rw [run_look, read]), ?_⟩
      exact Disk.readText_ordinary _ _ _ read
  | ok text =>
      have long : ∃ fault digits, Json.parse text = .error fault ∧
          fault.problem = .longInteger digits := by
        by_contra none
        exact illegible ⟨text, read, fun fault digits parsed long =>
          none ⟨fault, digits, parsed, long⟩⟩
      obtain ⟨fault, digits, parsed, long⟩ := long
      refine ⟨.value fault.message, ?_, rfl⟩
      rw [run_bind_of_ok (by rw [run_look, read]), parsed]
      dsimp only
      rw [long]
      rfl

theorem loadFile_of_read (h : store.read.run t = (.ok [], u)) :
    store.loadFile.run t = (.ok initial, u) := by
  unfold loadFile
  rw [run_bind_of_ok h]
  rfl

theorem loadOrDefault_of_read (h : store.read.run t = (.ok [], u)) (e : Environment)
    (given : Fields) :
    ∃ v, (store.loadOrDefault e given).run t =
      (.ok ((initial.overridden given).1.overridden (environmentFields e)).1, v) := by
  obtain ⟨log, loaded⟩ := load_of_loadFile (loadFile_of_read h) e given
  exact ⟨_, loadOrDefault_of_ok loaded⟩

theorem loadOrDefault_of_illegible (broken : store.Broken t.disk)
    (illegible : ¬ store.Legible t.disk) (e : Environment) (given : Fields) :
    ∃ v, (store.loadOrDefault e given).run t = (.ok initial, v) := by
  obtain ⟨fault, failed, ordinary⟩ := broken.read_fails illegible
  have load : (store.load e given).run t = (.error fault, t) :=
    run_bind_of_error (run_bind_of_error failed)
  obtain ⟨v, fell⟩ := loadOrDefault_of_error load
  rw [if_pos ordinary] at fell
  exact ⟨v, fell⟩

theorem run_read_of_missing (missing : t.disk.has store.path = .ok false) :
    store.read.run t = (.ok [], t) := (Holds.absent missing).run_read

/-- A settings file that is no JSON object counts as none, with the upper layers still
    applied, exactly if it is a text whose integers are not too long. Otherwise all that is
    loaded is the defaults, which makes no difference only if the upper layers change
    nothing. -/
theorem broken_file_counts_as_missing_iff (broken : store.Broken t.disk)
    (missing : u.disk.has store.path = .ok false) (e : Environment) {entries : List String}
    {given : Fields} (read : readEntries entries = .ok given) :
    ∃ s s' v w, (store.loadOrDefault e given).run t = (.ok s, v) ∧
      (store.loadOrDefault e given).run u = (.ok s', w) ∧
      (∀ field, s'.get field =
        ((fromVariable? e field).or ((lastGiven? entries field).filter fun v => !v.isNull)).getD
          field.default) ∧
      (s = s' ↔ store.Legible t.disk ∨ s' = initial) ∧
      (¬ store.Legible t.disk → s = initial) := by
  obtain ⟨distinct, last⟩ := readEntries_gives read
  obtain ⟨w, alone⟩ := loadOrDefault_of_read (run_read_of_missing missing) e given
  have layers (field : Field) := get_upper distinct initial e field
  simp only [last] at layers
  by_cases legible : store.Legible t.disk
  · obtain ⟨x, passed⟩ := broken.run_read legible
    obtain ⟨v, loaded⟩ := loadOrDefault_of_read passed e given
    refine ⟨_, _, v, w, loaded, alone, layers, ?_, fun illegible => absurd legible illegible⟩
    simp [legible]
  · obtain ⟨v, loaded⟩ := loadOrDefault_of_illegible broken legible e given
    refine ⟨_, _, v, w, loaded, alone, layers, ?_, fun _ => rfl⟩
    simp [legible, eq_comm]

/-- A shelf on which some bytes stand in place of the sample settings. -/
def bytesShelf (content : List UInt8) : Shelf where
  disk := { nodes := [(["s.json"], .file content)] }

/-- A list in the settings file is passed over, and the entry for the model counts. -/
theorem list_counts_as_missing :
    ∃ s s' v w,
      (sampleStore.loadOrDefault {} [("model", .text "m2")]).run
        (bytesShelf (Text.utf8Encode "[1, 2]".toList)) = (.ok s, v) ∧
      (sampleStore.loadOrDefault {} [("model", .text "m2")]).run {} = (.ok s', w) ∧
      s = s' ∧ s.get .model = .text "m2" := by
  have text : (bytesShelf (Text.utf8Encode "[1, 2]".toList)).disk.readText sampleStore.path =
      .ok "[1, 2]" := by
    decide +kernel
  have parsed : Json.parse "[1, 2]" = .ok (.list [.int 1, .int 2]) := by decide +kernel
  have broken : sampleStore.Broken (bytesShelf (Text.utf8Encode "[1, 2]".toList)).disk := by
    constructor
    · decide +kernel
    · intro other fields same
      rw [text] at same
      cases same
      rw [parsed]
      simp
  have legible : sampleStore.Legible (bytesShelf (Text.utf8Encode "[1, 2]".toList)).disk := by
    refine ⟨_, text, fun fault digits failed => ?_⟩
    rw [parsed] at failed
    cases failed
  have missing : Disk.has {} sampleStore.path = .ok false := by decide +kernel
  have read : readEntries ["model=m2"] = .ok [("model", .text "m2")] := by decide +kernel
  obtain ⟨s, s', v, w, loaded, alone, layers, same, -⟩ :=
    broken_file_counts_as_missing_iff (u := {}) broken missing {} read
  obtain rfl := same.2 (.inl legible)
  refine ⟨s, s, v, w, loaded, alone, rfl, ?_⟩
  rw [layers]
  decide +kernel

/-- A settings file whose only byte starts no character: the entry for the model is lost,
    although it counts if there is no settings file. -/
theorem undecodable_file_loses_entry :
    readEntries ["model=m2"] = .ok [("model", .text "m2")] ∧
    sampleStore.Broken (bytesShelf [0xff]).disk ∧
    (∃ s v, (sampleStore.loadOrDefault {} [("model", .text "m2")]).run (bytesShelf [0xff]) =
      (.ok s, v) ∧ s.get .model = .text "gpt-4o-mini") ∧
    ∃ s v, (sampleStore.loadOrDefault {} [("model", .text "m2")]).run {} = (.ok s, v) ∧
      s.get .model = .text "m2" := by
  have unread (text : String) :
      (bytesShelf [0xff]).disk.readText sampleStore.path ≠ .ok text := by
    intro same
    have failed : ((bytesShelf [0xff]).disk.readText sampleStore.path).toOption = none := by
      decide +kernel
    rw [same] at failed
    cases failed
  have broken : sampleStore.Broken (bytesShelf [0xff]).disk :=
    ⟨by decide +kernel, fun text _ same => absurd same (unread text)⟩
  have illegible : ¬ sampleStore.Legible (bytesShelf [0xff]).disk :=
    fun ⟨text, same, _⟩ => unread text same
  have missing : Disk.has {} sampleStore.path = .ok false := by decide +kernel
  obtain ⟨v, fell⟩ :=
    loadOrDefault_of_illegible broken illegible {} [("model", .text "m2")]
  obtain ⟨w, alone⟩ :=
    loadOrDefault_of_read (run_read_of_missing (t := {}) missing) {} [("model", .text "m2")]
  refine ⟨by decide +kernel, broken, ⟨_, v, fell, rfl⟩, _, w, alone, ?_⟩
  rw [get_upper (by decide)]
  decide +kernel

/-! ### Any record -/

theorem apiKey_ordinary {cipher plain : Value}
    (h : FailsAt (·.isOrdinary) (Vault.decrypt store.keyPath cipher) t) :
    FailsAt (·.isOrdinary) (store.apiKey cipher plain) t := by
  by_cases present : cipher.isPresent
  · rcases ran : (Vault.decrypt store.keyPath cipher).run t with ⟨fault | key, u⟩
    · obtain ⟨v, refused⟩ := apiKey_of_refused present plain ran
      intro other w failed
      rw [refused] at failed
      split at failed <;> cases failed
      exact h fault u ran
    · exact .of_ok (apiKey_of_decrypted present ran)
  · rw [Bool.not_eq_true] at present
    by_cases given : plain.isPresent
    · obtain ⟨log, found⟩ := apiKey_plain store t present given
      exact .of_ok found
    · rw [Bool.not_eq_true] at given
      exact .of_ok (apiKey_absent present given)

theorem migrate_ordinary {s : Settings} (h : FailsAt (·.isOrdinary) (store.save s) t) :
    FailsAt (·.isOrdinary) (store.migrate s) t := by
  rcases ran : (store.save s).run t with ⟨fault | _, u⟩
  · cases other : fault.isFileFault
    · intro same v failed
      rw [migrate_of_error other ran] at failed
      cases failed
      exact h fault u ran
    · unfold migrate
      intro same v failed
      rw [run_tryCatch_of_error ran, if_pos other] at failed
      cases failed
  · unfold migrate
    exact .of_ok (run_tryCatch_of_ok ran)

/-- Loading the file fails only as finding its key and writing it in its present form do. -/
theorem loadFile_fails {P : Fault → Prop} (holds : store.Holds t.disk fields)
    (filled : fields ≠ [])
    (finds : FailsAt P (store.apiKey (cipherOf fields) (plainOf fields)) t)
    (migrates : ∀ key plaintext u,
      (store.apiKey (cipherOf fields) (plainOf fields)).run t = (.ok (key, plaintext), u) →
      FailsAt P (store.migrate (ofRecord fields key)) u) :
    FailsAt P store.loadFile t := by
  intro fault u failed
  rw [loadFile_eq holds filled] at failed
  refine FailsAt.bind finds ?_ fault u failed
  rintro ⟨key, plaintext⟩ v found
  dsimp only
  split
  · exact (migrates key plaintext v found).bind fun _ _ _ => .of_ok rfl
  · exact .of_ok rfl

theorem load_fails {P : Fault → Prop} (file : FailsAt P store.loadFile t) (e : Environment)
    (given : Fields) : FailsAt P (store.load e given) t := by
  rcases ran : store.loadFile.run t with ⟨fault | s, u⟩
  · intro other v failed
    rw [show (store.load e given).run t = (.error fault, u) from run_bind_of_error ran] at failed
    cases failed
    exact file fault u ran
  · obtain ⟨log, loaded⟩ := load_of_loadFile ran e given
    exact .of_ok loaded

/-- The key that is found is a text, or it is the one in plain form. -/
theorem apiKey_gives {cipher plain key : Value} {plaintext : Bool}
    (found : (store.apiKey cipher plain).run t = (.ok (key, plaintext), u)) :
    (∃ s, key = .text s) ∨ (cipher.isPresent = false ∧ plain.isPresent ∧ key = plain ∧
      ∃ log, u = { t with log }) := by
  by_cases present : cipher.isPresent
  · rcases ran : (Vault.decrypt store.keyPath cipher).run t with ⟨fault | s, v⟩
    · obtain ⟨w, refused⟩ := apiKey_of_refused present plain ran
      rw [refused] at found
      split at found <;> cases found
      exact .inl ⟨"", rfl⟩
    · rw [apiKey_of_decrypted present ran] at found
      cases found
      exact .inl ⟨s, rfl⟩
  · rw [Bool.not_eq_true] at present
    by_cases given : plain.isPresent
    · obtain ⟨log, kept⟩ := apiKey_plain store t present given
      rw [kept] at found
      cases found
      exact .inr ⟨present, given, rfl, log, rfl⟩
    · rw [Bool.not_eq_true] at given
      rw [apiKey_absent present given] at found
      cases found
      exact .inl ⟨"", rfl⟩

theorem save_ordinary {key : Value} {d : Disk} (holds : store.Holds d fields)
    (h : key.isPresent → FailsAt (·.isOrdinary) (Vault.encrypt store.keyPath key) t) :
    FailsAt (·.isOrdinary) (store.save (ofRecord fields key)) t := by
  refine save_fails (writable_ofRecord holds.documents key) ?_
    (Disk.ensureDirectory_ordinary · store.path.parent) (Vault.replaceFile_ordinary store.path)
  rw [get_apiKey_ofRecord holds.documents.1]
  split
  · next present => exact fun _ => h present
  · exact fun empty => absurd empty (by decide)

/-- If the API key that counts is a text, or a plain one meets an ordinary fault, then
    loading fails in ordinary ways only. -/
theorem loadFile_ordinary (holds : store.Holds t.disk fields)
    (cipher : (cipherOf fields).isPresent → (cipherOf fields).isText)
    (plain : (cipherOf fields).isPresent = false → (plainOf fields).isPresent →
      FailsAt (·.isOrdinary) (Vault.encrypt store.keyPath (plainOf fields)) t) :
    FailsAt (·.isOrdinary) store.loadFile t := by
  by_cases filled : fields = []
  · subst filled
    exact .of_ok (loadFile_of_read holds.run_read)
  have decrypts : FailsAt (·.isOrdinary) (Vault.decrypt store.keyPath (cipherOf fields)) t := by
    by_cases present : (cipherOf fields).isPresent
    · obtain ⟨s, entry⟩ := Value.isText_iff.1 (cipher present)
      rw [entry]
      exact Vault.decrypt_ordinary store.keyPath s t
    · exact .of_ok (Vault.decrypt_absent (by simpa using present))
  apply loadFile_fails holds filled (apiKey_ordinary decrypts)
  intro key plaintext u found
  apply migrate_ordinary
  apply save_ordinary holds
  intro _
  rcases apiKey_gives found with ⟨s, rfl⟩ | ⟨absent, given, rfl, log, rfl⟩
  · exact Vault.encrypt_ordinary store.keyPath s u
  · exact (Vault.encrypt_logless _ _).failsAt (plain absent given) log

theorem loadOrDefault_of_loadFile_error {fault : Fault}
    (failed : store.loadFile.run t = (.error fault, u)) (other : fault.isOrdinary = false)
    (e : Environment) (given : Fields) :
    ∃ v, (store.loadOrDefault e given).run t = (.error fault, v) := by
  have load : (store.load e given).run t = (.error fault, u) := run_bind_of_error failed
  obtain ⟨v, passed⟩ := loadOrDefault_of_error load
  rw [other] at passed
  exact ⟨v, passed⟩

/-- A record in the settings file gives settings, the defaults at worst, exactly if the API
    key that counts is a text: the encrypted one, or the plain one if there is none. Only
    a vault without a key keeps a plain one of another kind from being in the way, because
    it fails in an ordinary way before it looks at the key. -/
theorem record_gives_settings_iff (holds : store.Holds t.disk fields) (e : Environment)
    (given : Fields) :
    (∃ s u, (store.loadOrDefault e given).run t = (.ok s, u)) ↔
      ((cipherOf fields).isPresent → (cipherOf fields).isText) ∧
      ((cipherOf fields).isPresent = false → (plainOf fields).isPresent →
        (∃ key u, (Vault.unlock store.keyPath).run t = (.ok key, u)) →
        (plainOf fields).isText) := by
  constructor
  · rintro ⟨s, u, loaded⟩
    constructor
    · intro present
      by_contra other
      rw [Bool.not_eq_true] at other
      obtain ⟨fault, ran, odd⟩ := Vault.decrypt_other store.keyPath present other t
      obtain ⟨v, failed⟩ := loadFile_of_undecrypted holds present (Fault.not_value odd) ran
      obtain ⟨w, passed⟩ := loadOrDefault_of_loadFile_error failed odd e given
      rw [loaded] at passed
      cases passed
    · rintro absent present ⟨key, v, unlocked⟩
      by_contra other
      rw [Bool.not_eq_true] at other
      obtain ⟨fault, ran, odd⟩ := Vault.encrypt_other present other unlocked
      obtain ⟨w, failed⟩ := loadFile_of_unencrypted holds absent present (Fault.not_file odd) ran
      obtain ⟨x, passed⟩ := loadOrDefault_of_loadFile_error failed odd e given
      rw [loaded] at passed
      cases passed
  · rintro ⟨cipher, plain⟩
    apply loadOrDefault_ok
    apply load_fails
    apply loadFile_ordinary holds cipher
    intro absent present
    rcases ran : (Vault.unlock store.keyPath).run t with ⟨fault | key, u⟩
    · intro other v failed
      rw [Vault.encrypt_of_locked present ran] at failed
      cases failed
      exact Vault.unlock_ordinary store.keyPath t fault u ran
    · obtain ⟨s, entry⟩ := Value.isText_iff.1 (plain absent present ⟨key, u, ran⟩)
      rw [entry]
      exact Vault.encrypt_ordinary store.keyPath s t

/-- A shelf with some text in place of the sample settings, and with a key for the vault. -/
def textShelf (text : String) : Shelf where
  disk := { nodes := [(["s.json"], .file (Text.utf8Encode text.toList)),
    (["s.key"], .file (Text.utf8Encode (List.replicate 43 'A' ++ ['='])))] }

theorem textShelf_unlocked (text : String) :
    ∃ key u, (Vault.unlock sampleStore.keyPath).run (textShelf text) = (.ok key, u) :=
  ⟨⟨List.replicate 16 0, List.replicate 16 0⟩,
    { textShelf text with key := some ⟨List.replicate 16 0, List.replicate 16 0⟩ }, rfl⟩

/-- Neither an encrypted key that is refused nor a model that is a number is in the way. -/
theorem odd_record_gives_settings :
    sampleStore.Holds (textShelf "\x7b\"api_key_ciphertext\": \"x\", \"model\": 7\x7d").disk
      [("api_key_ciphertext", .text "x"), ("model", .int 7)] ∧
    ∃ s u, (sampleStore.loadOrDefault {} []).run
      (textShelf "\x7b\"api_key_ciphertext\": \"x\", \"model\": 7\x7d") = (.ok s, u) := by
  have read : (textShelf "\x7b\"api_key_ciphertext\": \"x\", \"model\": 7\x7d").disk.readText
      sampleStore.path = .ok "\x7b\"api_key_ciphertext\": \"x\", \"model\": 7\x7d" := by
    decide +kernel
  have holds : sampleStore.Holds
      (textShelf "\x7b\"api_key_ciphertext\": \"x\", \"model\": 7\x7d").disk
      [("api_key_ciphertext", .text "x"), ("model", .int 7)] :=
    .record (by decide +kernel) read (by decide +kernel)
  refine ⟨holds, (record_gives_settings_iff holds {} []).2 ⟨?_, ?_⟩⟩
  · exact fun _ => rfl
  · intro absent
    cases absent

/-- An encrypted key that is a number is in the way, although the vault has its key. -/
theorem numeric_cipher_is_in_the_way :
    sampleStore.Holds (textShelf "\x7b\"api_key_ciphertext\": 5\x7d").disk
      [("api_key_ciphertext", .int 5)] ∧
    (∃ key u, (Vault.unlock sampleStore.keyPath).run
      (textShelf "\x7b\"api_key_ciphertext\": 5\x7d") = (.ok key, u)) ∧
    ∃ u, (sampleStore.loadOrDefault {} []).run (textShelf "\x7b\"api_key_ciphertext\": 5\x7d") =
      (.error (.system .member (some "'int' object has no attribute 'partition'")), u) := by
  have read : (textShelf "\x7b\"api_key_ciphertext\": 5\x7d").disk.readText
      sampleStore.path = .ok "\x7b\"api_key_ciphertext\": 5\x7d" := by
    decide +kernel
  have holds : sampleStore.Holds (textShelf "\x7b\"api_key_ciphertext\": 5\x7d").disk
      [("api_key_ciphertext", .int 5)] :=
    .record (by decide +kernel) read (by decide +kernel)
  refine ⟨holds, textShelf_unlocked _, ?_⟩
  have ran : (Vault.decrypt sampleStore.keyPath (cipherOf [("api_key_ciphertext", .int 5)])).run
      (textShelf "\x7b\"api_key_ciphertext\": 5\x7d") = (.error (.system .member
        (some "'int' object has no attribute 'partition'")), _) := rfl
  obtain ⟨v, failed⟩ := loadFile_of_undecrypted holds rfl rfl ran
  exact loadOrDefault_of_loadFile_error failed rfl {} []

end ActionEngine.Settings.Store
