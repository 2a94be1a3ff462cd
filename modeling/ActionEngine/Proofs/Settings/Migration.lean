import ActionEngine.Proofs.Settings.Fallback
import ActionEngine.Proofs.Settings.Saved

/-!
# Bringing the settings file up to date

Loading writes the settings file only to bring it to its present form. What it writes is
what the file gives, without the overrides, so that loading again gives the same settings
and writes nothing any more. Only a plain API key that cannot be encoded keeps the file from
being brought up to date; then loading fails each time, and the file stays as it is.
-/

namespace ActionEngine.Settings.Store

open Keeping Steps

variable {site : Vault.Site} {dir : Path} {place : Disk.Place} {t u : Shelf} {fields : Fields}

/-! ### The present form -/

/-- Fields that are left as they are: no plain API key counts, and the version is the present
    one unless nothing stands beside the API key. -/
structure IsCurrent (fields : Fields) : Prop where
  hidden : (plainOf fields).isPresent → (cipherOf fields).isPresent
  versioned : ((fields.get? "version").getD .null).equalsInt version ∨
    ∀ name ∈ fields.keys, name = cipherField ∨ name = Field.apiKey.name

theorem isOutdated_eq_false_iff (nodup : fields.keys.Nodup) :
    isOutdated fields = false ↔ ((fields.get? "version").getD .null).equalsInt version ∨
      ∀ name ∈ fields.keys, name = cipherField ∨ name = Field.apiKey.name := by
  have nodup' : (Fields.drop fields cipherField).keys.Nodup :=
    nodup.sublist (Fields.keys_filter_sublist _ _)
  have bare : (Fields.drop (Fields.drop fields cipherField) Field.apiKey.name).isEmpty ↔
      ∀ name ∈ fields.keys, name = cipherField ∨ name = Field.apiKey.name := by
    rw [List.isEmpty_iff, Fields.drop, List.filter_eq_nil_iff]
    simp only [Fields.drop, Fields.keys, List.mem_filter, List.mem_map, bne_iff_ne,
      not_not, forall_exists_index, and_imp, forall_apply_eq_imp_iff₂]
    refine forall₂_congr fun f _ => ?_
    tauto
  unfold isOutdated
  dsimp only
  rw [Fields.get?_drop nodup', if_neg (by decide), Fields.get?_drop nodup, if_neg (by decide),
    ← bare, Bool.and_eq_false_iff, Bool.not_eq_false', Bool.not_eq_false', or_comm]

/-- The fields are current exactly if loading does not write them. -/
theorem isCurrent_iff (nodup : fields.keys.Nodup) {plaintext : Bool}
    (found : plaintext = true ↔ (cipherOf fields).isPresent = false ∧ (plainOf fields).isPresent) :
    IsCurrent fields ↔ (plaintext || isOutdated fields) = false := by
  have kept : plaintext = false ↔ ((plainOf fields).isPresent → (cipherOf fields).isPresent) := by
    rw [← Bool.not_eq_true, found, not_and', Bool.not_eq_false]
  rw [Bool.or_eq_false_iff, kept, isOutdated_eq_false_iff nodup]
  exact ⟨fun h => ⟨h.hidden, h.versioned⟩, fun h => ⟨h.1, h.2⟩⟩

/-- What has the settings in the form of the file is current. -/
theorem Encodes.isCurrent {d : Disk} {s : Settings} (has : Encodes d place fields s) :
    IsCurrent fields where
  hidden present := by
    unfold plainOf at present
    rw [has.hidden] at present
    cases present
  versioned := by
    rw [has.versioned]
    exact .inl (by decide)

/-! ### What the file holds -/

theorem Holds.unique {store : Store} {d : Disk} {record : Fields} (holds : store.Holds d fields)
    (holds' : store.Holds d record) : fields = record := by
  cases holds with
  | absent free =>
      cases holds' with
      | absent => rfl
      | record present => cases free.symm.trans present
  | record present read parsed =>
      cases holds' with
      | absent free => cases free.symm.trans present
      | record present' read' parsed' =>
          cases read.symm.trans read'
          cases parsed.symm.trans parsed'
          rfl

/-- What the file holds is told from what stands at its place. -/
theorem Holds.congr {d d' : Disk} (holds : (ofSite site).Holds d fields)
    (entry : Disk.IsEntry site.name) (there : d.DirectoryAt site.dir place)
    (there' : d'.DirectoryAt site.dir place)
    (same : d'.node? (place ++ [site.name]) = d.node? (place ++ [site.name])) :
    (ofSite site).Holds d' fields := by
  have has : d'.has (ofSite site).path = d.has (ofSite site).path :=
    (there'.has entry).trans ((there.has entry).trans (by rw [same])).symm
  have read : d'.readText (ofSite site).path = d.readText (ofSite site).path := by
    unfold Disk.readText
    rw [show d'.read (ofSite site).path = d.read (ofSite site).path from
      there.read_congr there' entry same]
  cases holds with
  | absent free => exact .absent (has.trans free)
  | record present text parsed => exact .record (has.trans present) (read.trans text) parsed

theorem Holds.congr_keptIn {d d' : Disk} (holds : (keptIn dir).Holds d fields)
    (there : d.DirectoryAt dir place) (there' : d'.DirectoryAt dir place)
    (same : d'.node? (place ++ ["settings.json"]) = d.node? (place ++ ["settings.json"])) :
    (keptIn dir).Holds d' fields := by
  rw [← ofSite_ofDirectory] at holds ⊢
  exact holds.congr Vault.Site.isEntry_json there there' same

/-! ### Loading -/

/-- Finding the API key does to the disk what decrypting does. -/
theorem apiKey_disk (store : Store) (cipher plain : Value) (t : Shelf) :
    ((store.apiKey cipher plain).run t).2.disk =
      ((Vault.decrypt store.keyPath cipher).run t).2.disk := by
  by_cases present : cipher.isPresent
  · rcases ran : (Vault.decrypt store.keyPath cipher).run t with ⟨fault | text, u⟩
    · obtain ⟨log, refused⟩ := apiKey_of_refused present plain ran
      rw [refused]
    · rw [apiKey_of_decrypted present ran]
  · rw [Bool.not_eq_true] at present
    rw [Vault.decrypt_absent present]
    by_cases given : plain.isPresent
    · obtain ⟨log, found⟩ := apiKey_plain store t present given
      rw [found]
    · rw [Bool.not_eq_true] at given
      rw [apiKey_absent present given]

theorem whole_of_isWhole {s : LooseText} (whole : (Value.text s).isWhole) :
    ∃ text : String, s = text := by
  cases s with
  | whole text => exact ⟨text, rfl⟩
  | broken front half rest => cases whole

/-- The API key is found in the same way every time. -/
theorem apiKey_inOrder (order : site.InOrder place t.disk t.key) {cipher plain : Value}
    (texts : ∀ v ∈ [cipher, plain], v.isPresent → v.isText)
    (whole : cipher.isPresent = false → plain.isWhole) :
    ∃ (text : String) (plaintext : Bool) (u : Shelf), ((ofSite site).apiKey cipher plain).run t =
        (.ok (.text text, plaintext), u) ∧
      (plaintext = true ↔ cipher.isPresent = false ∧ plain.isPresent) ∧
      site.Left place t.disk u.disk ∧ site.InOrder place u.disk u.key ∧
      ∀ v : Shelf, v.disk = u.disk → site.InOrder place v.disk v.key →
        ∃ w, ((ofSite site).apiKey cipher plain).run v = (.ok (.text text, plaintext), w) ∧
          w.disk = u.disk ∧ site.InOrder place w.disk w.key := by
  by_cases present : cipher.isPresent
  · obtain ⟨secret, rfl⟩ := Value.isText_iff.1 (texts cipher (by simp) present)
    obtain ⟨result, u, ran, refuses, order', again⟩ := Vault.decrypt_inOrder order secret
    have left := Vault.decrypt_left order.there secret
    rw [ran] at left
    cases result with
    | ok text =>
        refine ⟨text, false, u, apiKey_of_decrypted present ran, by simp [present], left, order',
          fun v same ready => ?_⟩
        obtain ⟨key, ran', ready'⟩ := again v same ready
        exact ⟨_, apiKey_of_decrypted present ran', same, ready'⟩
    | error fault =>
        obtain ⟨log, refused⟩ := @apiKey_of_refused (ofSite site) _ _ _ _ present plain ran
        rw [if_pos (refuses fault rfl)] at refused
        refine ⟨"", false, _, refused, by simp [present], left, order', fun v same ready => ?_⟩
        obtain ⟨key, ran', ready'⟩ := again v same ready
        obtain ⟨log', refused'⟩ := @apiKey_of_refused (ofSite site) _ _ _ _ present plain ran'
        rw [if_pos (refuses fault rfl)] at refused'
        exact ⟨_, refused', same, ready'⟩
  · rw [Bool.not_eq_true] at present
    by_cases given : plain.isPresent
    · obtain ⟨secret, rfl⟩ := Value.isText_iff.1 (texts plain (by simp) given)
      obtain ⟨text, rfl⟩ := whole_of_isWhole (whole present)
      obtain ⟨log, found⟩ := apiKey_plain (ofSite site) t present given
      refine ⟨text, true, _, found, by simp [present, given], .alone, order, fun v same ready => ?_⟩
      obtain ⟨log', found'⟩ := apiKey_plain (ofSite site) v present given
      exact ⟨_, found', same, ready⟩
    · rw [Bool.not_eq_true] at given
      exact ⟨"", false, t, apiKey_absent present given, by simp [given], .alone, order,
        fun v same ready => ⟨v, apiKey_absent present given, same, ready⟩⟩

theorem apiKey_ofRecord_isText (nodup : fields.keys.Nodup) (text : String) :
    ∃ text' : String, (ofRecord fields (.text text)).get .apiKey = .text text' := by
  rw [get_apiKey_ofRecord nodup]
  split
  · exact ⟨text, rfl⟩
  · exact ⟨"", rfl⟩

/-- Loading from this disk gives the settings, whatever the vault knows, and writes nothing. -/
def Steady (dir : Path) (place : Disk.Place) (d : Disk) (s : Settings) : Prop :=
  ∀ v : Shelf, v.disk = d → Vault.InOrder dir place v.disk v.key →
    ∃ s' w, (keptIn dir).loadFile.run v = (.ok s', w) ∧ w.disk = d ∧
      Vault.InOrder dir place w.disk w.key ∧ ∀ field, (s'.get field).Alike (s.get field)

theorem steady_of_encodes {d : Disk} {s : Settings} {text : String}
    (holds : (keptIn dir).Holds d fields) (has : Encodes d place fields s)
    (writable : Writable s) (key : s.get .apiKey = .text text) : Steady dir place d s := by
  rintro v rfl ready
  obtain ⟨s', known, loaded, ready', alike⟩ := loadFile_encoded ready holds has writable key
  exact ⟨s', _, loaded, rfl, ready', alike⟩

/-- The file's API key is a plain one with half of a pair in it, so it cannot be encrypted. -/
def KeyBroken (fields : Fields) : Prop :=
  (cipherOf fields).isPresent = false ∧ (plainOf fields).isWhole = false

theorem isWhole_of_not_keyBroken (unbroken : ¬ KeyBroken fields)
    (absent : (cipherOf fields).isPresent = false) : (plainOf fields).isWhole :=
  Bool.not_eq_false _ ▸ fun broken => unbroken ⟨absent, broken⟩

/-- Such a key is refused once the vault has its own, and nothing else is written. -/
theorem loadFile_keyBroken (order : site.InOrder place t.disk t.key)
    (holds : (ofSite site).Holds t.disk fields) (broken : KeyBroken fields) :
    ∃ message u, (ofSite site).loadFile.run t = (.error (.system .unencodable message), u) ∧
      site.Left place t.disk u.disk ∧ site.InOrder place u.disk u.key ∧
      u.disk = ((Vault.encrypt (ofSite site).keyPath (plainOf fields)).run t).2.disk := by
  obtain ⟨absent, broken⟩ := broken
  obtain ⟨secret, plain⟩ : ∃ secret, plainOf fields = .text secret := by
    cases given : plainOf fields with
    | text secret => exact ⟨secret, rfl⟩
    | _ => cases given ▸ broken
  obtain ⟨key, u, unlocked, -, order'⟩ := Vault.unlock_inOrder order
  have left := Vault.unlock_left order.there (t := t)
  rw [unlocked] at left
  rw [plain] at broken
  cases secret with
  | whole text => cases broken
  | broken front half rest =>
      obtain ⟨message, refused⟩ : ∃ message, LooseText.utf8 (.broken front half rest) =
        .error (.system .unencodable message) := ⟨_, rfl⟩
      obtain ⟨failed, other⟩ := Vault.encrypt_unencodable refused unlocked
      have present : (plainOf fields).isPresent := by
        rw [plain]
        simp [Value.isPresent]
      rw [← plain] at failed
      obtain ⟨log, loaded⟩ := loadFile_of_unencrypted holds absent present other failed
      exact ⟨_, _, loaded, left, order', (congrArg (·.2.disk) failed).symm⟩

/-- Once its files are in order, loading the file writes it at most once. -/
theorem loadFile_inOrder (order : Vault.InOrder dir place t.disk t.key)
    (holds : (keptIn dir).Holds t.disk fields)
    (texts : ∀ v ∈ [cipherOf fields, plainOf fields], v.isPresent → v.isText)
    (unbroken : ¬ KeyBroken fields) :
    ∃ s u, (keptIn dir).loadFile.run t = (.ok s, u) ∧ Vault.InOrder dir place u.disk u.key ∧
      (IsCurrent fields →
        u.disk.node? (place ++ ["settings.json"]) = t.disk.node? (place ++ ["settings.json"])) ∧
      (¬ IsCurrent fields →
        ∃ record, (keptIn dir).Holds u.disk record ∧ Encodes u.disk place record s) ∧
      Steady dir place u.disk s := by
  by_cases filled : fields = []
  · subst filled
    have read (v : Shelf) (same : v.disk = t.disk) :
        (keptIn dir).loadFile.run v = (.ok initial, v) :=
      loadFile_of_read (Holds.run_read (same ▸ holds))
    have current : IsCurrent [] :=
      ⟨fun present => absurd present (by decide), .inr fun _ h => nomatch h⟩
    exact ⟨initial, t, read t rfl, order, fun _ => rfl, fun other => absurd current other,
      fun v same ready => ⟨initial, v, read v same, same, ready, fun _ => rfl⟩⟩
  obtain ⟨nodup, -⟩ := holds.documents
  obtain ⟨text, plaintext, u, found, migrates, left, order', again⟩ :=
    apiKey_inOrder (Vault.Site.inOrder_ofDirectory.2 order) texts
      (isWhole_of_not_keyBroken unbroken)
  simp only [ofSite_ofDirectory, Vault.Site.inOrder_ofDirectory] at found order' again
  have kept : u.disk.node? (place ++ ["settings.json"]) =
      t.disk.node? (place ++ ["settings.json"]) :=
    left.settings (Vault.Site.name_ne_key_ofDirectory dir)
      (Vault.Site.name_ne_draft_ofDirectory dir)
  have writable := writable_ofRecord holds.documents (.text text)
  obtain ⟨text', key⟩ := apiKey_ofRecord_isText nodup text
  have current := isCurrent_iff nodup migrates
  cases stale : plaintext || isOutdated fields with
  | true =>
      have other : ¬ IsCurrent fields := by
        rw [current, stale]
        decide
      obtain ⟨record, v, saved, order'', holds', has⟩ :=
        save_keptIn ⟨_, order'.there.ensureDirectory, order'⟩ writable key
      have loaded := loadFile_of_stale holds filled found stale (run_tryCatch_of_ok saved)
      exact ⟨_, v, loaded, order'', fun same => absurd same other, fun _ => ⟨record, holds', has⟩,
        steady_of_encodes holds' has writable key⟩
  | false =>
      have same : IsCurrent fields := current.2 stale
      have holds' : (keptIn dir).Holds u.disk fields :=
        holds.congr_keptIn order.there order'.there kept
      refine ⟨_, u, loadFile_of_current holds filled found stale, order', fun _ => kept,
        fun other => absurd same other, ?_⟩
      intro v same ready
      obtain ⟨w, found', same', ready'⟩ := again v same ready
      exact ⟨_, w, loadFile_of_current (same ▸ holds') filled found' stale, same', ready',
        fun _ => rfl⟩

/-! ### Loading over and over -/

/-- The value of a field in effect: that of its variable, of an override that is not null,
    of the file, or its default. -/
def inEffect (store : Store) (t : Shelf) (fields : Fields) (e : Environment) (given : Fields)
    (field : Field) : Value :=
  (((fromVariable? e field).or ((given.get? field.name).filter fun v => !v.isNull)).or
    (store.fromFile? t fields field)).getD field.default

/-- What was loaded from the file is what the file gives. -/
theorem get_loadFile {store : Store} {s : Settings} (named : store.path.name ≠ "")
    (holds : store.Holds t.disk fields) (loaded : store.loadFile.run t = (.ok s, u))
    (field : Field) : s.get field = (store.fromFile? t fields field).getD field.default := by
  have usable : store.KeyUsable t fields := by
    by_contra unusable
    obtain ⟨fault, v, failed⟩ := loadFile_error holds unusable
    cases loaded.symm.trans failed
  obtain ⟨v, ran⟩ := loadFile_ok named holds usable
  cases loaded.symm.trans ran
  exact get_ofRecord holds.documents.1 _ field

theorem get_upper_inEffect {store : Store} {given : Fields} (distinct : given.keys.Nodup)
    {s : Settings}
    (alike : ∀ field, (s.get field).Alike ((store.fromFile? t fields field).getD field.default))
    (e : Environment) (field : Field) :
    (((s.overridden given).1.overridden (environmentFields e)).1.get field).Alike
      (store.inEffect t fields e given field) := by
  unfold inEffect
  rw [get_upper distinct]
  cases (fromVariable? e field).or ((given.get? field.name).filter fun v => !v.isNull) with
  | none => exact alike field
  | some v => rfl

/-- Loading a plain key that cannot be encoded fails, and leaves the settings file alone. -/
theorem load_keyBroken (order : Vault.InOrder dir place t.disk t.key)
    (holds : (keptIn dir).Holds t.disk fields) (broken : KeyBroken fields) :
    ∃ message u,
      (∀ e given, ((keptIn dir).load e given).run t = (.error (.system .unencodable message), u)) ∧
      u.disk.node? (place ++ ["settings.json"]) = t.disk.node? (place ++ ["settings.json"]) ∧
      (keptIn dir).Holds u.disk fields ∧ Vault.InOrder dir place u.disk u.key := by
  rw [← ofSite_ofDirectory] at holds ⊢
  obtain ⟨message, u, failed, left, order', -⟩ :=
    loadFile_keyBroken (Vault.Site.inOrder_ofDirectory.2 order) holds broken
  have kept := left.settings (Vault.Site.name_ne_key_ofDirectory _)
    (Vault.Site.name_ne_draft_ofDirectory _)
  exact ⟨message, u, fun e given => run_bind_of_error failed, kept,
    holds.congr Vault.Site.isEntry_json order.there order'.there kept,
    Vault.Site.inOrder_ofDirectory.1 order'⟩

/-- Loading leaves the settings file alone exactly if it is current, and otherwise gives it
    the settings that it had, in the present form. No override gets into the file, and however
    often the settings are loaded from then on, they are the same and no file is written. If
    the API key is a plain one that cannot be encoded, loading fails and leaves the settings
    file alone, and does so again from then on. -/
theorem load_settles_file {origin : Environment} {store : Store}
    (opened : ofPath (defaultPath origin) = .ok store)
    (order : Vault.InOrder origin.userDirectory place t.disk t.key)
    (holds : store.Holds t.disk fields)
    (texts : ∀ v ∈ [cipherOf fields, plainOf fields], v.isPresent → v.isText) :
    (¬ KeyBroken fields → ∃ u : Shelf,
      (∀ e given, given.keys.Nodup → ∃ s log, (store.load e given).run t = (.ok s, { u with log }) ∧
        ∀ field, s.get field = store.inEffect t fields e given field) ∧
      (u.disk.node? (place ++ ["settings.json"]) = t.disk.node? (place ++ ["settings.json"]) ↔
        IsCurrent fields) ∧
      (¬ IsCurrent fields → ∃ record s, store.Holds u.disk record ∧ Encodes u.disk place record s ∧
        ∀ field, s.get field = store.inEffect t fields {} [] field) ∧
      Vault.InOrder origin.userDirectory place u.disk u.key ∧
      ∀ v : Shelf, v.disk = u.disk → Vault.InOrder origin.userDirectory place v.disk v.key →
        ∀ e given, given.keys.Nodup → ∃ s w, (store.load e given).run v = (.ok s, w) ∧
          w.disk = u.disk ∧ Vault.InOrder origin.userDirectory place w.disk w.key ∧
          ∀ field, (s.get field).Alike (store.inEffect t fields e given field)) ∧
    (KeyBroken fields → ∃ message u,
      (∀ e given, (store.load e given).run t = (.error (.system .unencodable message), u)) ∧
      u.disk.node? (place ++ ["settings.json"]) = t.disk.node? (place ++ ["settings.json"]) ∧
      store.Holds u.disk fields ∧ Vault.InOrder origin.userDirectory place u.disk u.key) := by
  have named := name_of_ofPath opened
  rw [ofPath_defaultPath] at opened
  cases opened
  refine ⟨fun unbroken => ?settles, fun broken => ?fails⟩
  case fails => exact load_keyBroken order holds broken
  obtain ⟨s, u, loaded, order', kept, rewritten, steady⟩ :=
    loadFile_inOrder order holds texts unbroken
  have fromFile := get_loadFile named holds loaded
  refine ⟨u, fun e given distinct => ?_, ⟨fun same => ?_, kept⟩, fun other => ?_, order', ?_⟩
  · obtain ⟨log, laid⟩ := load_of_loadFile loaded e given
    refine ⟨_, log, laid, fun field => ?_⟩
    rw [get_upper distinct, fromFile]
    exact Option.getD_or.symm
  · -- A file that was written is current, so one that is not current has changed.
    by_contra other
    obtain ⟨record, holds', has⟩ := rewritten other
    have same' := (holds.congr_keptIn order.there order'.there same).unique holds'
    exact other (same' ▸ has.isCurrent)
  · obtain ⟨record, holds', has⟩ := rewritten other
    exact ⟨record, s, holds', has, fun field => (fromFile field).trans (by cases field <;> rfl)⟩
  · intro v same ready e given distinct
    obtain ⟨s', w, loaded', same', ready', alike⟩ := steady v same ready
    obtain ⟨log, laid⟩ := load_of_loadFile loaded' e given
    exact ⟨_, _, laid, same', ready', get_upper_inEffect distinct
      (fun field => (alike field).trans (congrArg Value.sorted (fromFile field))) e⟩

/-- A shelf on which a text stands in the settings file of a home directory. -/
def recordShelf (text : String) : Shelf where
  disk := { nodes := homeShelf.disk.nodes ++ [(["home", "u", ".inkwell"], .directory),
    (["home", "u", ".inkwell", "settings.json"], .file (Text.utf8Encode text.toList))] }

theorem recordShelf_inOrder (text : String) :
    Vault.InOrder sampleEnvironment.userDirectory ["home", "u", ".inkwell"]
      (recordShelf text).disk (recordShelf text).key where
  there := ⟨rfl, rfl⟩
  free := by simp [recordShelf, homeShelf, Disk.node?, List.lookup_cons]
  spelled content file := by cases file
  known k same := by cases same

def plainText : String := "\x7b\"api_key\": \"sk-1\", \"model\": \"m1\"\x7d"

theorem plainText_holds : (keptIn sampleEnvironment.userDirectory).Holds
    (recordShelf plainText).disk [("api_key", .text "sk-1"), ("model", .text "m1")] := by
  have read : (recordShelf plainText).disk.readText
      (keptIn sampleEnvironment.userDirectory).path = .ok plainText := by
    decide +kernel
  exact .record (by decide +kernel) read (by decide +kernel)

/-- The plain key is encrypted in the file while another model is asked for; a new store
    then finds the key and the model of the file. -/
theorem plain_key_is_migrated :
    ∃ u : Shelf,
      u.disk.node? ["home", "u", ".inkwell", "settings.json"] ≠
        (recordShelf plainText).disk.node? ["home", "u", ".inkwell", "settings.json"] ∧
      (∃ s log, ((keptIn sampleEnvironment.userDirectory).load
          { values := [("INKWELL_MODEL", "m3")] } [("model", .text "m2")]).run
          (recordShelf plainText) = (.ok s, { u with log }) ∧ s.get .model = .text "m3") ∧
      ∃ s w, ((keptIn sampleEnvironment.userDirectory).load {} []).run { u with key := none } =
          (.ok s, w) ∧ w.disk = u.disk ∧ s.get .apiKey = .text "sk-1" ∧
        s.get .model = .text "m1" := by
  obtain ⟨u, loads, kept, -, order, again⟩ := (load_settles_file
    (ofPath_defaultPath sampleEnvironment) (recordShelf_inOrder plainText) plainText_holds
    (by decide)).1 fun broken => absurd broken.2 (by decide)
  refine ⟨u, fun same => ?_, ?_, ?_⟩
  · have hidden := (kept.1 same).hidden
    revert hidden
    decide
  · obtain ⟨s, log, loaded, values⟩ := loads { values := [("INKWELL_MODEL", "m3")] }
      [("model", .text "m2")] (by decide)
    exact ⟨s, log, loaded, (values .model).trans rfl⟩
  · obtain ⟨s, w, loaded, same, -, values⟩ := again { u with key := none } rfl order.fresh {} []
      Fields.nodup_keys_nil
    exact ⟨s, w, loaded, same, Value.alike_text_iff.1 ((values .apiKey).trans rfl),
      Value.alike_text_iff.1 ((values .model).trans rfl)⟩

/-- A file whose record is empty has no version, and it is left alone nevertheless. -/
theorem empty_record_is_left_alone :
    (keptIn sampleEnvironment.userDirectory).Holds (recordShelf "\x7b\x7d").disk [] ∧
    (recordShelf "\x7b\x7d").disk.has (keptIn sampleEnvironment.userDirectory).path = .ok true ∧
    ((Fields.get? [] "version").getD .null).equalsInt version = false ∧
    ∃ s u, ((keptIn sampleEnvironment.userDirectory).load {} []).run (recordShelf "\x7b\x7d") =
      (.ok s, u) ∧ u.disk = (recordShelf "\x7b\x7d").disk := by
  have present : (recordShelf "\x7b\x7d").disk.has
      (keptIn sampleEnvironment.userDirectory).path = .ok true := by
    decide +kernel
  have read : (recordShelf "\x7b\x7d").disk.readText
      (keptIn sampleEnvironment.userDirectory).path = .ok "\x7b\x7d" := by
    decide +kernel
  have holds : (keptIn sampleEnvironment.userDirectory).Holds (recordShelf "\x7b\x7d").disk [] :=
    .record present read (by decide +kernel)
  obtain ⟨log, loaded⟩ := load_of_loadFile (loadFile_of_read holds.run_read) {} []
  exact ⟨holds, present, by decide, _, _, loaded, rfl⟩

/-- A plain API key that is the first half of a pair. -/
def halfText : String := "\x7b\"api_key\": \"\\ud800\"\x7d"

theorem halfText_parses :
    Json.parse halfText = .ok (.record [("api_key", .text (.broken "" 0 ""))]) := by
  decide +kernel

/-- Such a key is not migrated: loading fails, and it stays in the file as it is. -/
theorem half_key_is_not_migrated :
    (keptIn sampleEnvironment.userDirectory).Holds (recordShelf halfText).disk
      [("api_key", .text (.broken "" 0 ""))] ∧
    ∃ message u, ((keptIn sampleEnvironment.userDirectory).load {} []).run (recordShelf halfText) =
        (.error (.system .unencodable message), u) ∧
      (keptIn sampleEnvironment.userDirectory).Holds u.disk
        [("api_key", .text (.broken "" 0 ""))] := by
  have read : (recordShelf halfText).disk.readText
      (keptIn sampleEnvironment.userDirectory).path = .ok halfText := by
    decide +kernel
  have holds : (keptIn sampleEnvironment.userDirectory).Holds (recordShelf halfText).disk
      [("api_key", .text (.broken "" 0 ""))] := .record (by decide +kernel) read halfText_parses
  obtain ⟨message, u, failed, -, kept, -⟩ :=
    load_keyBroken (recordShelf_inOrder halfText) holds ⟨by decide, by decide⟩
  exact ⟨holds, message, u, failed {} [], kept⟩

end ActionEngine.Settings.Store
