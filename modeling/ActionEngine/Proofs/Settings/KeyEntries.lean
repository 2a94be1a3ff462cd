import ActionEngine.Proofs.Settings.Migration

/-!
# The API key in the settings file

The settings file may hold the API key in encrypted form and in plain form. Loading looks at
the plain one only if there is no encrypted one, and whether the file is written again is
decided without regard to what the write does to them. So a plain key beside an encrypted one
stays in a file of the present form, as one does that cannot be encoded, and an encrypted key
that the vault refuses is lost from a file that is brought to it.
-/

namespace ActionEngine.Settings.Store

open Keeping Steps

variable {site : Vault.Site} {place : Disk.Place} {t u v : Shelf} {fields : Fields}
  {d d' : Disk}

/-! ### The settings file -/

theorem holds_nil (there : d.DirectoryAt site.dir place) (entry : Disk.IsEntry site.name)
    (gone : d.node? (place ++ [site.name]) = none) : (ofSite site).Holds d [] :=
  .absent ((there.has entry).trans (by rw [gone]; rfl))

/-- A record that has fields stands in a file of the site's directory. -/
theorem Holds.located (holds : (ofSite site).Holds d fields) (filled : fields ≠ [])
    (below : site.name ≠ "..") :
    ∃ place content, d.DirectoryAt site.dir place ∧ Disk.IsEntry site.name ∧
      d.node? (place ++ [site.name]) = some (.file content) := by
  cases holds with
  | absent free => exact absurd rfl filled
  | @record text _ present read parsed =>
      unfold Disk.readText at read
      unfold Disk.read at read
      cases located : d.locate (ofSite site).path with
      | error reason =>
          rw [located] at read
          cases read
      | ok other =>
          obtain ⟨place, there, entry, rfl⟩ := Disk.DirectoryAt.of_locate below located
          rw [located] at read
          dsimp only at read
          split at read
          · next content file => exact ⟨place, content, there, entry, file⟩
          · cases read
          · cases read

/-- Getting the vault's key leaves the settings file as it is, or takes it for its draft. -/
theorem Holds.left (holds : (ofSite site).Holds d fields) (filled : fields ≠ [])
    (there : d.DirectoryAt site.dir place) (entry : Disk.IsEntry site.name)
    (left : site.Left place d d') :
    (ofSite site).Holds d' fields ∨ (ofSite site).Holds d' [] := by
  have there' := there.mono left.keeps
  by_cases same : d'.node? (place ++ [site.name]) = d.node? (place ++ [site.name])
  · exact .inl (holds.congr entry there there' same)
  · cases left with
    | alone => exact absurd rfl same
    | made absent free content =>
        refine .inr (holds_nil there' entry ?_)
        rw [Disk.node?_replaced] at same ⊢
        by_cases named : site.name = site.key
        · -- There was no key file, so it cannot have been the settings file.
          rw [named] at entry
          have none : (ofSite site).Holds d [] := holds_nil there (named ▸ entry) (named ▸ absent)
          exact absurd (none.unique holds).symm filled
        · rw [if_neg (by simpa using named)] at same ⊢
          split at same
          · next drafted => rw [if_pos drafted]
          · exact absurd rfl same

/-- A store's file holds one record only. -/
theorem Holds.exists_iff {store : Store} (holds : store.Holds d fields) {P : Fields → Prop} :
    (∃ record, store.Holds d record ∧ P record) ↔ P fields := by
  constructor
  · rintro ⟨record, holds', there⟩
    rwa [holds.unique holds']
  · exact fun there => ⟨fields, holds, there⟩

/-- What the settings file holds after getting the vault's key is what it held, if anything. -/
theorem Holds.left_iff (holds : (ofSite site).Holds d fields) (filled : fields ≠ [])
    (there : d.DirectoryAt site.dir place) (entry : Disk.IsEntry site.name)
    (left : site.Left place d d') {P : Fields → Prop} (empty : ¬ P []) :
    (∃ record, (ofSite site).Holds d' record ∧ P record) ↔
      P fields ∧ (ofSite site).Holds d' fields := by
  rcases holds.left filled there entry left with kept | gone
  · rw [kept.exists_iff]
    exact ⟨fun holds' => ⟨holds', kept⟩, And.left⟩
  · rw [gone.exists_iff]
    exact ⟨fun absurd => (empty absurd).elim, fun kept => (filled (kept.2.unique gone)).elim⟩

theorem cipherOf_recorded_nil {s : Settings} (empty : s.get .apiKey = .text "") :
    cipherOf (recorded s []) = .null := by
  have held : IsCipher none (s.get .apiKey) [] := .absent (by rw [empty]; rfl)
  unfold cipherOf
  rw [get?_recorded held, get?_written_cipher held]
  rfl

theorem plainOf_recorded {s : Settings} {known : Option Fernet.Key} {cipher : Fields}
    (held : IsCipher known (s.get .apiKey) cipher) : plainOf (recorded s cipher) = .null := by
  unfold plainOf
  rw [get?_recorded held, get?_written_apiKey held]
  rfl

/-! ### Samples -/

theorem sample_opened : ofPath sampleStore.path = .ok sampleStore := by
  decide

/-- The files of the sample store are in order, whatever stands in its settings file. -/
theorem textShelf_inOrder (text : String) :
    (siteOf sample_opened).InOrder [] (textShelf text).disk (textShelf text).key := by
  have name : (siteOf sample_opened).name = "s.json" := by decide
  have key : (siteOf sample_opened).key = "s.key" := by decide
  have draft : (siteOf sample_opened).draft = "s.tmp" := by decide
  constructor
  · exact ⟨rfl, rfl⟩
  · apply Vault.Site.isEntry_files
    · rw [name]
      exact ⟨by decide, by decide, by decide⟩
    · rw [draft]
      exact ⟨by decide, by decide, by decide⟩
  · rw [name, key, draft]
    simp [textShelf, Disk.node?, List.lookup_cons]
  · intro content file
    rw [key] at file
    cases file
    decide
  · intro k same
    cases same

theorem textShelf_holds {text : String} (plain : '\r' ∉ text.toList)
    (parsed : Json.parse text = .ok (.record fields)) :
    sampleStore.Holds (textShelf text).disk fields := by
  have there : (textShelf text).disk.DirectoryAt {} [] := ⟨rfl, rfl⟩
  have entry : Disk.IsEntry "s.json" := ⟨by decide, by decide, by decide⟩
  have file : (textShelf text).disk.node? ([] ++ ["s.json"]) =
      some (.file (Text.utf8Encode text.toList)) := rfl
  exact .record (there.has entry) (readText_encoded (there.read entry file) plain) parsed

/-! ### A plain key -/

/-- A plain key that cannot be encoded stays if getting the vault's key leaves the file there. -/
theorem plain_key_stays_of_keyBroken (order : site.InOrder place t.disk t.key)
    (holds : (ofSite site).Holds t.disk fields) (broken : KeyBroken fields) (e : Environment)
    (given : Fields) :
    ∃ fault u, ((ofSite site).load e given).run t = (.error fault, u) ∧
      ((∃ record, (ofSite site).Holds u.disk record ∧ (plainOf record).isPresent) ↔
        (plainOf fields).isPresent ∧ (ofSite site).Holds
          ((Vault.encrypt (ofSite site).keyPath (plainOf fields)).run t).2.disk fields) := by
  have filled : fields ≠ [] := by
    rintro rfl
    cases broken.2
  obtain ⟨message, u, failed, left, -, disk⟩ := loadFile_keyBroken order holds broken
  exact ⟨_, u, run_bind_of_error failed,
    disk ▸ holds.left_iff filled order.there order.entry_name left (by decide)⟩

/-- A plain key that is whole stays if there is an encrypted one beside it, the file is in its
    present form otherwise, and getting the vault's key leaves it there. -/
theorem plain_key_stays_of_whole (order : site.InOrder place t.disk t.key)
    (holds : (ofSite site).Holds t.disk fields)
    (texts : ∀ v ∈ [cipherOf fields, plainOf fields], v.isPresent → v.isText)
    (unbroken : ¬ KeyBroken fields) (e : Environment) (given : Fields) :
    ∃ s u, ((ofSite site).load e given).run t = (.ok s, u) ∧
      ((∃ record, (ofSite site).Holds u.disk record ∧ (plainOf record).isPresent) ↔
        (plainOf fields).isPresent ∧ (cipherOf fields).isPresent ∧ isOutdated fields = false ∧
          (ofSite site).Holds
            ((Vault.decrypt (ofSite site).keyPath (cipherOf fields)).run t).2.disk fields) := by
  by_cases filled : fields = []
  · subst filled
    obtain ⟨log, loaded⟩ := load_of_loadFile (loadFile_of_read holds.run_read) e given
    refine ⟨_, _, loaded, (Holds.exists_iff holds).trans ?_⟩
    constructor
    · intro absurd
      cases absurd
    · rintro ⟨absurd, -⟩
      cases absurd
  obtain ⟨nodup, -⟩ := holds.documents
  obtain ⟨text, plaintext, u, found, migrates, left, order', -⟩ :=
    apiKey_inOrder order texts (isWhole_of_not_keyBroken unbroken)
  have disk : u.disk = ((Vault.decrypt (ofSite site).keyPath (cipherOf fields)).run t).2.disk := by
    have same := apiKey_disk (ofSite site) (cipherOf fields) (plainOf fields) t
    rwa [found] at same
  cases stale : plaintext || isOutdated fields with
  | true =>
      obtain ⟨text', key⟩ := apiKey_ofRecord_isText nodup text
      obtain ⟨cipher, d, body, w, saved, -, -, -, held, -, holds'⟩ :=
        save_ready order'.ready (writable_ofRecord holds.documents (.text text)) key
      obtain ⟨log, loaded⟩ := load_of_loadFile
        (loadFile_of_stale holds filled found stale (run_tryCatch_of_ok saved)) e given
      refine ⟨_, _, loaded, (Holds.exists_iff holds').trans ?_⟩
      rw [plainOf_recorded held]
      constructor
      · intro absurd
        cases absurd
      · rintro ⟨-, present, current, -⟩
        rw [current, Bool.or_false, migrates, present] at stale
        cases stale.1
  | false =>
      obtain ⟨log, loaded⟩ := load_of_loadFile
        (loadFile_of_current holds filled found stale) e given
      rw [Bool.or_eq_false_iff] at stale
      have beside : (plainOf fields).isPresent → (cipherOf fields).isPresent := by
        intro present
        by_contra alone
        rw [migrates.2 ⟨Bool.eq_false_iff.2 alone, present⟩] at stale
        cases stale.1
      refine ⟨_, _, loaded, ?_⟩
      change (∃ record, (ofSite site).Holds u.disk record ∧ _) ↔ _
      rw [disk, holds.left_iff filled order.there order.entry_name (disk ▸ left) (by decide)]
      exact ⟨fun stays => ⟨stays.1, beside stays.1, stale.2, stays.2⟩,
        fun stays => ⟨stays.1, stays.2.2.2⟩⟩

/-- Once a store's files are in order, a plain API key is still in the file after loading in two
    cases: if there is an encrypted one beside it, however useless, and the file is in its
    present form otherwise; and if it stands alone but cannot be encoded, since then loading
    fails. (Getting the vault's key may have taken the file for a draft already.) -/
theorem plain_key_stays_iff {path : Path} {store : Store} (opened : ofPath path = .ok store)
    (order : (siteOf opened).InOrder place t.disk t.key) (holds : store.Holds t.disk fields)
    (texts : ∀ v ∈ [cipherOf fields, plainOf fields], v.isPresent → v.isText)
    (e : Environment) (given : Fields) :
    ∃ result u, (store.load e given).run t = (result, u) ∧
      ((∃ s, result = .ok s) ↔ ¬ KeyBroken fields) ∧
      ((∃ record, store.Holds u.disk record ∧ (plainOf record).isPresent) ↔
        (plainOf fields).isPresent ∧
          ((cipherOf fields).isPresent ∧ isOutdated fields = false ∧
            store.Holds ((Vault.decrypt store.keyPath (cipherOf fields)).run t).2.disk fields ∨
          KeyBroken fields ∧
            store.Holds ((Vault.encrypt store.keyPath (plainOf fields)).run t).2.disk fields)) := by
  generalize siteOf opened = site, ofSite_siteOf opened = same at order
  subst same
  by_cases broken : KeyBroken fields
  · obtain ⟨fault, u, failed, stays⟩ := plain_key_stays_of_keyBroken order holds broken e given
    exact ⟨_, u, failed, by simp [broken], by simp [stays, broken, broken.1]⟩
  · obtain ⟨s, u, loaded, stays⟩ := plain_key_stays_of_whole order holds texts broken e given
    exact ⟨_, u, loaded, by simp [broken], by simp [stays, broken]⟩

/-- A plain key that stands alone is gone after loading. -/
theorem plain_key_goes :
    sampleStore.Holds (textShelf "\x7b\"api_key\": \"sk-1\"\x7d").disk
      [("api_key", .text "sk-1")] ∧
    ∃ s u, (sampleStore.load {} []).run (textShelf "\x7b\"api_key\": \"sk-1\"\x7d") =
        (.ok s, u) ∧
      ¬ ∃ record, sampleStore.Holds u.disk record ∧ (plainOf record).isPresent := by
  have holds : sampleStore.Holds (textShelf "\x7b\"api_key\": \"sk-1\"\x7d").disk
      [("api_key", .text "sk-1")] := textShelf_holds (by decide) (by decide +kernel)
  have whole : ¬ KeyBroken [("api_key", .text "sk-1")] := fun broken => absurd broken.2 (by decide)
  obtain ⟨result, u, loaded, loads, stays⟩ :=
    plain_key_stays_iff sample_opened (textShelf_inOrder _) holds (by decide) {} []
  obtain ⟨s, rfl⟩ := loads.2 whole
  refine ⟨holds, s, u, loaded, fun there => ?_⟩
  obtain ⟨-, ⟨present, -⟩ | ⟨broken, -⟩⟩ := stays.1 there
  · cases present
  · exact whole broken

/-- A plain API key beside a token that nobody can read, in a file of the present form. -/
def idleCipherText : String :=
  "\x7b\"api_key_ciphertext\": \"bad\", \"api_key\": \"sk-1\", \"version\": 1\x7d"

/-- Beside a token that nobody can read, a plain key of a file in its present form stays. -/
theorem plain_key_stays_beside_cipher :
    sampleStore.Holds (textShelf idleCipherText).disk
      [("api_key_ciphertext", .text "bad"), ("api_key", .text "sk-1"), ("version", .int 1)] ∧
    (siteOf sample_opened).InOrder [] (textShelf idleCipherText).disk none ∧
    ∃ s u, (sampleStore.load {} []).run (textShelf idleCipherText) = (.ok s, u) ∧
      ∃ record, sampleStore.Holds u.disk record ∧ plainOf record = .text "sk-1" := by
  have holds : sampleStore.Holds (textShelf idleCipherText).disk
      [("api_key_ciphertext", .text "bad"), ("api_key", .text "sk-1"), ("version", .int 1)] :=
    textShelf_holds (by decide) (by decide +kernel)
  have refused : (Vault.decrypt sampleStore.keyPath (.text "bad")).run (textShelf idleCipherText) =
      (.error (.value "Invalid Fernet token"), _) := rfl
  obtain ⟨log, found⟩ := apiKey_of_refused rfl (.text "sk-1") refused
  obtain ⟨log', loaded⟩ := load_of_loadFile
    (loadFile_of_current holds (by simp) found (by decide)) {} []
  exact ⟨holds, textShelf_inOrder _, _, _, loaded, _, holds, rfl⟩

/-! ### A refused key -/

/-- The draft of the settings file cannot be written. -/
def Blocked (store : Store) (d : Disk) : Prop :=
  ∀ draft content, store.path.withSuffix ".tmp" = .ok draft →
    ∃ fault, d.write draft content = .error fault

theorem blocked_iff (there : d.DirectoryAt site.dir place) : (ofSite site).Blocked d ↔
    ¬ (Disk.IsEntry site.draft ∧ d.node? (place ++ [site.draft]) ≠ some .directory) := by
  constructor
  · intro blocked clear
    obtain ⟨d', written⟩ := (there.write_ok_iff site.draft_ne_above []).2 clear
    obtain ⟨fault, failed⟩ := blocked _ [] site.withSuffix_name
    cases written.symm.trans failed
  · intro unclear draft content beside
    cases site.withSuffix_name.symm.trans beside
    cases written : d.write (site.dir.child site.draft) content with
    | error fault => exact ⟨fault, rfl⟩
    | ok d' =>
        exact absurd ((there.write_ok_iff site.draft_ne_above content).1 ⟨d', written⟩) unclear

/-- Settings without an API key need no vault: the file is written unless its draft is in the
    way, and then it stays as it is. -/
theorem migrate_keyless {s : Settings} (writable : Writable s) (empty : s.get .apiKey = .text "")
    (clean : (ofSite site).path.IsClean) (there : t.disk.DirectoryAt site.dir place)
    (entry : Disk.IsEntry site.name)
    (free : t.disk.node? (place ++ [site.name]) ≠ some .directory) :
    ∃ u, ((ofSite site).migrate s).run t = (.ok (), u) ∧
      ((ofSite site).Blocked t.disk → u.disk = t.disk) ∧
      (¬ (ofSite site).Blocked t.disk → (ofSite site).Holds u.disk (recorded s [])) := by
  have given : ((ofSite site).toRecord s).run t = (.ok (written s []), t) := by
    unfold toRecord
    dsimp only
    rw [empty]
    rfl
  have held : IsCipher none (s.get .apiKey) [] := .absent (by rw [empty]; rfl)
  by_cases blocked : (ofSite site).Blocked t.disk
  · obtain ⟨body, rendered, -, -⟩ := render_written writable held given
    obtain ⟨fault, failed⟩ := blocked _ (Text.utf8Encode body.toList) site.withSuffix_name
    have made : t.disk.ensureDirectory (ofSite site).path.parent = .ok t.disk := by
      rw [show (ofSite site).path.parent = site.dir from Path.parent_child site.dir _,
        there.ensureDirectory]
    have stopped : ((ofSite site).save s).run t = (.error fault, t) := by
      rw [save_eq given rendered made]
      exact run_bind_of_error (Vault.run_replaceFile_of_error site.withSuffix_name failed)
    have file : fault.isFileFault :=
      Disk.write_fails (clean.withSuffix (by decide) site.withSuffix_name) _ fault failed
    obtain ⟨log, passed⟩ := migrate_of_unwritable file stopped
    exact ⟨_, passed, fun _ => rfl, fun other => absurd blocked other⟩
  · obtain ⟨entry', free'⟩ := not_not.1 (mt (blocked_iff there).2 blocked)
    obtain ⟨body, u, -, saved, -, -, holds⟩ := save_of_written there.ensureDirectory there entry'
      entry free' free writable held given
    exact ⟨u, run_tryCatch_of_ok saved, fun other => absurd other blocked, fun _ => holds⟩

/-- If the encrypted key is refused, loading leaves the file as decrypting has left it when it
    has its present form or its draft cannot be written, and else writes it without a key. -/
theorem load_refused (below : site.name ≠ "..") (holds : (ofSite site).Holds t.disk fields)
    {cipher : LooseText} (entry : cipherOf fields = .text cipher) (filled : cipher ≠ "")
    {fault : Fault} (refused : (Vault.decrypt (ofSite site).keyPath (.text cipher)).run t =
      (.error fault, v)) (value : fault.isValueFault) (e : Environment) (given : Fields) :
    ∃ s u, ((ofSite site).load e given).run t = (.ok s, u) ∧
      (isOutdated fields = false ∨ (ofSite site).Blocked v.disk → u.disk = v.disk) ∧
      (¬ (isOutdated fields = false ∨ (ofSite site).Blocked v.disk) →
        ∃ s', s'.get .apiKey = .text "" ∧ (ofSite site).Holds u.disk (recorded s' [])) := by
  have some : fields ≠ [] := by
    rintro rfl
    cases entry
  have present : (cipherOf fields).isPresent := by
    rw [entry]
    simpa [Value.isPresent] using filled
  obtain ⟨place, content, there, named, file⟩ := holds.located some below
  have left := Vault.decrypt_left there cipher
  rw [show (Vault.decrypt (site.dir.child site.key) (.text cipher)).run t = (.error fault, v) from
    refused] at left
  obtain ⟨log, found⟩ := apiKey_of_refused present (plainOf fields) (entry ▸ refused)
  rw [if_pos value] at found
  cases stale : isOutdated fields with
  | false =>
      obtain ⟨log, loaded⟩ := load_of_loadFile
        (loadFile_of_current holds some found (by rw [stale]; rfl)) e given
      exact ⟨_, _, loaded, fun _ => rfl, fun absurd => (absurd (.inl rfl)).elim⟩
  | true =>
      have empty : (ofRecord fields (.text "")).get .apiKey = .text "" := by
        rw [get_apiKey_ofRecord holds.documents.1]
        rfl
      obtain ⟨u, migrated, kept, rewritten⟩ := migrate_keyless (t := { v with log })
        (writable_ofRecord holds.documents (.text "")) empty (holds.isClean some)
        (there.mono left.keeps) named (left.free (by simp [file]))
      obtain ⟨log', loaded⟩ := load_of_loadFile
        (loadFile_of_stale holds some found (by rw [stale]; rfl) migrated) e given
      refine ⟨_, _, loaded, ?_, ?_⟩
      · rintro (absurd | blocked)
        · cases absurd
        · exact kept blocked
      · exact fun clear => ⟨_, empty, rewritten fun blocked => clear (.inr blocked)⟩

/-- An encrypted API key that the vault refuses stays in the settings file exactly if the
    file is not brought to its present form: because it has it, or because its draft cannot
    be written. (Getting the key to decrypt it may have taken the file for a draft already.) -/
theorem refused_cipher_stays_iff {path : Path} {store : Store} (opened : ofPath path = .ok store)
    (below : store.path.name ≠ "..") (holds : store.Holds t.disk fields) {cipher : LooseText}
    (entry : cipherOf fields = .text cipher) (filled : cipher ≠ "") {fault : Fault}
    (refused : (Vault.decrypt store.keyPath (.text cipher)).run t = (.error fault, v))
    (value : fault.isValueFault) (e : Environment) (given : Fields) :
    ∃ s u, (store.load e given).run t = (.ok s, u) ∧
      ((∃ record, store.Holds u.disk record ∧ cipherOf record = .text cipher) ↔
        store.Holds v.disk fields ∧ (isOutdated fields = false ∨ store.Blocked v.disk)) := by
  have below' : (siteOf opened).name ≠ ".." := below
  generalize siteOf opened = site, ofSite_siteOf opened = same at below'
  subst same
  have some : fields ≠ [] := by
    rintro rfl
    cases entry
  obtain ⟨place, content, there, named, -⟩ := holds.located some below'
  have left := Vault.decrypt_left there cipher
  rw [show (Vault.decrypt (site.dir.child site.key) (.text cipher)).run t = (.error fault, v) from
    refused] at left
  obtain ⟨s, u, loaded, kept, rewritten⟩ :=
    load_refused below' holds entry filled refused value e given
  refine ⟨s, u, loaded, ?_⟩
  by_cases settled : isOutdated fields = false ∨ (ofSite site).Blocked v.disk
  · rw [kept settled, and_iff_left settled,
      holds.left_iff some there named left (by simp [cipherOf, Fields.get?])]
    exact and_iff_right entry
  · obtain ⟨s', empty, holds'⟩ := rewritten settled
    rw [holds'.exists_iff, cipherOf_recorded_nil empty]
    constructor
    · intro absurd
      cases absurd
    · exact fun stays => (settled stays.2).elim

/-- A token that nobody can read, in a file of the present form. -/
def currentCipherText : String :=
  "\x7b\"api_key_ciphertext\": \"fernet:garbage\", \"version\": 1\x7d"

theorem fernet_garbage_refused (text : String) :
    ∃ key, (Vault.decrypt sampleStore.keyPath (.text "fernet:garbage")).run (textShelf text) =
      (.error (.value "Invalid Fernet token"), { textShelf text with key }) :=
  ⟨_, rfl⟩

/-- A token that is refused stays in a file of the present form. -/
theorem refused_cipher_stays :
    sampleStore.Holds (textShelf currentCipherText).disk
      [("api_key_ciphertext", .text "fernet:garbage"), ("version", .int 1)] ∧
    ∃ s u, (sampleStore.load {} []).run (textShelf currentCipherText) = (.ok s, u) ∧
      ∃ record, sampleStore.Holds u.disk record ∧ cipherOf record = .text "fernet:garbage" := by
  have holds : sampleStore.Holds (textShelf currentCipherText).disk
      [("api_key_ciphertext", .text "fernet:garbage"), ("version", .int 1)] :=
    textShelf_holds (by decide) (by decide +kernel)
  obtain ⟨key, refused⟩ := fernet_garbage_refused currentCipherText
  obtain ⟨s, u, loaded, stays⟩ := refused_cipher_stays_iff sample_opened (by decide) holds
    rfl (by decide) refused rfl {} []
  exact ⟨holds, s, u, loaded, stays.2 ⟨holds, .inl (by decide)⟩⟩

/-- A token that nobody can read, in a file without a version. -/
def staleCipherText : String :=
  "\x7b\"api_key_ciphertext\": \"fernet:garbage\", \"model\": \"m\"\x7d"

/-- A token that is refused is lost from a file without a version. -/
theorem refused_cipher_is_lost :
    sampleStore.Holds (textShelf staleCipherText).disk
      [("api_key_ciphertext", .text "fernet:garbage"), ("model", .text "m")] ∧
    (∃ v, (Vault.decrypt sampleStore.keyPath (.text "fernet:garbage")).run
      (textShelf staleCipherText) = (.error (.value "Invalid Fernet token"), v)) ∧
    ∃ s u, (sampleStore.load {} []).run (textShelf staleCipherText) = (.ok s, u) ∧
      ∃ record, sampleStore.Holds u.disk record ∧ cipherOf record = .null := by
  have holds : sampleStore.Holds (textShelf staleCipherText).disk
      [("api_key_ciphertext", .text "fernet:garbage"), ("model", .text "m")] :=
    textShelf_holds (by decide) (by decide +kernel)
  obtain ⟨key, refused⟩ := fernet_garbage_refused staleCipherText
  have order := textShelf_inOrder staleCipherText
  have clear : ¬ (ofSite (siteOf sample_opened)).Blocked (textShelf staleCipherText).disk :=
    fun blocked => (blocked_iff order.there).1 blocked ⟨order.entry_draft, order.free_draft⟩
  have below : (siteOf sample_opened).name ≠ ".." := by decide
  obtain ⟨s, u, loaded, -, rewritten⟩ := load_refused below (by rwa [ofSite_siteOf]) rfl
    (by decide) (by rwa [ofSite_siteOf]) rfl {} []
  obtain ⟨s', empty, holds'⟩ := rewritten (not_or.2 ⟨by decide, clear⟩)
  rw [ofSite_siteOf] at loaded holds'
  exact ⟨holds, ⟨_, refused⟩, s, u, loaded, _, holds', cipherOf_recorded_nil empty⟩

end ActionEngine.Settings.Store
