import ActionEngine.Proofs.Settings.KeyEntries

/-!
# Settings at any path

The key file and the draft are named after the settings file, with other suffixes. A settings
file may bear the name of its own draft without harm. One that bears the name of the key file
takes the place of the vault's key, and what was encrypted under it is lost.
-/

namespace ActionEngine.Settings.Store

open Keeping Steps

variable {site : Vault.Site} {place : Disk.Place} {t : Shelf} {d : Disk} {s : Settings}
  {text token : String}

theorem ofSite_path_eq_iff : (ofSite site).path = (ofSite site).keyPath ↔ site.name = site.key := by
  simp [ofSite, Path.child]

/-- The key file is there after saving with an API key, whatever the settings file is named. -/
theorem keyFile_replaced {key : Fernet.Key}
    (order : site.InOrder place d (some key)) (content : List UInt8) :
    ∃ bytes, (d.replaced place site.draft site.name content).node? (place ++ [site.key]) =
      some (.file bytes) := by
  by_cases same : site.name = site.key
  · exact ⟨content, by simp [Disk.node?_replaced, same]⟩
  · obtain ⟨bytes, file, -⟩ := (order.replace_name same content).known key rfl
    exact ⟨bytes, file⟩

/-- Saving with an API key leaves a file with its encrypted form. -/
theorem save_sealed (ready : site.Ready place t) (writable : Writable s)
    (key : s.get .apiKey = .text text) (filled : text ≠ "") :
    ∃ (token : String) (k : Fernet.Key) (d : Disk) (body : String) (u : Shelf),
      ((ofSite site).save s).run t = (.ok (), u) ∧
      Json.render ⟨true, true, true⟩ (.record (written s [(cipherField, .text token)])) = .ok body ∧
      site.InOrder place d (some k) ∧ Vault.Sealed k text token ∧
      u.disk = d.replaced place site.draft site.name (Text.utf8Encode body.toList) ∧
      ∃ record, (ofSite site).Holds u.disk record ∧ cipherOf record = .text token := by
  obtain ⟨cipher, d, body, u, saved, -, rendered, order, held, disk, holds⟩ :=
    save_ready ready writable key
  have found : cipherOf (recorded s cipher) =
      (((cipher.get? cipherField).map Value.sorted).getD .null) := by
    unfold cipherOf
    rw [get?_recorded held, get?_written_cipher held]
  rw [key] at held
  cases held with
  | absent empty => exact absurd empty (by simpa [Value.isPresent] using filled)
  | @present _ token k _ same known closed =>
      cases same
      exact ⟨token, k, d, body, u, saved, rendered, known ▸ order, closed, disk, _, holds, found⟩

/-- Where settings have been saved with an API key, a new store finds an API key exactly if
    the key file spells a key that opens the token. -/
theorem load_sealed {fields : Fields} {k : Fernet.Key} {content : List UInt8} {v : Shelf}
    (order : site.InOrder place d (some k)) (closed : Vault.Sealed k text token)
    (disk : v.disk = d.replaced place site.draft site.name content) (locked : v.key = none)
    (holds : (ofSite site).Holds v.disk fields) (cipher : cipherOf fields = .text token)
    {e : Environment} (unset : ∀ v ∈ e.values, ¬ "INKWELL_".toList <+: v.1.toList) :
    ∃ s w, ((ofSite site).load e []).run v = (.ok s, w) ∧ ∀ text : String, text ≠ "" →
      (s.get .apiKey = .text text ↔ ∃ key, site.Spells v.disk place key ∧
        Vault.opened key (Vault.parts (LooseText.codes token)).2 = .ok text) := by
  obtain ⟨named, -⟩ := closed.opens (order.known k rfl).isWhole
  have there : v.disk.DirectoryAt site.dir place := by
    rw [disk]
    exact order.there.mono (Disk.keeps_replaced order.free_draft order.free_name)
  obtain ⟨bytes, file⟩ := keyFile_replaced order content
  obtain ⟨result, w, ran, refuses, gives⟩ :=
    Vault.decrypt_of_file there order.entry_key locked (disk ▸ file) closed.filled named
  have present : (cipherOf fields).isPresent := by
    rw [cipher]
    simpa [Value.isPresent] using closed.filled
  have ran' : (Vault.decrypt (ofSite site).keyPath (cipherOf fields)).run v = (result, w) := by
    rw [cipher]
    exact ran
  have refuses' : ∀ fault w', (Vault.decrypt (ofSite site).keyPath (cipherOf fields)).run v =
      (.error fault, w') → fault.isValueFault := by
    intro fault w' failed
    cases ran'.symm.trans failed
    exact refuses fault rfl
  have named' : (ofSite site).path.name ≠ "" := by
    simpa [ofSite, Path.name, Path.child] using site.named
  obtain ⟨s, x, loaded, value⟩ := loadFile_decrypted named' holds present refuses'
  obtain ⟨log, laid⟩ := load_of_loadFile loaded e []
  rw [environmentFields_eq_nil unset] at laid
  refine ⟨s, _, laid, fun text filled => ?_⟩
  rw [value text filled, ran']
  exact gives text

/-- Settings with an API key that can be encoded are saved at any path whose files are in order.
    A new store at that path then loads the API key as it was, unless the settings file took the
    place of the key file: then only if what stands there spells, by chance, a key that opens
    it. -/
theorem saved_key_comes_back_iff {path : Path} {store : Store} (opened : ofPath path = .ok store)
    (ready : (siteOf opened).Ready place t) (writable : Writable s) {secret : LooseText}
    (key : s.get .apiKey = .text secret) (filled : secret ≠ "") {e : Environment}
    (unset : ∀ v ∈ e.values, ¬ "INKWELL_".toList <+: v.1.toList) :
    ((∃ u, (store.save s).run t = (.ok (), u)) ↔ ∃ bytes, secret.utf8 = .ok bytes) ∧
    ∀ text : String, secret = text → ∃ (u : Shelf) (token : String),
      (store.save s).run t = (.ok (), u) ∧
      (∃ record, store.Holds u.disk record ∧ cipherOf record = .text token) ∧
      ∀ v : Shelf, v.disk = u.disk → v.key = none →
        ∃ s' w, (store.load e []).run v = (.ok s', w) ∧
          (s'.get .apiKey = .text text ↔ (store.path = store.keyPath →
            ∃ key, (siteOf opened).Spells u.disk place key ∧
              Vault.opened key (Vault.parts (LooseText.codes token)).2 = .ok text)) := by
  generalize siteOf opened = site, ofSite_siteOf opened = same at ready
  subst same
  refine ⟨⟨fun ⟨u, saved⟩ => encodable_of_save saved key, fun encodable => ?_⟩, ?_⟩
  · obtain ⟨text, rfl⟩ := LooseText.exists_utf8_eq_ok_iff.1 encodable
    obtain ⟨token, k, d, body, u, saved, -⟩ :=
      save_sealed ready writable key (by simpa using filled)
    exact ⟨u, saved⟩
  rintro text rfl
  have filled' : text ≠ "" := by simpa using filled
  obtain ⟨token, k, d, body, u, saved, -, order, closed, disk, record, holds, cipher⟩ :=
    save_sealed ready writable key filled'
  refine ⟨u, token, saved, ⟨record, holds, cipher⟩, fun v same locked => ?_⟩
  rw [← same] at disk holds ⊢
  obtain ⟨s', w, loaded, gives⟩ := load_sealed order closed disk locked holds cipher unset
  refine ⟨s', w, loaded, (gives text filled').trans ?_⟩
  constructor
  · exact fun back _ => back
  · intro back
    by_cases collide : site.name = site.key
    · exact back (ofSite_path_eq_iff.2 collide)
    · refine ⟨k, ?_, (closed.opens (order.known k rfl).isWhole).2⟩
      rw [disk]
      exact (order.replace_name collide _).known k rfl

/-! ### Settings in the place of the key -/

theorem writeChar_digit {n : Nat} (small : n < 64) :
    Json.writeChar true (Base64.digit n) = [Base64.digit n] := by
  have each (n : Fin 64) : Json.writeChar true (Base64.digit n.val) = [Base64.digit n.val] := by
    revert n
    decide
  exact each ⟨n, small⟩

theorem sort_written (unset : s.get .actionsPath = .null) (token : String) :
    ∃ rest, (written s [(cipherField, .text token)]).sort =
      (.whole Field.actionsPath.name, .null) :: (.whole cipherField, .text token) :: rest := by
  have path : (.whole Field.actionsPath.name, .null) ∈ written s [(cipherField, .text token)] := by
    have other : Field.actionsPath ≠ .apiKey := by decide
    have mem := mem_written (s := s) other [(cipherField, .text token)]
    rwa [unset] at mem
  have cipher : (.whole cipherField, .text token) ∈
      (written s [(cipherField, .text token)]).drop Field.actionsPath.name :=
    List.mem_filter.2 ⟨by simp [written], by simp [Field.name, cipherField]⟩
  have keys : (written s [(cipherField, .text token)]).keys =
      (Field.all.map fun f => LooseText.whole f.name).filter (· != .whole Field.apiKey.name) ++
        [LooseText.whole cipherField] ++ [LooseText.whole "version"] :=
    keys_written s _
  have nodup : (written s [(cipherField, .text token)]).keys.Nodup := by
    rw [keys]
    decide
  rw [Fields.sort_of_least nodup path, Fields.sort_of_least _ cipher]
  · exact ⟨_, rfl⟩
  · rw [Fields.keys_drop, keys]
    decide
  · rw [Fields.keys_drop]
    exact nodup.filter _
  · rw [keys]
    decide

/-- What stands in front of the token in a settings file without an actions path. -/
def preface : List Char :=
  "\x7b\n  \"actions_path\": null,\n  \"api_key_ciphertext\": \"fernet:".toList

theorem preface_plain : ∀ c ∈ preface, c.toNat < 128 ∧ c ≠ '=' := by
  have all : preface.all fun c => decide (c.toNat < 128) && c != '=' := by decide
  simpa using all

theorem render_preface {fields rest : Fields} {chars : List Char} {body : String}
    (order : fields.sort = (.whole Field.actionsPath.name, .null) ::
      (.whole cipherField, .text (Vault.scheme ++ ":" ++ String.ofList chars)) :: rest)
    (rendered : Json.render ⟨true, true, true⟩ (.record fields) = .ok body) :
    ∃ more, body.toList = preface ++ (chars.flatMap (Json.writeChar true) ++ more) := by
  obtain ⟨text, wrote, rfl⟩ := Json.exists_of_map_ok rendered
  rw [Json.write_record rfl, order] at wrote
  obtain ⟨parts, made, rfl⟩ := Json.exists_of_map_ok wrote
  obtain ⟨first, behind, path, made', rfl⟩ := Json.exists_of_mapM_cons made
  obtain ⟨second, others, cipher, -, rfl⟩ := Json.exists_of_mapM_cons made'
  dsimp only at path cipher
  rw [Json.write] at path
  rw [Json.write] at cipher
  cases path
  cases cipher
  have front : preface = '\x7b' :: (Json.newline 1 ++ (Json.writeText true Field.actionsPath.name ++
      ':' :: ' ' :: ("null".toList ++ ',' :: (Json.newline 1 ++ (Json.writeText true cipherField ++
        ':' :: ' ' :: '"' :: (Vault.scheme ++ ":").toList.flatMap (Json.writeChar true)))))) := by
    decide
  rw [String.toList_ofList, front]
  unfold Json.bracketed
  simp only [if_true, Json.writeText_whole, String.toList_append, String.toList_ofList,
    List.flatMap_append, List.flatMap_cons, List.append_assoc, List.cons_append, List.nil_append]
  exact ⟨_, rfl⟩

/-- Settings without an actions path spell no key: too many marks stand in front of the first
    equals sign, which comes from the token. -/
theorem keyOf_rendered {key : Fernet.Key} {body : String} (unset : s.get .actionsPath = .null)
    (closed : Vault.Sealed key text token)
    (rendered : Json.render ⟨true, true, true⟩
      (.record (written s [(cipherField, .text token)])) = .ok body) :
    Vault.keyOf (Text.utf8Encode body.toList) = none := by
  obtain ⟨time, start, -, rfl⟩ := closed
  obtain ⟨front, behind, made, size, digits⟩ := Fernet.sign_front key time start
    (Text.utf8Encode text.toList)
  obtain ⟨rest, order⟩ := sort_written unset (Vault.scheme ++ ":" ++ String.ofList
    (Fernet.sign key time start (Text.utf8Encode text.toList)))
  obtain ⟨more, same⟩ := render_preface order rendered
  have plain : front.flatMap (Json.writeChar true) = front := by
    refine Json.flatMap_writeChar fun c hc => ?_
    obtain ⟨n, small, rfl⟩ := digits c hc
    exact writeChar_digit small
  have marks : ∀ c ∈ front, c ≠ '=' ∧ Base64.IsMark c := by
    intro c hc
    obtain ⟨n, small, rfl⟩ := digits c hc
    exact Base64.digit_facts small
  have filled : front ≠ [] := by
    rintro rfl
    cases size
  rw [same, made, List.flatMap_append, plain, List.append_assoc, ← List.append_assoc preface]
  apply Vault.keyOf_eq_none
  · exact List.forall_mem_append.2 ⟨fun c hc => (preface_plain c hc).1,
      fun c hc => Nat.lt_trans (marks c hc).2.2 (by decide)⟩
  · rintro c ⟨⟩
    decide
  · rw [List.getLast?_append_of_ne_nil _ filled]
    exact fun c hc => (marks c (List.mem_of_mem_getLast? hc)).2.1
  · exact List.forall_mem_append.2 ⟨fun c hc => (preface_plain c hc).2,
      fun c hc => (marks c hc).1⟩
  · have all : front.countP (fun c => (Base64.value? c).isSome) = front.length := by
      refine List.countP_eq_length.2 fun c hc => ?_
      obtain ⟨n, small, rfl⟩ := digits c hc
      rw [Base64.value?_digit small]
      rfl
    rw [List.countP_append, all, size]
    decide

/-- Settings without an actions path that are saved in the place of the key file are left
    without an API key. -/
theorem saved_key_is_lost (collide : site.name = site.key) (ready : site.Ready place t)
    (writable : Writable s) (absent : s.get .actionsPath = .null)
    (key : s.get .apiKey = .text text) (filled : text ≠ "") {e : Environment}
    (unset : ∀ v ∈ e.values, ¬ "INKWELL_".toList <+: v.1.toList) :
    ∃ u, ((ofSite site).save s).run t = (.ok (), u) ∧
      ∀ v : Shelf, v.disk = u.disk → v.key = none →
        ∃ s' w, ((ofSite site).load e []).run v = (.ok s', w) ∧
          ∀ text, text ≠ "" → s'.get .apiKey ≠ .text text := by
  obtain ⟨token, k, d, body, u, saved, rendered, order, closed, disk, record, holds, cipher⟩ :=
    save_sealed ready writable key filled
  refine ⟨u, saved, fun v same locked => ?_⟩
  rw [← same] at disk holds
  have file : v.disk.node? (place ++ [site.key]) =
      some (.file (Text.utf8Encode body.toList)) := by
    rw [disk, Disk.node?_replaced, if_pos (by rw [collide])]
  obtain ⟨s', w, loaded, gives⟩ := load_sealed order closed disk locked holds cipher unset
  refine ⟨s', w, loaded, fun text filled back => ?_⟩
  obtain ⟨key, ⟨content, file', reads⟩, -⟩ := (gives text filled).1 back
  cases file.symm.trans file'
  cases (keyOf_rendered absent closed rendered).symm.trans reads

/-! ### Samples -/

def keySettings : Settings :=
  initial.set .apiKey (.text "sk-1")

theorem keySettings_writable : Writable keySettings := by
  intro field other
  rw [keySettings, get_set, if_neg other]
  exact isDocument_default field

/-- An empty disk is in order for settings in its working directory. -/
theorem empty_ready {path : Path} {store : Store} (opened : ofPath path = .ok store)
    (here : (siteOf opened).dir = {})
    (entries : ∀ name ∈ [(siteOf opened).name, (siteOf opened).key, (siteOf opened).draft],
      Disk.IsEntry name) : (siteOf opened).Ready [] {} := by
  have empty (name : String) : ({} : Disk).node? ([] ++ [name]) = none := rfl
  refine Vault.Site.InOrder.ready ⟨?_, entries, ?_, ?_, ?_⟩
  · rw [here]
    exact ⟨rfl, rfl⟩
  · intro name _
    rw [empty]
    simp
  · intro content file
    rw [empty] at file
    cases file
  · intro k same
    cases same

/-- A key that is saved to an ordinary path comes back. -/
theorem key_comes_back_from_json :
    ∃ u, (sampleStore.save keySettings).run {} = (.ok (), u) ∧
      ∃ s w, (sampleStore.load {} []).run { u with key := none } = (.ok s, w) ∧
        s.get .apiKey = .text "sk-1" := by
  have entries : ∀ name ∈ [(siteOf sample_opened).name, (siteOf sample_opened).key,
      (siteOf sample_opened).draft], Disk.IsEntry name := (textShelf_inOrder "").entries
  obtain ⟨-, back⟩ := saved_key_comes_back_iff sample_opened
    (empty_ready sample_opened rfl entries) keySettings_writable rfl (by decide) (e := {}) (by simp)
  obtain ⟨u, token, saved, -, comes⟩ := back "sk-1" rfl
  obtain ⟨s, w, loaded, back⟩ := comes { u with key := none } rfl rfl
  exact ⟨u, saved, s, w, loaded, back.2 fun collide => absurd collide (by decide)⟩

/-- A store whose settings file is its key file. -/
def keyStore : Store where
  path := { parts := ["s.key"] }
  keyPath := { parts := ["s.key"] }

theorem keyStore_opened : ofPath keyStore.path = .ok keyStore := by
  decide

/-- A key that is saved to a file of the key file's name is lost: the settings took the place
    of the vault's key. -/
theorem key_is_lost_from_key_file :
    Disk.has {} keyStore.path = .ok false ∧
    ∃ u, (keyStore.save keySettings).run {} = (.ok (), u) ∧
      ∃ s w, (keyStore.load {} []).run { u with key := none } = (.ok s, w) ∧
        s.get .apiKey ≠ .text "sk-1" := by
  have collide : (siteOf keyStore_opened).name = (siteOf keyStore_opened).key := by decide
  have draft : (siteOf keyStore_opened).draft = "s.tmp" := by decide
  have entries : ∀ name ∈ [(siteOf keyStore_opened).name, (siteOf keyStore_opened).key,
      (siteOf keyStore_opened).draft], Disk.IsEntry name := by
    apply Vault.Site.isEntry_files
    · exact ⟨by decide, by decide, by decide⟩
    · rw [draft]
      exact ⟨by decide, by decide, by decide⟩
  obtain ⟨u, saved, lost⟩ := saved_key_is_lost collide (empty_ready keyStore_opened rfl entries)
    keySettings_writable rfl rfl (by decide) (e := {}) (by simp)
  rw [ofSite_siteOf] at saved lost
  obtain ⟨s, w, loaded, none⟩ := lost { u with key := none } rfl rfl
  exact ⟨by decide, u, saved, s, w, loaded, none "sk-1" (by decide)⟩

end ActionEngine.Settings.Store
