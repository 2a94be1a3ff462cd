import ActionEngine.Proofs.Json.RoundTrip
import ActionEngine.Proofs.Secret.KeyFile
import ActionEngine.Proofs.Settings.Load

/-!
# Saved settings

Settings that are saved are loaded again as they were, up to the order of keys, and the
file has the API key in encrypted form only. Not all settings can be saved: an integer may be
too long to be written, and the API key has to be encoded before it is encrypted. Of those
that are saved only the ones whose texts hold no pair of halves come back, since a pair is
read as one character.

All of this happens in one directory, where the settings file stands beside the key file and
both are written by way of the same draft. Saving is described at any site; that the vault's
key survives it is a matter of the names there, and certain at the default one.
-/

namespace ActionEngine.Settings

open Keeping Steps

/-- A value has a form. -/
inductive Form.Fits : Form → Value → Prop
  | text (s : LooseText) : Fits .text (.text s)
  | none : Fits .optionalText .null
  | some (s : LooseText) : Fits .optionalText (.text s)
  | integer (n : Int) : Fits .integer (.int n)
  | decimal (x : Binary64) : Fits .decimal (.float x)
  | switch (b : Bool) : Fits .switch (.bool b)
  | record {fields : Fields} (nodup : fields.keys.Nodup)
      (texts : ∀ f ∈ fields, f.2.isText) : Fits .record (.record fields)

section Fits

variable {form : Form} {v : Value} (fits : form.Fits v)
  (short : ∀ n, v = .int n → n.natAbs < Nat.pow 10 Reading.maxDigits)

include fits

theorem Form.Fits.plain : plain v = v := by
  cases fits with
  | @record fields nodup texts =>
      have same : ∀ f ∈ fields, (f.1, Settings.plain f.2) = f := by
        intro f hf
        obtain ⟨s, text⟩ := Value.isText_iff.1 (texts f hf)
        rw [text, show Settings.plain (.text s) = .text s from rfl, ← text]
      rw [Settings.plain, Json.plainFields_eq_map, List.map_congr_left same, List.map_id']
  | _ => rfl

include short

theorem Form.Fits.isDocument (settled : ∀ s, v.Mentions s → s.Settled) : Json.IsDocument v := by
  cases fits with
  | text s => exact .text (settled s (.text s))
  | none => exact .null
  | some s => exact .text (settled s (.text s))
  | integer n => exact .int (short n rfl)
  | decimal x => exact .float x
  | switch b => exact .bool b
  | record nodup texts =>
      refine .record nodup (fun f hf => settled f.1 (.key hf)) fun f hf => ?_
      obtain ⟨s, same⟩ := Value.isText_iff.1 (texts f hf)
      have mentions : f.2.Mentions s := same ▸ .text s
      exact same ▸ .text (settled s (.field hf mentions))

/-- Such a value is written even if its text would be read as another one. -/
theorem Form.Fits.write_ok (style : Json.Style) (level : Nat) :
    ∃ text, Json.write style level v = .ok text := by
  cases fits with
  | integer n => exact (Json.IsDocument.int (short n rfl)).write_ok style level
  | record nodup texts =>
      refine Json.write_record_ok fun f hf => ?_
      obtain ⟨s, same⟩ := Value.isText_iff.1 (texts f hf)
      rw [same]
      exact ⟨_, rfl⟩
  | _ => exact ⟨_, rfl⟩

end Fits

namespace Store

def keptIn (dir : Path) : Store where
  path := dir.child "settings.json"
  keyPath := dir.child "settings.key"

def ofSite (site : Vault.Site) : Store where
  path := site.dir.child site.name
  keyPath := site.dir.child site.key

theorem ofSite_ofDirectory (dir : Path) : ofSite (.ofDirectory dir) = keptIn dir := by
  unfold ofSite keptIn
  rw [Vault.Site.key_ofDirectory]
  rfl

def siteOf {path : Path} {store : Store} (opened : ofPath path = .ok store) : Vault.Site where
  dir := store.path.parent
  name := store.path.name
  named := name_of_ofPath opened

theorem ofSite_siteOf {path : Path} {store : Store} (opened : ofPath path = .ok store) :
    ofSite (siteOf opened) = store := by
  have keyPath : path.withSuffix ".key" = .ok store.keyPath ∧ store.path = path := by
    unfold ofPath at opened
    cases beside : path.withSuffix ".key" with
    | error fault =>
        rw [beside] at opened
        cases opened
    | ok keyPath =>
        rw [beside] at opened
        cases opened
        exact ⟨rfl, rfl⟩
  obtain ⟨beside, rfl⟩ := keyPath
  have named := name_of_ofPath opened
  have entry := Path.withSuffix_child store.path.parent named ".key"
  rw [Path.child_name named, beside] at entry
  unfold ofSite siteOf Vault.Site.key
  rw [← Except.ok.inj entry, Path.child_name named]

theorem ofPath_defaultPath (e : Environment) :
    ofPath (defaultPath e) = .ok (keptIn e.userDirectory) := by
  have beside : (defaultPath e).withSuffix ".key" = .ok (e.userDirectory.child "settings.key") :=
    Path.withSuffix_child _ (by decide) _
  unfold ofPath
  rw [beside]
  rfl

/-! ### The record of a file -/

/-- The fields that are written, with the encrypted API key in `cipher`. -/
def written (s : Settings) (cipher : Fields) : Fields :=
  Fields.drop s.fields Field.apiKey.name ++ cipher ++ ([("version", .int version)] : Fields)

/-- The record that is read back. -/
def recorded (s : Settings) (cipher : Fields) : Fields :=
  (Fields.sort (written s cipher)).map fun f => (f.1, f.2.sorted)

/-- The record of a file has the settings. Every field but the API key stands under its
    name; the API key, unless it is empty, stands there under the key of the key file. -/
structure Encodes (d : Disk) (place : Disk.Place) (record : Fields) (s : Settings) : Prop where
  values : ∀ field, field ≠ .apiKey → record.get? field.name = some (s.get field).sorted
  hidden : record.get? Field.apiKey.name = none
  cipher : ∀ text : String, s.get .apiKey = .text text →
    if text = "" then record.get? cipherField = none
    else ∃ key token, Vault.Spells d place key ∧ Vault.Sealed key text token ∧
      record.get? cipherField = some (.text token)
  versioned : record.get? "version" = some (.int version)
  others : ∀ name ∈ record.keys, name = "version" ∨ name = cipherField ∨
    ∃ field, field ≠ Field.apiKey ∧ name = field.name

section Written

variable {s : Settings}

theorem keys_fields (s : Settings) :
    Fields.keys s.fields = Field.all.map fun f => .whole f.name := by
  unfold Fields.keys fields
  rw [List.map_map]
  rfl

theorem keys_written (s : Settings) (cipher : Fields) : (written s cipher).keys =
    (Field.all.map fun f => LooseText.whole f.name).filter (· != .whole Field.apiKey.name) ++
      cipher.keys ++ [LooseText.whole "version"] := by
  rw [← keys_fields s, ← Fields.keys_drop]
  simp [written, Fields.keys]

theorem mem_written {field : Field} (other : field ≠ .apiKey) (cipher : Fields) :
    (.whole field.name, plain (s.get field)) ∈ written s cipher := by
  have apart : LooseText.whole field.name ≠ Field.apiKey.name :=
    fun h => other (Field.key_injective h)
  have kept : (.whole field.name, plain (s.get field)) ∈
      Fields.drop s.fields Field.apiKey.name :=
    List.mem_filter.2 ⟨List.mem_map.2 ⟨field, field.mem_all, rfl⟩, by simpa using apart⟩
  simp [written, kept]

theorem of_mem_written {cipher : Fields} {f : LooseText × Value} (mem : f ∈ written s cipher) :
    (∃ field, field ≠ .apiKey ∧ f = (.whole field.name, plain (s.get field))) ∨ f ∈ cipher ∨
      f = (.whole "version", .int version) := by
  simp only [written, List.mem_append, List.mem_singleton] at mem
  rcases mem with (mem | mem) | mem
  · obtain ⟨mem, apart⟩ := List.mem_filter.1 mem
    obtain ⟨field, -, rfl⟩ := List.mem_map.1 mem
    refine .inl ⟨field, ?_, rfl⟩
    rintro rfl
    exact bne_iff_ne.1 apart rfl
  · exact .inr (.inl mem)
  · exact .inr (.inr mem)

/-- The fields that stand for the API key once the vault knows its own. -/
inductive IsCipher (known : Option Fernet.Key) (key : Value) : Fields → Prop
  | absent (empty : key.isPresent = false) : IsCipher known key []
  | present {text token : String} {k : Fernet.Key} (filled : text ≠ "") (same : key = .text text)
      (held : known = some k) (closed : Vault.Sealed k text token) :
      IsCipher known key [(cipherField, .text token)]

variable {known : Option Fernet.Key} {cipher : Fields}

theorem IsCipher.keys (held : IsCipher known (s.get .apiKey) cipher) :
    cipher.keys = [] ∨ cipher.keys = [cipherField] := by
  cases held with
  | absent => exact .inl rfl
  | present => exact .inr rfl

theorem nodup_keys_written (held : IsCipher known (s.get .apiKey) cipher) :
    (written s cipher).keys.Nodup := by
  rw [keys_written]
  rcases held.keys with same | same
  · rw [same]
    decide
  · rw [same]
    decide

section Lookup

variable (held : IsCipher known (s.get .apiKey) cipher)

include held

theorem get?_written_field {field : Field} (other : field ≠ .apiKey) :
    (written s cipher).get? field.name = some (plain (s.get field)) :=
  (Fields.get?_eq_some_iff (nodup_keys_written held)).2 (mem_written other cipher)

theorem get?_written_apiKey : (written s cipher).get? Field.apiKey.name = none := by
  rw [Fields.get?_eq_none_iff, keys_written]
  rcases held.keys with same | same
  · rw [same]
    decide
  · rw [same]
    decide

theorem get?_written_cipher : (written s cipher).get? cipherField = cipher.get? cipherField := by
  cases held with
  | absent empty =>
      have absent : .whole cipherField ∉ (written s []).keys := by
        rw [keys_written]
        decide
      exact Fields.get?_eq_none_iff.2 absent
  | @present _ token _ filled same held closed =>
      have there : (.whole cipherField, .text token) ∈
          written s [(.whole cipherField, .text token)] := by
        simp [written]
      exact (Fields.get?_eq_some_iff
        (nodup_keys_written (.present filled same held closed))).2 there

theorem get?_written_version : (written s cipher).get? "version" = some (.int version) :=
  (Fields.get?_eq_some_iff (nodup_keys_written held)).2 (by simp [written])

theorem key_of_mem_written {name : LooseText} (mem : name ∈ (written s cipher).keys) :
    name = "version" ∨ name = cipherField ∨ ∃ field, field ≠ Field.apiKey ∧ name = field.name := by
  obtain ⟨f, hf, rfl⟩ := List.mem_map.1 mem
  rcases of_mem_written hf with ⟨field, other, rfl⟩ | hf | rfl
  · exact .inr (.inr ⟨field, other, rfl⟩)
  · cases held with
    | absent => cases hf
    | present =>
        cases List.mem_singleton.1 hf
        exact .inr (.inl rfl)
  · exact .inl rfl

end Lookup

theorem isDocument_written (writable : Writable s)
    (held : IsCipher known (s.get .apiKey) cipher) :
    Json.IsDocument (.record (written s cipher)) := by
  refine .record (nodup_keys_written held) (fun f hf => ?keys) fun f hf => ?values
  case keys =>
    have mem := List.mem_map_of_mem (f := (·.1)) hf
    rcases key_of_mem_written held mem with same | same | ⟨field, -, same⟩
    all_goals exact same ▸ LooseText.settled_whole _
  case values =>
    rcases of_mem_written hf with ⟨field, other, rfl⟩ | hf | rfl
    · exact (writable field other).plain.symm ▸ writable field other
    · cases held with
      | absent => cases hf
      | present =>
          cases List.mem_singleton.1 hf
          exact .text (LooseText.settled_whole _)
    · exact .small (by decide)

theorem get?_recorded (held : IsCipher known (s.get .apiKey) cipher) (name : LooseText) :
    (recorded s cipher).get? name = ((written s cipher).get? name).map Value.sorted :=
  Value.get?_sorted (nodup_keys_written held) name

/-- Fields that have their forms are written out unless an integer is too long. -/
theorem render_of_fits (fits : ∀ field : Field, field.form.Fits (s.get field))
    (short : ∀ field n, s.get field = .int n → n.natAbs < Nat.pow 10 Reading.maxDigits)
    (held : IsCipher known (s.get .apiKey) cipher) (style : Json.Style) :
    ∃ body, Json.render style (.record (written s cipher)) = .ok body := by
  refine Json.render_record_ok style fun f hf level => ?_
  rcases of_mem_written hf with ⟨field, -, rfl⟩ | hf | rfl
  · rw [(fits field).plain]
    exact (fits field).write_ok (short field) style level
  · cases held with
    | absent => cases hf
    | present =>
        cases List.mem_singleton.1 hf
        exact ⟨_, rfl⟩
  · exact (Json.IsDocument.small (by decide)).write_ok style level

/-- What is written and then read back has the settings, if the key file spells the key that
    the vault knows. -/
theorem encodes_recorded {d : Disk} {place : Disk.Place} (writable : Writable s)
    (held : IsCipher known (s.get .apiKey) cipher)
    (spells : ∀ k, known = some k → Vault.Spells d place k) :
    Encodes d place (recorded s cipher) s := by
  have reads := get?_recorded held
  constructor
  · intro field other
    rw [reads, get?_written_field held other, (writable field other).plain]
    rfl
  · rw [reads, get?_written_apiKey held]
    rfl
  · intro text same
    rw [reads, get?_written_cipher held]
    cases held with
    | absent empty =>
        rw [same] at empty
        rw [if_pos (by simpa [Value.isPresent] using empty)]
        rfl
    | @present _ token k filled same' held closed =>
        cases same.symm.trans same'
        rw [if_neg filled]
        exact ⟨k, token, spells k held, closed, rfl⟩
  · rw [reads, get?_written_version held]
    rfl
  · intro name mem
    unfold recorded at mem
    rw [Fields.keys_map] at mem
    exact key_of_mem_written held (((Fields.sort_perm _).map _).mem_iff.1 mem)

end Written

/-! ### Saving -/

section Saving

variable {site : Vault.Site} {place : Disk.Place} {t u v : Shelf} {s : Settings} {text : String}
  {known : Option Fernet.Key} {cipher : Fields} {d : Disk}

theorem toRecord_ready (ready : site.Ready place t) (key : s.get .apiKey = .text text) :
    ∃ cipher u d, ((ofSite site).toRecord s).run t = (.ok (written s cipher), u) ∧
      u.disk.ensureDirectory site.dir = .ok d ∧ site.InOrder place d u.key ∧
      IsCipher u.key (s.get .apiKey) cipher := by
  unfold toRecord
  dsimp only
  rw [key]
  by_cases empty : text = ""
  · subst empty
    obtain ⟨d, made, order⟩ := ready
    exact ⟨[], t, d, rfl, made, order, .absent rfl⟩
  · obtain ⟨token, u, encrypted, d, k, made, order, held, closed⟩ :=
      Vault.encrypt_ready ready empty
    refine ⟨_, u, d, ?_, made, order, .present empty rfl held closed⟩
    rw [if_pos (by simpa [Value.isPresent] using empty)]
    exact (run_bind_of_ok encrypted).trans rfl

/-- A text without carriage returns is read back. -/
theorem readText_encoded {p : Path} {body : String}
    (read : d.read p = .ok (Text.utf8Encode body.toList)) (plain : '\r' ∉ body.toList) :
    d.readText p = .ok body := by
  unfold Disk.readText
  rw [read]
  simp only [bind, Except.bind, Text.utf8Decode_encode, Text.normaliseNewlines_eq plain,
    String.ofList_toList]

/-- Once its fields are known, a record is written and read back as it was, up to the order
    of keys. -/
theorem render_written (writable : Writable s) (held : IsCipher known (s.get .apiKey) cipher)
    (given : ((ofSite site).toRecord s).run t = (.ok (written s cipher), v)) :
    ∃ body, Json.render ⟨true, true, true⟩ (.record (written s cipher)) = .ok body ∧
      Json.parse body = .ok (.record (recorded s cipher)) ∧ '\r' ∉ body.toList := by
  have document := isDocument_written writable held
  obtain ⟨body, rendered⟩ := Json.render_record_ok ⟨true, true, true⟩ fun f hf =>
    (isDocument_of_mem_toRecord writable given f hf).write_ok _
  have parsed := Json.parse_of_render document rfl rendered
  rw [Value.sorted_record] at parsed
  refine ⟨body, rendered, parsed, ?_⟩
  obtain ⟨chars, wrote, rfl⟩ := Json.exists_of_map_ok rendered
  rw [String.toList_ofList]
  exact Json.not_mem_write document rfl wrote

theorem save_eq {fields : Fields} {body : String} {store : Store}
    (given : (store.toRecord s).run t = (.ok fields, v))
    (rendered : Json.render ⟨true, true, true⟩ (.record fields) = .ok body)
    (made : v.disk.ensureDirectory store.path.parent = .ok d) :
    (store.save s).run t = (Vault.replaceFile store.path (Text.utf8Encode body.toList) >>= fun _ =>
      note .debug ("Settings saved to " ++ store.path.text)).run { v with disk := d } := by
  have ensured : (alter fun d => d.ensureDirectory store.path.parent).run v =
      (.ok (), { v with disk := d }) := by
    rw [run_alter, made]
  unfold save
  rw [run_bind_of_ok given, rendered]
  dsimp only
  rw [run_bind_of_ok ensured]

section Placing

variable (made : v.disk.ensureDirectory site.dir = .ok d) (there : d.DirectoryAt site.dir place)
  (entry : Disk.IsEntry site.draft) (entry' : Disk.IsEntry site.name)
  (free : d.node? (place ++ [site.draft]) ≠ some .directory)
  (free' : d.node? (place ++ [site.name]) ≠ some .directory)

include made there entry entry' free free'

/-- Once the fields are written out and the directory is there, they get into the settings file
    if neither it nor its draft is in the way. -/
theorem save_of_rendered {fields : Fields} {body : String}
    (given : ((ofSite site).toRecord s).run t = (.ok fields, v))
    (rendered : Json.render ⟨true, true, true⟩ (.record fields) = .ok body) :
    ∃ u, ((ofSite site).save s).run t = (.ok (), u) ∧ u.key = v.key ∧
      u.disk = d.replaced place site.draft site.name (Text.utf8Encode body.toList) := by
  have above : (ofSite site).path.parent = site.dir := Path.parent_child site.dir _
  have replaced := Vault.run_replaceFile (t := { v with disk := d }) site.withSuffix_name there
    entry entry' free free' (Text.utf8Encode body.toList)
  rw [save_eq given rendered (above ▸ made)]
  exact ⟨_, (run_bind_of_ok replaced).trans rfl, rfl, rfl⟩

theorem save_of_written (writable : Writable s) (held : IsCipher known (s.get .apiKey) cipher)
    (given : ((ofSite site).toRecord s).run t = (.ok (written s cipher), v)) :
    ∃ body u, Json.render ⟨true, true, true⟩ (.record (written s cipher)) = .ok body ∧
      ((ofSite site).save s).run t = (.ok (), u) ∧ u.key = v.key ∧
      u.disk = d.replaced place site.draft site.name (Text.utf8Encode body.toList) ∧
      (ofSite site).Holds u.disk (recorded s cipher) := by
  obtain ⟨body, rendered, parsed, plain⟩ := render_written writable held given
  obtain ⟨u, saved, same, disk⟩ :=
    save_of_rendered made there entry entry' free free' given rendered
  have there' : (d.replaced place site.draft site.name (Text.utf8Encode body.toList)).DirectoryAt
      site.dir place := there.mono (Disk.keeps_replaced free free')
  have file : (d.replaced place site.draft site.name (Text.utf8Encode body.toList)).node?
      (place ++ [site.name]) = some (.file (Text.utf8Encode body.toList)) := by
    simp [Disk.node?_replaced]
  have present : (d.replaced place site.draft site.name (Text.utf8Encode body.toList)).has
      (ofSite site).path = .ok true := (there'.has entry').trans (by rw [file]; rfl)
  exact ⟨body, u, rendered, saved, same, disk,
    disk ▸ .record present (readText_encoded (there'.read entry' file) plain) parsed⟩

end Placing

/-- Settings that can stand in a document are saved at a site that is in order. What is
    written is the record, set by the printer. -/
theorem save_ready (ready : site.Ready place t) (writable : Writable s)
    (key : s.get .apiKey = .text text) :
    ∃ cipher d body u, ((ofSite site).save s).run t = (.ok (), u) ∧
      (((ofSite site).toRecord s).run t).1 = .ok (written s cipher) ∧
      Json.render ⟨true, true, true⟩ (.record (written s cipher)) = .ok body ∧
      site.InOrder place d u.key ∧ IsCipher u.key (s.get .apiKey) cipher ∧
      u.disk = d.replaced place site.draft site.name (Text.utf8Encode body.toList) ∧
      (ofSite site).Holds u.disk (recorded s cipher) := by
  obtain ⟨cipher, v, d, given, made, order, held⟩ := toRecord_ready ready key
  obtain ⟨body, u, rendered, saved, same, disk, holds⟩ := save_of_written made order.there
    order.entry_draft order.entry_name order.free_draft order.free_name writable held given
  exact ⟨cipher, d, body, u, saved, congrArg Prod.fst given, rendered, same ▸ order, same ▸ held,
    disk, holds⟩

/-- In a directory that is in order the vault's key survives, and the file has the settings. -/
theorem save_keptIn {dir : Path} (ready : Vault.Ready dir place t) (writable : Writable s)
    (key : s.get .apiKey = .text text) :
    ∃ record u, ((keptIn dir).save s).run t = (.ok (), u) ∧
      Vault.InOrder dir place u.disk u.key ∧ (keptIn dir).Holds u.disk record ∧
      Encodes u.disk place record s := by
  obtain ⟨cipher, d, body, u, saved, -, -, order, held, disk, holds⟩ :=
    save_ready (Vault.ready_ofDirectory.2 ready) writable key
  have order' : Vault.InOrder dir place u.disk u.key := by
    rw [disk]
    exact Vault.Site.inOrder_ofDirectory.1
      (order.replace_name (Vault.Site.name_ne_key_ofDirectory dir) _)
  rw [ofSite_ofDirectory] at saved holds
  exact ⟨_, u, saved, order', holds, encodes_recorded writable held order'.known⟩

end Saving

/-! ### Loading what was saved -/

section Loading

variable {dir : Path} {place : Disk.Place} {t u : Shelf} {s : Settings} {record : Fields}

theorem isOutdated_of_version {fields : Fields} (nodup : fields.keys.Nodup) {v : Value}
    (found : fields.get? "version" = some v) (equal : v.equalsInt version) :
    isOutdated fields = false := by
  have nodup' : (Fields.drop fields cipherField).keys.Nodup :=
    nodup.sublist (Fields.keys_filter_sublist _ _)
  unfold isOutdated
  dsimp only
  rw [Fields.get?_drop nodup', if_neg (by decide), Fields.get?_drop nodup, if_neg (by decide),
    found, Option.getD_some, equal, Bool.not_true, Bool.and_false]

/-- The API key of a record that has the settings is decrypted. -/
theorem apiKey_encoded {text : String} (order : Vault.InOrder dir place t.disk t.key)
    (has : Encodes t.disk place record s) (key : s.get .apiKey = .text text) :
    ∃ known, ((keptIn dir).apiKey (cipherOf record) (plainOf record)).run t =
      (.ok (.text text, false), { t with key := known }) ∧
      Vault.InOrder dir place t.disk known := by
  have cipher := has.cipher text key
  unfold cipherOf plainOf
  rw [has.hidden]
  split at cipher
  · next empty =>
    subst empty
    rw [cipher]
    exact ⟨t.key, apiKey_absent rfl rfl, order⟩
  · obtain ⟨k, token, spells, closed, found⟩ := cipher
    have order' := Vault.Site.inOrder_ofDirectory.2 order
    have spells' : (Vault.Site.ofDirectory dir).Spells t.disk place k :=
      Vault.Site.spells_ofDirectory.2 spells
    have filled : (Value.text token).isPresent := by
      simpa [Value.isPresent] using closed.filled
    have decrypted := Vault.decrypt_sealed spells'.isWhole closed
      (Vault.unlock_of_spells order' spells')
    rw [found, ← ofSite_ofDirectory]
    exact ⟨some k, apiKey_of_decrypted filled decrypted,
      Vault.Site.inOrder_ofDirectory.1 (order'.learn spells')⟩

/-- Settings are loaded from a record that has them, and the file stays as it is. -/
theorem loadFile_encoded {text : String} (order : Vault.InOrder dir place t.disk t.key)
    (holds : (keptIn dir).Holds t.disk record) (has : Encodes t.disk place record s)
    (writable : Writable s) (key : s.get .apiKey = .text text) :
    ∃ s' known, (keptIn dir).loadFile.run t = (.ok s', { t with key := known }) ∧
      Vault.InOrder dir place t.disk known ∧ ∀ field, (s'.get field).Alike (s.get field) := by
  obtain ⟨nodup, -⟩ := holds.documents
  have filled : record ≠ [] := by
    rintro rfl
    cases has.versioned
  obtain ⟨known, found, order'⟩ := apiKey_encoded order has key
  refine ⟨ofRecord record (.text text), known, ?_, order', ?_⟩
  · exact loadFile_of_current holds filled found
      (isOutdated_of_version nodup has.versioned (by decide))
  · intro field
    rw [get_ofRecord nodup]
    by_cases same : field = .apiKey
    · subst same
      rw [if_pos rfl, key]
      by_cases empty : text = ""
      · subst empty
        rfl
      · rw [Option.filter_some, if_pos (by simpa [Value.isPresent] using empty)]
        rfl
    · rw [if_neg same, has.values field same]
      exact (writable field same).alike_sorted

theorem environmentFields_eq_nil {e : Environment}
    (unset : ∀ v ∈ e.values, ¬ "INKWELL_".toList <+: v.1.toList) : environmentFields e = [] := by
  have named : ∀ v ∈ fieldVariables, "INKWELL_".toList <+: v.1.toList := by
    decide
  unfold environmentFields
  rw [List.filterMap_eq_nil_iff]
  intro v hv
  have absent : e.get? v.1 = none := by
    unfold Environment.get?
    rw [List.lookup_eq_none_iff]
    intro w hw
    have apart : v.1 ≠ w.1 := fun same => unset w hw (same ▸ named v hv)
    simpa using apart
  rw [absent]
  rfl

end Loading

/-! ### There and back -/

section RoundTrip

variable {store : Store} {place : Disk.Place} {t u : Shelf} {s : Settings}

theorem toRecord_gives {record : Fields} (h : (store.toRecord s).run t = (.ok record, u)) :
    ∃ cipher, record = written s cipher := by
  unfold toRecord at h
  dsimp only at h
  split at h
  · obtain ⟨token, v, -, h⟩ := run_bind_ok h
    cases h
    exact ⟨_, rfl⟩
  · cases h
    exact ⟨_, rfl⟩

/-- Settings with an integer that is too long are not saved. -/
theorem short_of_save (saved : (store.save s).run t = (.ok (), u)) {field : Field}
    (other : field ≠ .apiKey) {n : Int} (same : s.get field = .int n) :
    n.natAbs < Nat.pow 10 Reading.maxDigits := by
  unfold save at saved
  obtain ⟨record, v, recorded, saved⟩ := run_bind_ok saved
  obtain ⟨cipher, rfl⟩ := toRecord_gives recorded
  split at saved
  · cases saved
  · next body rendered =>
    have there := mem_written (s := s) other cipher
    rw [same, show plain (.int n) = .int n by simp [plain]] at there
    obtain ⟨text, wrote⟩ := Json.write_of_render rfl rendered _ there
    rw [Json.write] at wrote
    split at wrote
    · cases wrote
    · next short => exact Nat.lt_of_not_le short

/-- Settings with an API key that cannot be encoded are not saved. -/
theorem encodable_of_save (saved : (store.save s).run t = (.ok (), u)) {key : LooseText}
    (same : s.get .apiKey = .text key) : ∃ bytes, key.utf8 = .ok bytes := by
  unfold save toRecord at saved
  obtain ⟨record, v, recorded, -⟩ := run_bind_ok saved
  rw [same] at recorded
  dsimp only at recorded
  split at recorded
  · obtain ⟨token, w, encrypted, -⟩ := run_bind_ok recorded
    exact Vault.encodable_of_encrypt encrypted
  · next absent =>
    have empty : key = "" := by simpa [Value.isPresent] using absent
    exact ⟨_, by rw [empty]; rfl⟩

/-- What has been loaded from whatever file, without any overrides, holds no pair of halves. -/
theorem settled_of_load {e : Environment} {s' : Settings} {v w : Shelf}
    (unset : ∀ v ∈ e.values, ¬ "INKWELL_".toList <+: v.1.toList)
    (loaded : (store.load e []).run v = (.ok s', w)) {field : Field} (other : field ≠ .apiKey)
    (alike : (s'.get field).Alike (s.get field)) {text : LooseText}
    (mentions : (s.get field).Mentions text) : text.Settled := by
  have ran : ∃ u, store.loadFile.run v = (.ok s', u) := by
    unfold load at loaded
    obtain ⟨s₀, u, found, -⟩ := run_bind_ok loaded
    obtain ⟨log, laid⟩ := load_of_loadFile found e []
    rw [environmentFields_eq_nil unset] at laid
    cases loaded.symm.trans laid
    exact ⟨u, found⟩
  obtain ⟨u, found⟩ := ran
  have document := writable_of_loadFile found field other
  rw [Value.Alike] at alike
  exact document.sorted.settled (alike ▸ mentions.sorted)

section Typed

variable (fits : ∀ field : Field, field.form.Fits (s.get field))

include fits

theorem exists_apiKey : ∃ key, s.get .apiKey = .text key := by
  generalize s.get .apiKey = v, fits .apiKey = fit
  cases fit with
  | text key => exact ⟨key, rfl⟩

theorem short_of_save_of_fits (saved : (store.save s).run t = (.ok (), u)) (field : Field) (n : Int)
    (same : s.get field = .int n) : n.natAbs < Nat.pow 10 Reading.maxDigits := by
  refine short_of_save saved ?_ same
  rintro rfl
  obtain ⟨key, text⟩ := exists_apiKey fits
  cases text.symm.trans same

/-- Nothing but an integer that is too long or an API key that cannot be encoded stands in the
    way of saving. -/
theorem exists_save_iff {site : Vault.Site} (ready : site.Ready place t) :
    (∃ u, ((ofSite site).save s).run t = (.ok (), u)) ↔
      (∀ field n, s.get field = .int n → n.natAbs < Nat.pow 10 Reading.maxDigits) ∧
      ∀ key, s.get .apiKey = .text key → ∃ bytes, key.utf8 = .ok bytes := by
  constructor
  · rintro ⟨u, saved⟩
    exact ⟨short_of_save_of_fits fits saved, fun key same => encodable_of_save saved same⟩
  · rintro ⟨short, encodable⟩
    obtain ⟨key, same⟩ := exists_apiKey fits
    obtain ⟨text, rfl⟩ := LooseText.exists_utf8_eq_ok_iff.1 (encodable key same)
    obtain ⟨cipher, v, d, given, made, order, held⟩ := toRecord_ready ready same
    obtain ⟨body, rendered⟩ := render_of_fits fits short held ⟨true, true, true⟩
    obtain ⟨u, saved, -⟩ := save_of_rendered made order.there order.entry_draft order.entry_name
      order.free_draft order.free_name given rendered
    exact ⟨u, saved⟩

/-- Settings that have been saved are loaded only if no text in them holds a pair of halves. -/
theorem settled_of_back {e : Environment} {s' : Settings} {v w : Shelf}
    (unset : ∀ v ∈ e.values, ¬ "INKWELL_".toList <+: v.1.toList)
    (saved : (store.save s).run t = (.ok (), u)) (loaded : (store.load e []).run v = (.ok s', w))
    (alike : ∀ field, (s'.get field).Alike (s.get field)) (field : Field) {text : LooseText}
    (mentions : (s.get field).Mentions text) : text.Settled := by
  by_cases same : field = .apiKey
  · subst same
    obtain ⟨key, same⟩ := exists_apiKey fits
    obtain ⟨whole, rfl⟩ := LooseText.exists_utf8_eq_ok_iff.1 (encodable_of_save saved same)
    rw [same] at mentions
    cases mentions
    exact LooseText.settled_whole whole
  · exact settled_of_load unset loaded same (alike field) mentions

end Typed

/-- Where a file has the settings, a new store loads them and leaves every file as it is. -/
theorem load_saved {dir : Path} {record : Fields} {e : Environment} {v : Shelf} {text : String}
    (unset : ∀ v ∈ e.values, ¬ "INKWELL_".toList <+: v.1.toList)
    (order : Vault.InOrder dir place v.disk v.key) (holds : (keptIn dir).Holds v.disk record)
    (has : Encodes v.disk place record s) (writable : Writable s)
    (key : s.get .apiKey = .text text) :
    ∃ s' w, ((keptIn dir).load e []).run v = (.ok s', w) ∧ w.disk = v.disk ∧
      ∀ field, (s'.get field).Alike (s.get field) := by
  obtain ⟨s', known, loaded, -, alike⟩ := loadFile_encoded order holds has writable key
  obtain ⟨log, laid⟩ := load_of_loadFile loaded e []
  rw [environmentFields_eq_nil unset] at laid
  exact ⟨s', _, laid, rfl, alike⟩

/-- Settings whose fields have their forms are saved unless an integer is too long or the API
    key cannot be encoded. If no text in them holds a pair of halves, the file then has the API
    key in encrypted form only, and a store that is new loads the same settings from it and
    leaves every file as it is. Otherwise no file gives these settings. -/
theorem saved_settings_come_back {e : Environment} (opened : ofPath (defaultPath e) = .ok store)
    (unset : ∀ v ∈ e.values, ¬ "INKWELL_".toList <+: v.1.toList)
    (fits : ∀ field : Field, field.form.Fits (s.get field))
    (ready : Vault.Ready e.userDirectory place t) :
    ((∃ u, (store.save s).run t = (.ok (), u)) ↔
      (∀ field n, s.get field = .int n → n.natAbs < Nat.pow 10 Reading.maxDigits) ∧
      ∀ key, s.get .apiKey = .text key → ∃ bytes, key.utf8 = .ok bytes) ∧
    ∀ u, (store.save s).run t = (.ok (), u) →
      ((∀ field text, (s.get field).Mentions text → text.Settled) →
        (∃ record, store.Holds u.disk record ∧ Encodes u.disk place record s) ∧
        ∀ v : Shelf, v.disk = u.disk → v.key = none →
          ∃ s' w, (store.load e []).run v = (.ok s', w) ∧ w.disk = u.disk ∧
            ∀ field, (s'.get field).Alike (s.get field)) ∧
      ((∃ v s' w, (store.load e []).run v = (.ok s', w) ∧
          ∀ field, (s'.get field).Alike (s.get field)) →
        ∀ field text, (s.get field).Mentions text → text.Settled) := by
  rw [ofPath_defaultPath] at opened
  cases opened
  refine ⟨?saves, fun u saved => ⟨fun settled => ?back, ?settled⟩⟩
  case saves =>
    rw [← ofSite_ofDirectory]
    exact exists_save_iff fits (Vault.ready_ofDirectory.2 ready)
  case back =>
    obtain ⟨key, same⟩ := exists_apiKey fits
    obtain ⟨text, rfl⟩ := LooseText.exists_utf8_eq_ok_iff.1 (encodable_of_save saved same)
    have writable : Writable s := fun field _ =>
      (fits field).isDocument (short_of_save_of_fits fits saved field) (settled field)
    obtain ⟨record, u', saved', order, holds, has⟩ := save_keptIn ready writable same
    cases saved.symm.trans saved'
    refine ⟨⟨record, holds, has⟩, fun v disk locked => ?_⟩
    rw [← disk] at holds has order ⊢
    exact load_saved unset (locked ▸ order.fresh) holds has writable same
  case settled =>
    rintro ⟨v, s', w, loaded, alike⟩ field text
    exact settled_of_back fits unset saved loaded alike field

def sampleEnvironment : Environment where
  values := [("PATH", "/bin")]
  home := Path.ofText "/home/u"

def homeShelf : Shelf where
  disk := { nodes := [(["home"], .directory), (["home", "u"], .directory)] }

/-- Settings with an API key and two headers. -/
def sampleSettings : Settings :=
  (initial.set .apiKey (.text "sk-1")).set .defaultHeaders
    (.record [("b", .text "2"), ("a", .text "1")])

theorem homeShelf_ready :
    Vault.Ready sampleEnvironment.userDirectory ["home", "u", ".inkwell"] homeShelf := by
  obtain ⟨d, made, nodes⟩ : ∃ d, homeShelf.disk.ensureDirectory sampleEnvironment.userDirectory =
      .ok d ∧ d = { nodes := homeShelf.disk.nodes ++ [(["home", "u", ".inkwell"], .directory)] } :=
    ⟨_, by decide +kernel, rfl⟩
  subst nodes
  refine ⟨_, made, ⟨by decide +kernel, by decide +kernel⟩, by decide +kernel, ?_, ?_⟩
  · intro content file
    cases file
  · intro k same
    cases same

theorem default_fits (field : Field) : field.form.Fits field.default := by
  cases field with
  | baseUrl | apiKey | model | citationScheme => exact .text _
  | organization | actionsPath => exact .none
  | maxRetries | minimumReply | streamBudget => exact .integer _
  | temperature | requestTimeout | retryMin | retryMax => exact .decimal _
  | debugLogging => exact .switch _
  | defaultHeaders | metadata => exact .record Fields.nodup_keys_nil (by simp)

theorem set_fits (field : Field) {v : Value} (fits : field.form.Fits v)
    (others : ∀ other : Field, other.form.Fits (s.get other)) (other : Field) :
    other.form.Fits ((s.set field v).get other) := by
  rw [get_set]
  split
  · next same => exact same ▸ fits
  · exact others other

theorem sampleSettings_fits (field : Field) : field.form.Fits (sampleSettings.get field) :=
  set_fits .defaultHeaders (.record (by decide) (by simp [Value.isText]))
    (set_fits .apiKey (.text _) default_fits) field

theorem sampleSettings_settled (field : Field) {text : LooseText}
    (mentions : (sampleSettings.get field).Mentions text) : text.Settled := by
  refine Json.IsDocument.settled ?_ mentions
  unfold sampleSettings
  rw [get_set, get_set]
  split
  · exact .record (by decide) (by simp) (by simp [Json.IsDocument.text])
  · split
    · exact .text (LooseText.settled_whole _)
    · exact isDocument_default field

theorem short_default (field : Field) (n : Int) (same : field.default = .int n) :
    n.natAbs < Nat.pow 10 Reading.maxDigits := by
  have document := isDocument_default field
  rw [same] at document
  cases document with
  | int short => exact short

theorem set_short (field : Field) {v : Value} (other : ∀ n, v ≠ .int n)
    (short : ∀ field n, s.get field = .int n → n.natAbs < Nat.pow 10 Reading.maxDigits)
    (field' : Field) (n : Int) (same : (s.set field v).get field' = .int n) :
    n.natAbs < Nat.pow 10 Reading.maxDigits := by
  rw [get_set] at same
  split at same
  · exact absurd same (other n)
  · exact short field' n same

/-- The sample is saved into a directory that is made on the way, and comes back. -/
theorem sample_comes_back :
    ∃ u, ((keptIn sampleEnvironment.userDirectory).save sampleSettings).run homeShelf =
        (.ok (), u) ∧
      ∃ s w, ((keptIn sampleEnvironment.userDirectory).load sampleEnvironment []).run
          { u with key := none } = (.ok s, w) ∧ w.disk = u.disk ∧
        s.get .apiKey = .text "sk-1" ∧
        (s.get .defaultHeaders).Alike (.record [("b", .text "2"), ("a", .text "1")]) := by
  have short : ∀ field n, sampleSettings.get field = .int n →
      n.natAbs < Nat.pow 10 Reading.maxDigits :=
    set_short .defaultHeaders (by simp) (set_short .apiKey (by simp) short_default)
  obtain ⟨saves, comes⟩ := saved_settings_come_back (ofPath_defaultPath sampleEnvironment)
    (by decide) sampleSettings_fits homeShelf_ready
  obtain ⟨u, saved⟩ := saves.2 ⟨short, by rintro _ ⟨⟩; exact ⟨_, rfl⟩⟩
  obtain ⟨-, loads⟩ := (comes u saved).1 fun field _ => sampleSettings_settled field
  obtain ⟨s, w, loaded, kept, alike⟩ := loads { u with key := none } rfl rfl
  exact ⟨u, saved, s, w, loaded, kept, Value.alike_text_iff.1 (alike .apiKey),
    alike .defaultHeaders⟩

/-- The second half of a pair by itself. -/
def strayHalf : LooseText := .broken "" ⟨0x4ff, by decide⟩ ""

def strayFault : Fault := .system .unencodable (some
  "'utf-8' codec can't encode character '\\udcff' in position 0: surrogates not allowed")

/-- Settings with half of a pair for an API key. -/
def halfSettings : Settings :=
  initial.set .apiKey (.text strayHalf)

/-- Settings with an integer that has one digit too many. -/
def longSettings : Settings :=
  initial.set .maxRetries (.int (Nat.pow 10 Reading.maxDigits))

/-- Settings with a pair of halves for a model. -/
def pairSettings : Settings :=
  initial.set .model (.text (.broken "" ⟨0x3d, by decide⟩ (.broken "" ⟨0x600, by decide⟩ "")))

/-- The fields have their forms, and still the settings do not come back: half of a pair cannot
    be encoded, the integer is not written, and the pair is read as one character. -/
theorem unusual_settings_do_not_come_back :
    (∀ v ∈ sampleEnvironment.values, ¬ "INKWELL_".toList <+: v.1.toList) ∧
    Vault.Ready sampleEnvironment.userDirectory ["home", "u", ".inkwell"] homeShelf ∧
    (∀ s ∈ [halfSettings, longSettings, pairSettings], ∀ field : Field,
      field.form.Fits (s.get field)) ∧
    (∃ u, ((keptIn sampleEnvironment.userDirectory).save halfSettings).run homeShelf =
      (.error strayFault, u)) ∧
    (∀ u, ((keptIn sampleEnvironment.userDirectory).save longSettings).run homeShelf ≠
      (.ok (), u)) ∧
    ∃ u, ((keptIn sampleEnvironment.userDirectory).save pairSettings).run homeShelf = (.ok (), u) ∧
      ∀ v s w, ((keptIn sampleEnvironment.userDirectory).load sampleEnvironment []).run v =
        (.ok s, w) → ¬ ∀ field, (s.get field).Alike (pairSettings.get field) := by
  have unset : ∀ v ∈ sampleEnvironment.values, ¬ "INKWELL_".toList <+: v.1.toList := by decide
  have half : ∀ field : Field, field.form.Fits (halfSettings.get field) :=
    set_fits .apiKey (.text _) default_fits
  have long : ∀ field : Field, field.form.Fits (longSettings.get field) :=
    set_fits .maxRetries (.integer _) default_fits
  have pair : ∀ field : Field, field.form.Fits (pairSettings.get field) :=
    set_fits .model (.text _) default_fits
  refine ⟨unset, homeShelf_ready, by simp [half, long, pair], ?half, ?long, ?pair⟩
  case half =>
    obtain ⟨key, u, unlocked, -⟩ :=
      Vault.unlock_ready (Vault.ready_ofDirectory.2 homeShelf_ready)
    have refused : strayHalf.utf8 = .error strayFault := by decide
    obtain ⟨failed, -⟩ := Vault.encrypt_unencodable refused unlocked
    rw [← ofSite_ofDirectory]
    exact ⟨u, save_of_error (by decide) failed⟩
  case long =>
    intro u saved
    have digits : longSettings.get .maxRetries = .int (Nat.pow 10 Reading.maxDigits : Nat) := by
      unfold longSettings
      rw [get_set, if_pos rfl]
    have short := short_of_save_of_fits long saved .maxRetries _ digits
    rw [Int.natAbs_natCast] at short
    exact lt_irrefl _ short
  case pair =>
    have short : ∀ field n, pairSettings.get field = .int n →
        n.natAbs < Nat.pow 10 Reading.maxDigits := set_short .model (by simp) short_default
    obtain ⟨u, saved⟩ := (exists_save_iff pair (Vault.ready_ofDirectory.2 homeShelf_ready)).2
      ⟨short, by rintro _ ⟨⟩; exact ⟨_, rfl⟩⟩
    rw [ofSite_ofDirectory] at saved
    refine ⟨u, saved, fun v s w loaded alike => ?_⟩
    have settled := settled_of_back pair unset saved loaded alike .model (.text _)
    exact absurd settled (by decide)

end RoundTrip

end Store

end ActionEngine.Settings
