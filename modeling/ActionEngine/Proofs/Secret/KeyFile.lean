import ActionEngine.Proofs.Secret.Site
import ActionEngine.Proofs.Text.Loose

/-!
# The key file

The vault keeps its key in a file beside the settings. As long as the key that it knows is
the one of the file, a secret that it has encrypted is decrypted again, also by a vault
that is new and reads the file first. To the disk it does no more than to make the key file
if there is none.
-/

namespace ActionEngine.Vault

open Keeping Steps

variable {t u : Shelf} {dir : Path} {place : Disk.Place}

/-! ### The key -/

section Unlocking

variable {site : Site}

/-- Nothing happens to a directory that is there. -/
theorem run_ensure (at_place : t.disk.DirectoryAt dir place) :
    (alter fun d => d.ensureDirectory dir).run t = (.ok (), t) := by
  rw [run_alter, at_place.ensureDirectory]

theorem run_keyText {content : List UInt8} (there : t.disk.DirectoryAt site.dir place)
    (entry : Disk.IsEntry site.key)
    (file : t.disk.node? (place ++ [site.key]) = some (.file content)) :
    (keyText (site.dir.child site.key)).run t =
      (.ok ((trimBytes content).map fun b => Char.ofNat b.toNat), t) := by
  have has : t.disk.has (site.dir.child site.key) = .ok true := by
    rw [there.has entry, file]
    rfl
  unfold keyText
  rw [Path.parent_child, run_bind_of_ok (run_ensure there),
    run_bind_of_ok ((run_look _ t).trans (congrArg (·, t) has)), if_pos rfl,
    run_bind_of_ok (by rw [run_look, there.read entry file])]
  rfl

/-- A key file is made if there is none and its draft can be written. -/
theorem run_keyText_of_absent (there : t.disk.DirectoryAt site.dir place)
    (absent : t.disk.has (site.dir.child site.key) = .ok false) {bytes : List UInt8}
    {entropy : Entropy} (drawn : draw.run t = (.ok bytes, { t with entropy })) :
    (keyText (site.dir.child site.key)).run t =
      (replaceFile (site.dir.child site.key) (Text.utf8Encode (Fernet.Key.text bytes)) >>= fun _ =>
        pure (Fernet.Key.text bytes)).run { t with entropy } := by
  unfold keyText
  rw [Path.parent_child, run_bind_of_ok (run_ensure there),
    run_bind_of_ok ((run_look _ t).trans (congrArg (·, t) absent)), if_neg (by decide),
    run_bind_of_ok drawn]

theorem keyText_left (there : t.disk.DirectoryAt site.dir place) :
    site.Left place t.disk ((keyText (site.dir.child site.key)).run t).2.disk := by
  have looked (found : Except Fault Bool) (has : t.disk.has (site.dir.child site.key) = found) :
      (look fun d => d.has (site.dir.child site.key)).run t = (found, t) :=
    (run_look _ t).trans (congrArg (·, t) has)
  rcases has : t.disk.has (site.dir.child site.key) with fault | _ | _
  · unfold keyText
    rw [Path.parent_child, run_bind_of_ok (run_ensure there), run_bind_of_error (looked _ has)]
    exact .alone
  · obtain ⟨bytes, entropy, drawn⟩ : ∃ bytes entropy,
      draw.run t = (.ok bytes, { t with entropy }) := ⟨_, _, rfl⟩
    rw [run_keyText_of_absent there has drawn]
    cases written : t.disk.write (site.dir.child site.draft)
        (Text.utf8Encode (Fernet.Key.text bytes)) with
    | error fault =>
        rw [run_bind_of_error (run_replaceFile_of_error (t := { t with entropy })
          site.withSuffix_key written)]
        exact .alone
    | ok d =>
        obtain ⟨entry, free⟩ := (there.write_ok_iff site.draft_ne_above _).1 ⟨d, written⟩
        have entry' := site.isEntry_key_iff.2 entry
        have absent : t.disk.node? (place ++ [site.key]) = none := by
          rw [there.has entry'] at has
          simpa using has
        rw [run_bind_of_ok (run_replaceFile (t := { t with entropy }) site.withSuffix_key
          there entry entry' free (by simp [absent]) _)]
        exact .made absent free _
  · unfold keyText
    rw [Path.parent_child, run_bind_of_ok (run_ensure there), run_bind_of_ok (looked _ has),
      if_pos rfl, run_bind, run_look]
    cases t.disk.read (site.dir.child site.key) <;> exact .alone

/-- Getting the key does no more to the disk than to make the key file. -/
theorem unlock_left (there : t.disk.DirectoryAt site.dir place) :
    site.Left place t.disk ((unlock (site.dir.child site.key)).run t).2.disk := by
  cases known : t.key with
  | some key =>
      rw [unlock_known known]
      exact .alone
  | none =>
      have left := keyText_left there
      unfold unlock
      rw [run_get_bind, known]
      dsimp only
      rw [run_bind]
      rcases ran : (keyText (site.dir.child site.key)).run t with ⟨fault | text, u⟩
      · rwa [ran] at left
      · rw [ran] at left
        dsimp only
        split <;> exact left

/-- A vault that does not know its key reads it. -/
theorem unlock_of_file (there : t.disk.DirectoryAt site.dir place) (entry : Disk.IsEntry site.key)
    (locked : t.key = none) {content : List UInt8}
    (file : t.disk.node? (place ++ [site.key]) = some (.file content)) {key : Fernet.Key}
    (reads : keyOf content = some key) :
    (unlock (site.dir.child site.key)).run t = (.ok key, { t with key := some key }) := by
  unfold unlock
  rw [run_get_bind, locked]
  dsimp only
  rw [run_bind_of_ok (run_keyText there entry file)]
  unfold keyOf at reads
  rw [reads]
  rfl

/-- A key file that spells no key is no use to it. -/
theorem unlock_of_garbled (there : t.disk.DirectoryAt site.dir place)
    (entry : Disk.IsEntry site.key) (locked : t.key = none) {content : List UInt8}
    (file : t.disk.node? (place ++ [site.key]) = some (.file content))
    (garbled : keyOf content = none) :
    (unlock (site.dir.child site.key)).run t =
      (.error (.value "Fernet key must be 32 url-safe base64-encoded bytes."), t) := by
  unfold unlock
  rw [run_get_bind, locked]
  dsimp only
  rw [run_bind_of_ok (run_keyText there entry file)]
  unfold keyOf at garbled
  rw [garbled]
  rfl

/-- The key of the file is the vault's key. -/
theorem unlock_of_spells {key : Fernet.Key} (order : site.InOrder place t.disk t.key)
    (spells : site.Spells t.disk place key) :
    (unlock (site.dir.child site.key)).run t = (.ok key, { t with key := some key }) := by
  cases known : t.key with
  | some other =>
      have same : other = key := (order.known other known).unique spells
      rw [unlock_known known, same, ← known.trans (congrArg some same)]
  | none =>
      obtain ⟨content, file, reads⟩ := spells
      exact unlock_of_file order.there order.entry_key known file reads

/-- A key file is made if there is none. -/
theorem unlock_of_absent (order : site.InOrder place t.disk t.key) (locked : t.key = none)
    (absent : t.disk.node? (place ++ [site.key]) = none) :
    ∃ key content entropy, keyOf content = some key ∧
      (unlock (site.dir.child site.key)).run t =
        (.ok key, { t with
          disk := t.disk.replaced place site.draft site.key content
          entropy
          key := some key }) := by
  obtain ⟨bytes, entropy, drawn, size⟩ : ∃ bytes entropy,
      draw.run t = (.ok bytes, { t with entropy }) ∧ bytes.length = 32 :=
    ⟨_, _, rfl, t.entropy.length_draw⟩
  refine ⟨_, _, entropy, keyOf_text size, ?_⟩
  have has : t.disk.has (site.dir.child site.key) = .ok false := by
    rw [order.there.has order.entry_key, absent]
    rfl
  have made : (keyText (site.dir.child site.key)).run t =
      (.ok (Fernet.Key.text bytes), { t with
        disk := t.disk.replaced place site.draft site.key
          (Text.utf8Encode (Fernet.Key.text bytes))
        entropy }) := by
    rw [run_keyText_of_absent order.there has drawn]
    exact run_bind_of_ok (run_replaceFile (t := { t with entropy }) site.withSuffix_key
      order.there order.entry_draft order.entry_key order.free_draft order.free_key _)
  unfold unlock
  rw [run_get_bind, locked]
  dsimp only
  rw [run_bind_of_ok made, Fernet.Key.ofText?_text size]
  rfl

/-- The vault always gets its key. -/
theorem unlock_inOrder (order : site.InOrder place t.disk t.key) :
    ∃ key u, (unlock (site.dir.child site.key)).run t = (.ok key, u) ∧ u.key = some key ∧
      site.InOrder place u.disk u.key := by
  obtain ⟨key, spells⟩ | ⟨locked, absent⟩ := order.spells_or
  · exact ⟨key, _, unlock_of_spells order spells, rfl, order.learn spells⟩
  · obtain ⟨key, content, entropy, reads, unlocked⟩ := unlock_of_absent order locked absent
    exact ⟨key, _, unlocked, rfl, order.replace_key reads⟩

/-- A vault that does not know its key sees to the directory first. -/
theorem unlock_ensured {d : Disk} (locked : t.key = none)
    (made : t.disk.ensureDirectory site.dir = .ok d) (there : d.DirectoryAt site.dir place) :
    (unlock (site.dir.child site.key)).run t =
      (unlock (site.dir.child site.key)).run { t with disk := d } := by
  have above : (site.dir.child site.key).parent = site.dir := Path.parent_child site.dir _
  have same : (keyText (site.dir.child site.key)).run t =
      (keyText (site.dir.child site.key)).run { t with disk := d } := by
    have first : (alter fun d => d.ensureDirectory site.dir).run t =
        (.ok (), { t with disk := d }) := by
      rw [run_alter, made]
    unfold keyText
    rw [above, run_bind_of_ok first, run_bind_of_ok (run_ensure there)]
  unfold unlock
  rw [locked] at same
  rw [run_get_bind, run_get_bind, locked]
  dsimp only
  rw [run_bind, run_bind, same]

end Unlocking

/-! ### Secrets -/

def Sealed (key : Fernet.Key) (s token : String) : Prop :=
  ∃ time start, Aes.IsBlock start ∧
    token = scheme ++ ":" ++ String.ofList (Fernet.sign key time start (Text.utf8Encode s.toList))

theorem encrypt_of_unlock {keyPath : Path} {key : Fernet.Key} {s : String} (filled : s ≠ "")
    (unlocked : (unlock keyPath).run t = (.ok key, u)) :
    ∃ token entropy, (encrypt keyPath (.text s)).run t = (.ok token, { u with entropy }) ∧
      Sealed key s token := by
  have present : (Value.text s).isPresent := by simpa [Value.isPresent] using filled
  obtain ⟨bytes, entropy, drawn, size⟩ : ∃ bytes entropy,
      draw.run u = (.ok bytes, { u with entropy }) ∧ bytes.length = 32 :=
    ⟨_, _, rfl, u.entropy.length_draw⟩
  have first : Aes.IsBlock (bytes.take 16) := by
    unfold Aes.IsBlock
    rw [List.length_take, size]
    rfl
  refine ⟨_, entropy, ?_, u.entropy.time, bytes.take 16, first, rfl⟩
  unfold encrypt
  rw [present, if_neg (by decide), run_bind_of_ok unlocked]
  dsimp only
  rw [LooseText.utf8, run_bind_of_ok (run_lift _ u), run_get_bind, run_bind_of_ok drawn]
  rfl

def opened (key : Fernet.Key) (token : List Text.Code) : Except Fault String := do
  let characters ← Text.ascii token
  match (Fernet.verify? key characters).map Text.utf8Decode with
  | some (.ok text) => .ok (String.ofList text)
  | some (.error fault) => .error (Disk.undecodable fault)
  | none => .error (.value "Invalid Fernet token")

/-- The secret names the vault's own scheme, or none. -/
def NamesScheme (s : LooseText) : Prop :=
  (parts s.codes).1 = scheme.toList.map .char

theorem decrypt_of_unlock {keyPath : Path} {key : Fernet.Key} {s : LooseText} (filled : s ≠ "")
    (named : NamesScheme s) (unlocked : (unlock keyPath).run t = (.ok key, u)) :
    (decrypt keyPath (.text s)).run t = (opened key (parts s.codes).2, u) := by
  have present : (Value.text s).isPresent := by simpa [Value.isPresent] using filled
  unfold decrypt opened
  rw [present, if_neg (by decide)]
  dsimp only
  rw [named, if_neg (by simp), run_bind_of_ok unlocked, run_bind, run_lift]
  cases Text.ascii (parts s.codes).2 with
  | error fault => rfl
  | ok characters =>
      dsimp only [Bind.bind, Except.bind]
      rcases (Fernet.verify? key characters).map Text.utf8Decode with _ | (_ | _) <;> rfl

/-- The vault can work in a directory as soon as it is there. -/
def Ready (dir : Path) (place : Disk.Place) (t : Shelf) : Prop :=
  ∃ d, t.disk.ensureDirectory dir = .ok d ∧ InOrder dir place d t.key

theorem ready_ofDirectory : (Site.ofDirectory dir).Ready place t ↔ Ready dir place t :=
  exists_congr fun _ => and_congr_right fun _ => Site.inOrder_ofDirectory

variable {site : Site}

/-- The vault gets its key, and can work on. -/
theorem unlock_ready (ready : site.Ready place t) :
    ∃ key u, (unlock (site.dir.child site.key)).run t = (.ok key, u) ∧ u.key = some key ∧
      site.Ready place u := by
  obtain ⟨d, made, order⟩ := ready
  cases known : t.key with
  | some key => exact ⟨key, t, unlock_known known, known, d, made, order⟩
  | none =>
      obtain ⟨key, u, unlocked, known', order'⟩ := unlock_inOrder (t := { t with disk := d }) order
      rw [← unlock_ensured known made order.there] at unlocked
      exact ⟨key, u, unlocked, known', u.disk, order'.there.ensureDirectory, order'⟩

/-- A text is encrypted under the key of the key file. -/
theorem encrypt_ready (ready : site.Ready place t) {s : String} (filled : s ≠ "") :
    ∃ token u, (encrypt (site.dir.child site.key) (.text s)).run t = (.ok token, u) ∧
      ∃ d key, u.disk.ensureDirectory site.dir = .ok d ∧ site.InOrder place d u.key ∧
        u.key = some key ∧ Sealed key s token := by
  obtain ⟨key, u, unlocked, known, d, made, order⟩ := unlock_ready ready
  obtain ⟨token, entropy, encrypted, closed⟩ := encrypt_of_unlock filled unlocked
  exact ⟨token, _, encrypted, d, key, made, order, known, closed⟩

theorem ascii_marks {token : List Char} (marks : ∀ c ∈ token, Base64.IsMark c) :
    Text.ascii (token.map .char) = .ok token := by
  have each : (token.map Text.Code.char).mapM Text.Code.ascii? = some token := by
    induction token with
    | nil => rfl
    | cons c token ih =>
        have small : c.toNat < 128 := Nat.lt_trans (marks c List.mem_cons_self).2 (by decide)
        rw [List.map_cons, List.mapM_cons, Text.Code.ascii?, if_pos small,
          ih fun d hd => marks d (List.mem_cons_of_mem _ hd)]
        rfl
  rw [Text.ascii, each]

/-- A secret is split at its first colon. -/
theorem parts_append {named token : List Text.Code} (free : .char ':' ∉ named)
    (filled : token ≠ []) : parts (named ++ .char ':' :: token) = (named, token) := by
  obtain ⟨c, token, rfl⟩ := List.exists_cons_of_ne_nil filled
  have front : ∀ code ∈ named, (code != .char ':') = true := fun code mem =>
    bne_iff_ne.2 fun same => free (same ▸ mem)
  unfold parts
  rw [List.dropWhile_append_of_pos front, List.dropWhile_cons_of_neg (by simp),
    List.takeWhile_append_of_pos front, List.takeWhile_cons_of_neg (by simp), List.append_nil]

/-- An encrypted text names the scheme, and its token is opened by the key. -/
theorem Sealed.opens {key : Fernet.Key} {s token : String} (closed : Sealed key s token)
    (whole : key.IsWhole) :
    NamesScheme token ∧ opened key (parts (LooseText.codes token)).2 = .ok s := by
  obtain ⟨time, start, first, rfl⟩ := closed
  have marks := Fernet.isMark_sign key time start (Text.utf8Encode s.toList)
  have read := Fernet.verify_sign whole first time (Text.utf8Encode s.toList)
  have split : parts (LooseText.codes (scheme ++ ":" ++ String.ofList
      (Fernet.sign key time start (Text.utf8Encode s.toList)) : String)) =
      (scheme.toList.map .char,
        (Fernet.sign key time start (Text.utf8Encode s.toList)).map .char) := by
    have filled := Fernet.sign_ne_nil whole first time (Text.utf8Encode s.toList)
    rw [LooseText.codes_whole, String.toList_append, String.toList_append, String.toList_ofList,
      String.toList_ofList, List.map_append, List.map_append, List.append_assoc, List.map_singleton,
      List.singleton_append, parts_append (by decide) (by simpa using filled)]
  unfold NamesScheme
  rw [split]
  refine ⟨rfl, ?_⟩
  unfold opened
  rw [ascii_marks marks]
  dsimp only [Bind.bind, Except.bind]
  rw [read, Option.map_some, Text.utf8Decode_encode]
  dsimp only
  rw [String.ofList_toList]

theorem Sealed.filled {key : Fernet.Key} {s token : String} (closed : Sealed key s token) :
    LooseText.whole token ≠ "" := by
  obtain ⟨time, start, -, rfl⟩ := closed
  simp [scheme, String.append_eq_empty_iff]

/-- A secret is read back under its key. -/
theorem decrypt_sealed {keyPath : Path} {key : Fernet.Key} {s token : String}
    (whole : key.IsWhole) (closed : Sealed key s token)
    (unlocked : (unlock keyPath).run t = (.ok key, u)) :
    (decrypt keyPath (.text token)).run t = (.ok s, u) := by
  obtain ⟨named, opens⟩ := closed.opens whole
  rw [decrypt_of_unlock closed.filled named unlocked, opens]

/-- The token cannot be read for a reason that counts as a wrong value. -/
theorem opened_error {key : Fernet.Key} {token : List Text.Code} {fault : Fault}
    (h : opened key token = .error fault) : fault.isValueFault := by
  unfold opened Text.ascii at h
  split at h
  · next read =>
    dsimp only [Bind.bind, Except.bind] at h
    split at h <;> cases h <;> rfl
  · cases h
    rfl

/-- A secret of another scheme is refused before the key is needed. -/
theorem decrypt_of_scheme {keyPath : Path} {s : LooseText} (filled : s ≠ "")
    (other : ¬NamesScheme s) (t : Shelf) :
    (decrypt keyPath (.text s)).run t = (.error (.value ("Unsupported secret backend '" ++
      (LooseText.ofCodes (parts s.codes).1).display ++ "'")), t) := by
  unfold decrypt
  rw [if_neg (by simpa [Value.isPresent] using filled)]
  dsimp only
  rw [if_pos (by simpa [NamesScheme] using other)]
  rfl

theorem decrypt_of_locked {keyPath : Path} {s : LooseText} (filled : s ≠ "")
    (named : NamesScheme s) {fault : Fault}
    (locked : (unlock keyPath).run t = (.error fault, u)) :
    (decrypt keyPath (.text s)).run t = (.error fault, u) := by
  unfold decrypt
  rw [if_neg (by simpa [Value.isPresent] using filled)]
  dsimp only
  rw [if_neg (by simpa [NamesScheme] using named), run_bind_of_error locked]

/-- A vault that does not know its key decrypts what the key of its file opens, and refuses
    everything else. -/
theorem decrypt_of_file (there : t.disk.DirectoryAt site.dir place)
    (entry : Disk.IsEntry site.key) (locked : t.key = none) {content : List UInt8}
    (file : t.disk.node? (place ++ [site.key]) = some (.file content)) {s : LooseText}
    (filled : s ≠ "") (named : NamesScheme s) :
    ∃ result u, (decrypt (site.dir.child site.key) (.text s)).run t = (result, u) ∧
      (∀ fault, result = .error fault → fault.isValueFault) ∧
      ∀ text, result = .ok text ↔
        ∃ key, site.Spells t.disk place key ∧ opened key (parts s.codes).2 = .ok text := by
  cases reads : keyOf content with
  | none =>
      refine ⟨_, t, decrypt_of_locked filled named
        (unlock_of_garbled there entry locked file reads), by rintro _ ⟨⟩; rfl, fun text => ?_⟩
      constructor
      · intro absurd
        cases absurd
      · rintro ⟨key, ⟨content', file', reads'⟩, -⟩
        cases file.symm.trans file'
        cases reads.symm.trans reads'
  | some key =>
      have spells : site.Spells t.disk place key := ⟨content, file, reads⟩
      refine ⟨_, _, decrypt_of_unlock filled named (unlock_of_file there entry locked file reads),
        fun _ => opened_error, fun text => ?_⟩
      constructor
      · exact fun opens => ⟨key, spells, opens⟩
      · rintro ⟨key', spells', opens⟩
        rwa [spells.unique spells']

/-- Decrypting does no more to the disk than to make the key file. -/
theorem decrypt_left (there : t.disk.DirectoryAt site.dir place) (s : LooseText) :
    site.Left place t.disk ((decrypt (site.dir.child site.key) (.text s)).run t).2.disk := by
  by_cases filled : s = ""
  · rw [decrypt_absent (by simpa [Value.isPresent] using filled)]
    exact .alone
  by_cases named : NamesScheme s
  · have left := unlock_left there
    rcases unlocked : (unlock (site.dir.child site.key)).run t with ⟨fault | key, u⟩
    · rw [decrypt_of_locked filled named unlocked]
      rwa [unlocked] at left
    · rw [decrypt_of_unlock filled named unlocked]
      rwa [unlocked] at left
  · rw [decrypt_of_scheme filled named]
    exact .alone

/-- Decrypting a text leaves the files in order. It gives the same every time, and from the
    second time on it changes no file at all. -/
theorem decrypt_inOrder (order : site.InOrder place t.disk t.key) (s : LooseText) :
    ∃ result u, (decrypt (site.dir.child site.key) (.text s)).run t = (result, u) ∧
      (∀ fault, result = .error fault → fault.isValueFault) ∧
      site.InOrder place u.disk u.key ∧
      ∀ v : Shelf, v.disk = u.disk → site.InOrder place v.disk v.key →
        ∃ key, (decrypt (site.dir.child site.key) (.text s)).run v = (result, { v with key }) ∧
          site.InOrder place v.disk key := by
  by_cases filled : s = ""
  · refine ⟨_, t, decrypt_absent (by simpa [Value.isPresent] using filled), by simp, order, ?_⟩
    intro v _ order'
    exact ⟨v.key, decrypt_absent (by simpa [Value.isPresent] using filled), order'⟩
  · by_cases named : NamesScheme s
    · obtain ⟨key, u, unlocked, known, order'⟩ := unlock_inOrder order
      refine ⟨_, u, decrypt_of_unlock filled named unlocked, fun fault => opened_error, order', ?_⟩
      intro v same ready
      have spells : site.Spells v.disk place key := same ▸ order'.known key known
      exact ⟨some key, decrypt_of_unlock filled named (unlock_of_spells ready spells),
        ready.learn spells⟩
    · refine ⟨_, t, decrypt_of_scheme filled named t, by rintro _ ⟨⟩; rfl, order, ?_⟩
      exact fun v _ ready => ⟨v.key, decrypt_of_scheme filled named v, ready⟩

end ActionEngine.Vault
