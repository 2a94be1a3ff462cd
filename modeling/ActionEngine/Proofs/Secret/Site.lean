import ActionEngine.Proofs.Disk.Files
import ActionEngine.Proofs.Secret.Fernet
import ActionEngine.Proofs.Secret.Vault
import Mathlib.Data.List.TakeWhile
import Mathlib.Data.Option.Basic

/-!
# Where settings are kept

Settings are kept at a site: a directory with the settings file, the vault's key file and the
draft that both are written to first. The last two are named after the settings file, which
may bear the name of either itself. Replacing one of the files leaves the others in order, as
long as their names differ.
-/

namespace ActionEngine.Vault

open Keeping Steps

/-! ### The content of the key file -/

def keyOf (bytes : List UInt8) : Option Fernet.Key :=
  Fernet.Key.ofText? ((trimBytes bytes).map fun b => Char.ofNat b.toNat)

theorem dropWhile_blank {b : UInt8} (mark : 32 < b.toNat) (bytes : List UInt8) :
    (b :: bytes).dropWhile (fun b => b == 32 || (9 ≤ b && b ≤ 13)) = b :: bytes := by
  apply List.dropWhile_cons_of_neg
  simp only [Bool.or_eq_true, beq_iff_eq, Bool.and_eq_true, decide_eq_true_eq, not_or,
    not_and, UInt8.le_iff_toNat_le, ← UInt8.toNat_inj]
  constructor
  · exact fun same => absurd same (Nat.ne_of_gt mark)
  · exact fun _ => Nat.not_le_of_gt (Nat.lt_trans (by decide) mark)

theorem trimBytes_eq {bytes : List UInt8} (h : ∀ b ∈ bytes, 32 < b.toNat) :
    trimBytes bytes = bytes := by
  have stays {bytes : List UInt8} (h : ∀ b ∈ bytes, 32 < b.toNat) :
      bytes.dropWhile (fun b => b == 32 || (9 ≤ b && b ≤ 13)) = bytes := by
    cases bytes with
    | nil => rfl
    | cons b bytes => exact dropWhile_blank (h b List.mem_cons_self) bytes
  unfold trimBytes
  dsimp only
  rw [stays h, stays fun b hb => h b (List.mem_reverse.1 hb), List.reverse_reverse]

/-- Trimming takes nothing away in front of a byte that is not blank. -/
theorem trimBytes_append {front : List UInt8} (filled : front ≠ [])
    (first : ∀ b ∈ front.head?, 32 < b.toNat) (last : ∀ b ∈ front.getLast?, 32 < b.toNat)
    (rest : List UInt8) : ∃ rest', trimBytes (front ++ rest) = front ++ rest' := by
  have start (rest : List UInt8) :
      (front ++ rest).dropWhile (fun b => b == 32 || (9 ≤ b && b ≤ 13)) = front ++ rest := by
    obtain ⟨b, more, rfl⟩ := List.exists_cons_of_ne_nil filled
    exact dropWhile_blank (first b rfl) _
  have stop : front.reverse.dropWhile (fun b => b == 32 || (9 ≤ b && b ≤ 13)) =
      front.reverse := by
    obtain ⟨c, more, same⟩ := List.exists_cons_of_ne_nil (List.reverse_ne_nil_iff.2 filled)
    rw [same]
    exact dropWhile_blank (last c (by rw [← List.head?_reverse, same]; rfl)) more
  unfold trimBytes
  dsimp only
  rw [start, List.reverse_append, List.dropWhile_append]
  split
  · exact ⟨[], by rw [stop, List.reverse_reverse, List.append_nil]⟩
  · exact ⟨_, by rw [List.reverse_append, List.reverse_reverse]⟩

theorem map_utf8Encode {s : List Char} (ascii : ∀ c ∈ s, c.toNat < 128) :
    (Text.utf8Encode s).map (fun b => Char.ofNat b.toNat) = s := by
  rw [Text.utf8Encode_of_ascii ascii, List.map_map]
  refine (List.map_congr_left fun c hc => ?_).trans (List.map_id _)
  rw [Function.comp_apply, Text.toNat_ofNat (Nat.lt_trans (ascii c hc) (by decide)),
    Char.ofNat_toNat, id]

/-- A key file that was made of 32 bytes spells their key. -/
theorem keyOf_text {bytes : List UInt8} (size : bytes.length = 32) :
    keyOf (Text.utf8Encode (Fernet.Key.text bytes)) = some ⟨bytes.take 16, bytes.drop 16⟩ := by
  have marks : ∀ c ∈ Fernet.Key.text bytes, Base64.IsMark c := Base64.isMark_encode bytes
  have ascii : ∀ c ∈ Fernet.Key.text bytes, c.toNat < 128 := fun c hc =>
    Nat.lt_trans (marks c hc).2 (by decide)
  have trimmed : trimBytes (Text.utf8Encode (Fernet.Key.text bytes)) =
      Text.utf8Encode (Fernet.Key.text bytes) := by
    rw [Text.utf8Encode_of_ascii ascii]
    refine trimBytes_eq (List.forall_mem_map.2 fun c hc => ?_)
    rw [Text.toNat_ofNat (Nat.lt_trans (ascii c hc) (by decide))]
    exact (marks c hc).1
  unfold keyOf
  rw [trimmed, map_utf8Encode ascii, Fernet.Key.ofText?_text size]

/-- A text spells no key if there are more marks in front of its first equals sign than
    32 bytes have. -/
theorem keyOf_eq_none {front : List Char} (ascii : ∀ c ∈ front, c.toNat < 128)
    (first : ∀ c ∈ front.head?, 32 < c.toNat) (last : ∀ c ∈ front.getLast?, 32 < c.toNat)
    (unsigned : ∀ c ∈ front, c ≠ '=')
    (many : 44 ≤ front.countP fun c => (Base64.value? c).isSome) (rest : List Char) :
    keyOf (Text.utf8Encode (front ++ rest)) = none := by
  have filled : front ≠ [] := by
    rintro rfl
    cases many
  have mark {c : Char} (mem : c ∈ front) (mark : 32 < c.toNat) :
      32 < (UInt8.ofNat c.toNat).toNat := by
    rwa [Text.toNat_ofNat (Nat.lt_trans (ascii c mem) (by decide))]
  obtain ⟨rest', trimmed⟩ : ∃ rest', trimBytes (Text.utf8Encode (front ++ rest)) =
      Text.utf8Encode front ++ rest' := by
    rw [Text.utf8Encode_append, Text.utf8Encode_of_ascii ascii]
    apply trimBytes_append (by simpa using filled)
    · rw [List.head?_map]
      exact Option.forall_mem_map.2 fun c hc => mark (List.mem_of_mem_head? hc) (first c hc)
    · rw [List.getLast?_map]
      exact Option.forall_mem_map.2 fun c hc => mark (List.mem_of_mem_getLast? hc) (last c hc)
  unfold keyOf Fernet.Key.ofText? Base64.decode?
  rw [trimmed, List.map_append, map_utf8Encode ascii]
  split
  · next read =>
    rw [if_neg]
    intro size
    have := Base64.length_decodeFrom (by decide) unsigned read
    omega
  · rfl

/-! ### Files -/

variable {t u : Shelf} {dir : Path} {place : Disk.Place}

section Replacing

variable {draft name : String} (beside : (dir.child name).withSuffix ".tmp" = .ok (dir.child draft))

include beside

/-- A file is replaced if nothing stands in the way. -/
theorem run_replaceFile (at_place : t.disk.DirectoryAt dir place) (entry : Disk.IsEntry draft)
    (entry' : Disk.IsEntry name) (free : t.disk.node? (place ++ [draft]) ≠ some .directory)
    (free' : t.disk.node? (place ++ [name]) ≠ some .directory) (content : List UInt8) :
    (replaceFile (dir.child name) content).run t =
      (.ok (), { t with disk := t.disk.replaced place draft name content }) := by
  have drafted : (alter fun d => d.write (dir.child draft) content).run t =
      (.ok (), { t with disk := t.disk.put (place ++ [draft]) (.file content) }) := by
    rw [run_alter, at_place.write entry free]
  unfold replaceFile
  rw [beside]
  refine Eq.trans (run_bind_of_ok (t := t) (a := dir.child draft) rfl) ?_
  rw [run_bind_of_ok drafted, run_alter, at_place.replace entry entry' free free']

/-- Nothing happens to a file whose draft cannot be written. -/
theorem run_replaceFile_of_error {content : List UInt8} {fault : Fault}
    (blocked : t.disk.write (dir.child draft) content = .error fault) :
    (replaceFile (dir.child name) content).run t = (.error fault, t) := by
  unfold replaceFile
  rw [beside]
  refine Eq.trans (run_bind_of_ok (t := t) (a := dir.child draft) rfl) ?_
  exact run_bind_of_error (by rw [run_alter, blocked])

end Replacing

/-! ### Files in order -/

def Spells (d : Disk) (place : Disk.Place) (key : Fernet.Key) : Prop :=
  ∃ content, d.node? (place ++ ["settings.key"]) = some (.file content) ∧ keyOf content = some key

/-- The vault can work in a directory: its files are not in the way, its key file spells a
    key if there is one, and the key that it knows is that of the file. -/
structure InOrder (dir : Path) (place : Disk.Place) (d : Disk) (key : Option Fernet.Key) :
    Prop where
  there : d.DirectoryAt dir place
  free : ∀ name ∈ ["settings.json", "settings.key", "settings.tmp"],
    d.node? (place ++ [name]) ≠ some .directory
  spelled : ∀ content, d.node? (place ++ ["settings.key"]) = some (.file content) →
    (keyOf content).isSome
  known : ∀ k, key = some k → Spells d place k

/-- Where settings are kept: a directory, and the name of the settings file in it. -/
structure Site where
  dir : Path
  name : String
  named : name ≠ ""

namespace Site

/-- The name of the key file, which may be that of the settings file. -/
def key (site : Site) : String :=
  String.ofList (Path.stem site.name.toList) ++ ".key"

/-- The name under which either file is written first. It may be that of the settings file. -/
def draft (site : Site) : String :=
  String.ofList (Path.stem site.name.toList) ++ ".tmp"

def ofDirectory (dir : Path) : Site :=
  ⟨dir, "settings.json", by decide⟩

section Names

variable (site : Site)

theorem stem_ne_nil : Path.stem site.name.toList ≠ [] :=
  Path.stem_ne_nil (by simpa using site.named)

theorem draft_ne_key : site.draft ≠ site.key := by
  intro same
  have := congrArg String.toList same
  simp [draft, key] at this

theorem withSuffix_name :
    (site.dir.child site.name).withSuffix ".tmp" = .ok (site.dir.child site.draft) :=
  Path.withSuffix_child site.dir site.named ".tmp"

theorem withSuffix_key :
    (site.dir.child site.key).withSuffix ".tmp" = .ok (site.dir.child site.draft) := by
  have stem : Path.stem site.key.toList = Path.stem site.name.toList := by
    rw [key, String.toList_append, String.toList_ofList]
    exact Path.stem_append site.stem_ne_nil (by decide) (by decide)
  have named : site.key ≠ "" := by simp [key, String.append_eq_empty_iff]
  rw [Path.withSuffix_child site.dir named, stem]
  rfl

/-- The names of the key file and of the draft are of the same length. -/
theorem isEntry_key_iff : Disk.IsEntry site.key ↔ Disk.IsEntry site.draft := by
  unfold key draft
  rw [Disk.isEntry_append_iff (by decide) (by decide),
    Disk.isEntry_append_iff (by decide) (by decide)]
  rfl

theorem isEntry_files {site : Site} (entry : Disk.IsEntry site.name)
    (entry' : Disk.IsEntry site.draft) :
    ∀ name ∈ [site.name, site.key, site.draft], Disk.IsEntry name := by
  simp [entry, site.isEntry_key_iff, entry']

theorem draft_ne_above : site.draft ≠ ".." :=
  Disk.ne_above (by decide)

end Names

end Site

/-! ### Sites in order -/

namespace Site

def Spells (site : Site) (d : Disk) (place : Disk.Place) (key : Fernet.Key) : Prop :=
  ∃ content, d.node? (place ++ [site.key]) = some (.file content) ∧ keyOf content = some key

/-- The vault can work at a site: the names of its files can stand in the directory, and no
    directory does, the key file spells a key if there is one, and the key that the vault
    knows is that of the file. -/
structure InOrder (site : Site) (place : Disk.Place) (d : Disk) (known : Option Fernet.Key) :
    Prop where
  there : d.DirectoryAt site.dir place
  entries : ∀ name ∈ [site.name, site.key, site.draft], Disk.IsEntry name
  free : ∀ name ∈ [site.name, site.key, site.draft], d.node? (place ++ [name]) ≠ some .directory
  spelled : ∀ content, d.node? (place ++ [site.key]) = some (.file content) →
    (keyOf content).isSome
  known : ∀ k, known = some k → site.Spells d place k

/-- The vault can work at a site as soon as its directory is there. -/
def Ready (site : Site) (place : Disk.Place) (t : Shelf) : Prop :=
  ∃ d, t.disk.ensureDirectory site.dir = .ok d ∧ site.InOrder place d t.key

/-- Getting the key leaves the disk alone, or makes the key file that was missing. -/
inductive Left (site : Site) (place : Disk.Place) (d : Disk) : Disk → Prop
  | alone : Left site place d d
  | made (absent : d.node? (place ++ [site.key]) = none)
      (free : d.node? (place ++ [site.draft]) ≠ some .directory) (content : List UInt8) :
      Left site place d (d.replaced place site.draft site.key content)

variable {site : Site} {d d' : Disk} {known : Option Fernet.Key} {key : Fernet.Key}

theorem isEntry_json : Disk.IsEntry "settings.json" := ⟨by decide, by decide, by decide⟩

theorem key_ofDirectory (dir : Path) : (ofDirectory dir).key = "settings.key" := by
  change String.ofList (Path.stem "settings.json".toList) ++ ".key" = _
  decide

theorem draft_ofDirectory (dir : Path) : (ofDirectory dir).draft = "settings.tmp" := by
  change String.ofList (Path.stem "settings.json".toList) ++ ".tmp" = _
  decide

theorem name_ne_key_ofDirectory (dir : Path) : (ofDirectory dir).name ≠ (ofDirectory dir).key := by
  rw [key_ofDirectory]
  change "settings.json" ≠ "settings.key"
  decide

theorem name_ne_draft_ofDirectory (dir : Path) :
    (ofDirectory dir).name ≠ (ofDirectory dir).draft := by
  rw [draft_ofDirectory]
  change "settings.json" ≠ "settings.tmp"
  decide

theorem spells_ofDirectory :
    (ofDirectory dir).Spells d place key ↔ Vault.Spells d place key := by
  unfold Spells Vault.Spells
  rw [key_ofDirectory]

theorem inOrder_ofDirectory :
    (ofDirectory dir).InOrder place d known ↔ Vault.InOrder dir place d known := by
  constructor
  · rintro ⟨there, -, free, spelled, spells⟩
    rw [key_ofDirectory] at free spelled
    rw [draft_ofDirectory] at free
    exact ⟨there, free, spelled, fun k same => spells_ofDirectory.1 (spells k same)⟩
  · rintro ⟨there, free, spelled, spells⟩
    rw [← key_ofDirectory dir] at free spelled
    rw [← draft_ofDirectory dir] at free
    refine ⟨there, isEntry_files isEntry_json ?_, free, spelled,
      fun k same => spells_ofDirectory.2 (spells k same)⟩
    rw [draft_ofDirectory]
    exact ⟨by decide, by decide, by decide⟩

theorem Left.keeps (left : site.Left place d d') : Disk.Keeps d d' := by
  cases left with
  | alone => exact .refl d
  | made absent free content => exact Disk.keeps_replaced free (by simp [absent])

theorem Left.free (left : site.Left place d d') {other : String}
    (free : d.node? (place ++ [other]) ≠ some .directory) :
    d'.node? (place ++ [other]) ≠ some .directory := by
  cases left with
  | alone => exact free
  | made absent free' content =>
      rw [Disk.node?_replaced]
      split
      · simp
      · split
        · simp
        · exact free

theorem Left.settings (left : site.Left place d d') (apart : site.name ≠ site.key)
    (apart' : site.name ≠ site.draft) :
    d'.node? (place ++ [site.name]) = d.node? (place ++ [site.name]) := by
  cases left with
  | alone => rfl
  | made absent free content => simp [Disk.node?_replaced, apart, apart']

namespace InOrder

theorem entry_name (order : site.InOrder place d known) : Disk.IsEntry site.name :=
  order.entries _ (by simp)

theorem entry_key (order : site.InOrder place d known) : Disk.IsEntry site.key :=
  order.entries _ (by simp)

theorem entry_draft (order : site.InOrder place d known) : Disk.IsEntry site.draft :=
  order.entries _ (by simp)

theorem free_name (order : site.InOrder place d known) :
    d.node? (place ++ [site.name]) ≠ some .directory :=
  order.free _ (by simp)

theorem free_key (order : site.InOrder place d known) :
    d.node? (place ++ [site.key]) ≠ some .directory :=
  order.free _ (by simp)

theorem free_draft (order : site.InOrder place d known) :
    d.node? (place ++ [site.draft]) ≠ some .directory :=
  order.free _ (by simp)

/-- A vault that does not know its key yet can work wherever another one can. -/
theorem fresh (order : site.InOrder place d known) : site.InOrder place d none where
  there := order.there
  entries := order.entries
  free := order.free
  spelled := order.spelled
  known _ absurd := by cases absurd

/-- The vault can learn its key. -/
theorem learn (order : site.InOrder place d known) (spells : site.Spells d place key) :
    site.InOrder place d (some key) where
  there := order.there
  entries := order.entries
  free := order.free
  spelled := order.spelled
  known _ same := Option.some.inj same ▸ spells

theorem ready (order : site.InOrder place t.disk t.key) : site.Ready place t :=
  ⟨t.disk, order.there.ensureDirectory, order⟩

/-- Either the key file spells a key, or there is none and the vault knows none. -/
theorem spells_or (order : site.InOrder place d known) :
    (∃ key, site.Spells d place key) ∨ known = none ∧ d.node? (place ++ [site.key]) = none := by
  cases found : d.node? (place ++ [site.key]) with
  | none =>
      cases known with
      | none => exact .inr ⟨rfl, rfl⟩
      | some key => exact .inl ⟨key, order.known key rfl⟩
  | some node =>
      cases node with
      | directory => exact absurd found order.free_key
      | file content =>
          obtain ⟨key, reads⟩ := Option.isSome_iff_exists.1 (order.spelled content found)
          exact .inl ⟨key, content, found, reads⟩

/-- Replacing one of the files leaves the others in order. -/
theorem replaced (order : site.InOrder place d known) {name : String}
    (listed : name ∈ [site.name, site.key, site.draft]) {content : List UInt8}
    {known' : Option Fernet.Key}
    (spelled : ∀ c, (d.replaced place site.draft name content).node? (place ++ [site.key]) =
      some (.file c) → (keyOf c).isSome)
    (spells : ∀ k, known' = some k →
      site.Spells (d.replaced place site.draft name content) place k) :
    site.InOrder place (d.replaced place site.draft name content) known' where
  there := order.there.mono (Disk.keeps_replaced order.free_draft (order.free _ listed))
  entries := order.entries
  free other mem := by
    rw [Disk.node?_replaced]
    split
    · simp
    · split
      · simp
      · exact order.free other mem
  spelled := spelled
  known := spells

/-- A settings file that is not the key file is replaced without harm to the key. -/
theorem replace_name (order : site.InOrder place d known) (apart : site.name ≠ site.key)
    (content : List UInt8) :
    site.InOrder place (d.replaced place site.draft site.name content) known := by
  have same : (d.replaced place site.draft site.name content).node? (place ++ [site.key]) =
      d.node? (place ++ [site.key]) := by
    simp [Disk.node?_replaced, apart.symm, site.draft_ne_key.symm]
  apply order.replaced (by simp)
  · rw [same]
    exact order.spelled
  · unfold Spells
    rw [same]
    exact order.known

theorem replace_key (order : site.InOrder place d known) {content : List UInt8}
    (reads : keyOf content = some key) :
    site.InOrder place (d.replaced place site.draft site.key content) (some key) := by
  apply order.replaced (by simp)
  · simp [Disk.node?_replaced, reads]
  · simp [Disk.node?_replaced, Spells, reads]

end InOrder

theorem Spells.unique {key' : Fernet.Key} (spells : site.Spells d place key)
    (spells' : site.Spells d place key') : key = key' := by
  obtain ⟨content, file, reads⟩ := spells
  obtain ⟨content', file', reads'⟩ := spells'
  cases file.symm.trans file'
  exact Option.some.inj (reads.symm.trans reads')

theorem Spells.isWhole (spells : site.Spells d place key) : key.IsWhole := by
  obtain ⟨content, -, reads⟩ := spells
  exact Fernet.Key.isWhole_of_ofText? reads

end Site

theorem InOrder.fresh {d : Disk} {known : Option Fernet.Key} (order : InOrder dir place d known) :
    InOrder dir place d none :=
  Site.inOrder_ofDirectory.1 (Site.inOrder_ofDirectory.2 order).fresh

end ActionEngine.Vault
