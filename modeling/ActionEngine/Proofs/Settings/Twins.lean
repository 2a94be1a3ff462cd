import ActionEngine.Proofs.Disk.Twins
import ActionEngine.Proofs.Settings.Saved

/-!
# Loading beside a file that is not read

Loading reads no file but those of the store's site, and writes no other one. On two disks that
differ in another file it gives the same, remarks the same, and leaves the difference alone.
-/

namespace ActionEngine

open Disk Steps

/-- Shelves with disks that differ in one file are the same otherwise. -/
structure Shelf.Twins (x : Difference) (t t' : Shelf) : Prop where
  disk : Disk.Twins x t.disk t'.disk
  entropy : t'.entropy = t.entropy
  key : t'.key = t.key
  log : t'.log = t.log

/-- The file in which disks differ is none of the site's. -/
structure Vault.Site.Avoids (site : Vault.Site) (x : Difference) : Prop where
  name : destination x.work (site.dir.child site.name) ≠ x.pin
  key : destination x.work (site.dir.child site.key) ≠ x.pin
  draft : destination x.work (site.dir.child site.draft) ≠ x.pin

variable {x : Difference} {site : Vault.Site}

namespace Keeping

theorem look_blind {α : Type} {f : Disk → Except Fault α}
    (same : ∀ d d', Disk.Twins x d d' → f d' = f d) : Blind (Shelf.Twins x) (look f) := by
  intro t t' twins
  rw [run_look, run_look, same _ _ twins.disk]
  exact .of_eq rfl twins

theorem alter_blind {f : Disk → Except Fault Disk}
    (matching : ∀ d d', Disk.Twins x d d' → Matches (Disk.Twins x) (f d) (f d')) :
    Blind (Shelf.Twins x) (alter f) := by
  intro t t' twins
  have matching := matching _ _ twins.disk
  rw [run_alter, run_alter]
  generalize f t.disk = result, f t'.disk = result' at matching
  cases matching with
  | error fault => exact .of_eq rfl twins
  | ok disk => exact .of_eq rfl ⟨disk, twins.entropy, twins.key, twins.log⟩

theorem remark_blind (log : Log) : Blind (Shelf.Twins x) (remark log) := by
  intro t t' twins
  rw [run_remark, run_remark]
  exact .of_eq rfl ⟨twins.disk, twins.entropy, twins.key, congrArg (· ++ log) twins.log⟩

theorem draw_blind : Blind (Shelf.Twins x) draw := by
  rintro t t' ⟨disk, entropy, key, log⟩
  refine .of_eq ?_ ⟨disk, congrArg (·.draw.2) entropy, key, log⟩
  change Except.ok t'.entropy.draw.1 = Except.ok t.entropy.draw.1
  rw [entropy]

end Keeping

namespace Vault

open Keeping

/-- A file is replaced by way of a draft that makes no difference. -/
theorem replaceFile_blind {dir : Path} {draft name : String} (below : draft ≠ "..")
    (beside : (dir.child name).withSuffix ".tmp" = .ok (dir.child draft))
    (apart : destination x.work (dir.child draft) ≠ x.pin) (content : List UInt8) :
    Blind (Shelf.Twins x) (replaceFile (dir.child name) content) := by
  have filled : destination x.work (dir.child draft) ≠ [] := by
    simp [destination_child _ _ below]
  unfold replaceFile
  rw [beside]
  change Blind _ (alter (fun d => d.write (dir.child draft) content) >>= fun _ =>
    alter fun d => d.move (dir.child draft) (dir.child name))
  refine (alter_blind fun d d' twins => twins.write _ _).bind fun _ => ?_
  refine alter_blind fun d d' twins => (twins.move _ _ filled).imp fun e e' left => ?_
  exact left.resolve_right fun moved => apart moved.1

variable (avoids : site.Avoids x)

include avoids

theorem keyText_blind : Blind (Shelf.Twins x) (keyText (site.dir.child site.key)) := by
  unfold keyText
  rw [Path.parent_child]
  refine (alter_blind fun d d' twins => twins.ensureDirectory _).bind fun _ => ?_
  refine (look_blind fun d d' twins => twins.has _).bind fun present => ?_
  split
  · refine (look_blind fun d d' twins => twins.read (twins.not_located avoids.key)).bind fun _ => ?_
    exact .pure _
  · refine draw_blind.bind fun bytes => ?_
    exact (replaceFile_blind site.draft_ne_above site.withSuffix_key avoids.draft _).bind
      fun _ => .pure _

theorem unlock_blind : Blind (Shelf.Twins x) (unlock (site.dir.child site.key)) := by
  unfold unlock
  intro t t' twins
  rw [run_get_bind, run_get_bind, twins.key]
  split
  · exact .of_eq rfl twins
  · refine ((keyText_blind avoids).bind fun text => ?_) t t' twins
    split
    · rintro t t' ⟨disk, entropy, -, log⟩
      exact .of_eq rfl ⟨disk, entropy, rfl, log⟩
    · exact .throw _

theorem decrypt_blind (secret : Value) :
    Blind (Shelf.Twins x) (decrypt (site.dir.child site.key) secret) := by
  unfold decrypt
  split
  · exact .pure _
  · split
    · dsimp only
      split
      · exact .throw _
      · refine (unlock_blind avoids).bind fun key => ?_
        refine (Blind.lift _).bind fun characters => ?_
        split
        · exact .pure _
        · exact .throw _
        · exact .throw _
    · exact .throw _
    · exact .throw _

theorem encrypt_blind (secret : Value) :
    Blind (Shelf.Twins x) (encrypt (site.dir.child site.key) secret) := by
  unfold encrypt
  split
  · exact .pure _
  · refine (unlock_blind avoids).bind fun key => ?_
    split
    · refine (Blind.lift _).bind fun bytes => ?_
      intro t t' twins
      rw [run_get_bind, run_get_bind, twins.entropy]
      exact (draw_blind.bind fun start => .pure _) t t' twins
    · exact .throw _

end Vault

namespace Settings.Store

open Keeping

variable {fields : Fields} (avoids : site.Avoids x)

include avoids

theorem save_blind (s : Settings) : Blind (Shelf.Twins x) ((ofSite site).save s) := by
  unfold save toRecord
  refine Blind.bind ?_ fun fields => ?_
  · dsimp only
    split
    · exact (Vault.encrypt_blind avoids _).bind fun token => .pure _
    · exact .pure _
  · split
    · exact .throw _
    · refine (alter_blind fun d d' twins => twins.ensureDirectory _).bind fun _ => ?_
      refine (Vault.replaceFile_blind site.draft_ne_above site.withSuffix_name avoids.draft _).bind
        fun _ => ?_
      exact remark_blind _

theorem migrate_blind (s : Settings) : Blind (Shelf.Twins x) ((ofSite site).migrate s) := by
  unfold migrate
  refine (save_blind avoids s).tryCatch fun fault => ?_
  split
  · exact remark_blind _
  · exact .throw _

theorem read_blind : Blind (Shelf.Twins x) (ofSite site).read := by
  have unread {d d' : Disk} (twins : Disk.Twins x d d') :
      d'.readText (ofSite site).path = d.readText (ofSite site).path :=
    twins.readText (twins.not_located avoids.name)
  unfold read
  refine (look_blind fun d d' twins => twins.has _).bind fun present => ?_
  split
  · exact .pure _
  · refine (look_blind fun d d' => unread).bind fun text => ?_
    split
    · exact .pure _
    · exact (remark_blind _).bind fun _ => .pure _
    · split
      · exact .throw _
      · exact (remark_blind _).bind fun _ => .pure _

theorem apiKey_blind (cipher plain : Value) :
    Blind (Shelf.Twins x) ((ofSite site).apiKey cipher plain) := by
  unfold apiKey
  split
  · refine Blind.bind (Blind.tryCatch ?_ fun fault => ?_) fun result => ?_
    · exact (Vault.decrypt_blind avoids cipher).bind fun key => .pure _
    · split
      · exact (remark_blind _).bind fun _ => .pure _
      · exact .throw _
    · cases result <;> exact .pure _
  · split
    · exact (remark_blind _).bind fun _ => .pure _
    · exact .pure _

/-- Loading the file gives the same and leaves the difference alone. -/
theorem loadFile_blind : Blind (Shelf.Twins x) (ofSite site).loadFile := by
  unfold loadFile
  refine (read_blind avoids).bind fun fields => ?_
  split
  · exact .pure _
  · refine (apiKey_blind avoids _ _).bind fun (key, plaintext) => ?_
    dsimp only
    split
    · exact (migrate_blind avoids _).bind fun _ => .pure _
    · exact .pure _

end Settings.Store

end ActionEngine
