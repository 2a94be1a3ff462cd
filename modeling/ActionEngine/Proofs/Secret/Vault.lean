import ActionEngine.Proofs.Disk.Faults
import ActionEngine.Proofs.Steps
import ActionEngine.Secret.Vault

/-!
# The vault at work

The vault does not look at the log. Once its key is known, it encrypts every text, and it
knows its key whenever it has decrypted a secret that was not empty.
-/

namespace ActionEngine

open Steps

def Value.isText : Value → Bool
  | text _ => true
  | _ => false

theorem Value.isText_iff {v : Value} : v.isText ↔ ∃ s, v = .text s := by
  cases v <;> simp [isText]

namespace Keeping

/-! ### Basic steps -/

theorem run_look {α : Type} (f : Disk → Except Fault α) (t : Shelf) :
    (look f).run t = (f t.disk, t) :=
  run_lift (f t.disk) t

theorem run_alter (f : Disk → Except Fault Disk) (t : Shelf) :
    (alter f).run t = match f t.disk with
      | .ok disk => (.ok (), { t with disk })
      | .error fault => (.error fault, t) := by
  change ((liftM (f t.disk) : Keeping Disk) >>= fun disk =>
    modify fun s => { s with disk }).run t = _
  rw [run_bind]
  cases f t.disk <;> rfl

theorem run_remark (log : Log) (t : Shelf) :
    (remark log).run t = (.ok (), { t with log := t.log ++ log }) := rfl

/-- A change of the disk fails only as the operation on the disk does. -/
theorem alter_fails {P : Fault → Prop} {f : Disk → Except Fault Disk}
    (h : ∀ d fault, f d = .error fault → P fault) (t : Shelf) : FailsAt P (alter f) t := by
  intro fault t' ran
  rw [run_alter] at ran
  split at ran
  · cases ran
  · next other failed =>
    cases ran
    exact h t.disk _ failed

theorem look_fails {α : Type} {P : Fault → Prop} {f : Disk → Except Fault α}
    (h : ∀ d fault, f d = .error fault → P fault) (t : Shelf) : FailsAt P (look f) t := by
  intro fault t' ran
  rw [run_look] at ran
  exact h t.disk fault (Prod.ext_iff.1 ran).1

/-! ### Steps that do not look at the log -/

/-- The step does the same whatever the log is, and leaves the log alone. -/
def Logless {α : Type} (step : Keeping α) : Prop :=
  ∀ t log, step.run { t with log } = ((step.run t).1, { (step.run t).2 with log })

namespace Logless

variable {α β : Type} {step : Keeping α} {next : α → Keeping β}

theorem failsAt {P : Fault → Prop} (h : Logless step) {t : Shelf} (fails : FailsAt P step t)
    (log : Log) : FailsAt P step { t with log } := by
  intro fault u failed
  rw [h t log] at failed
  apply fails fault (step.run t).2
  exact Prod.ext (Prod.ext_iff.1 failed).1 rfl

theorem bind (first : Logless step) (later : ∀ a, Logless (next a)) :
    Logless (step >>= next) := by
  intro t log
  rw [run_bind, run_bind, first t log]
  rcases step.run t with ⟨_ | a, u⟩
  · rfl
  · exact later a u log

theorem pure (a : α) : Logless (Pure.pure a) :=
  fun _ _ => rfl

theorem throw (fault : Fault) : Logless (throw fault : Keeping α) :=
  fun _ _ => rfl

theorem lift (result : Except Fault α) : Logless (liftM result : Keeping α) := by
  intro t log
  rw [run_lift, run_lift]

theorem reads {next : Shelf → Keeping α} (blind : ∀ t log, next { t with log } = next t)
    (later : ∀ t, Logless (next t)) : Logless ((get : Keeping Shelf) >>= next) := by
  intro t log
  rw [run_get_bind, run_get_bind, blind]
  exact later t t log

theorem look (f : Disk → Except Fault α) : Logless (look f) := by
  intro t log
  rw [run_look, run_look]

theorem alter (f : Disk → Except Fault Disk) : Logless (alter f) := by
  intro t log
  rw [run_alter, run_alter]
  dsimp only
  split <;> rfl

theorem draw : Logless draw :=
  fun _ _ => rfl

end Logless

end Keeping

namespace Vault

open Keeping

theorem replaceFile_logless (path : Path) (content : List UInt8) :
    Logless (replaceFile path content) := by
  unfold replaceFile
  refine (Logless.lift _).bind fun draft => ?_
  refine (Logless.alter _).bind fun _ => ?_
  exact .alter _

theorem keyText_logless (keyPath : Path) : Logless (keyText keyPath) := by
  unfold keyText
  refine (Logless.alter _).bind fun _ => ?_
  refine (Logless.look _).bind fun present => ?_
  split
  · exact (Logless.look _).bind fun bytes => .pure _
  · refine Logless.draw.bind fun bytes => ?_
    exact (replaceFile_logless _ _).bind fun _ => .pure _

theorem unlock_logless (keyPath : Path) : Logless (unlock keyPath) := by
  unfold unlock
  refine Logless.reads (fun _ _ => rfl) fun t => ?_
  split
  · exact .pure _
  · refine (keyText_logless keyPath).bind fun text => ?_
    split
    · exact fun _ _ => rfl
    · exact .throw _

theorem encrypt_logless (keyPath : Path) (secret : Value) : Logless (encrypt keyPath secret) := by
  unfold encrypt
  split
  · exact .pure _
  · refine (unlock_logless keyPath).bind fun key => ?_
    split
    · refine (Logless.lift _).bind fun bytes => ?_
      refine Logless.reads (fun _ _ => rfl) fun t => ?_
      exact Logless.draw.bind fun start => .pure _
    · exact .throw _

theorem replaceFile_fails {path : Path} (named : path.name ≠ "") (clean : path.IsClean)
    (content : List UInt8) (t : Shelf) :
    FailsAt (·.isFileFault) (replaceFile path content) t := by
  unfold replaceFile
  cases beside : path.withSuffix ".tmp" with
  | error fault =>
      unfold Path.withSuffix at beside
      rw [if_neg (by simpa using named)] at beside
      cases beside
  | ok draft =>
      have apart : draft.IsClean := clean.withSuffix (by decide) beside
      apply FailsAt.bind
      · exact .of_ok rfl
      · intro draft' u same
        cases same
        apply FailsAt.bind
        · exact alter_fails (fun _ => Disk.write_fails apart content) _
        · exact fun _ u _ => alter_fails (fun _ => Disk.move_fails apart clean) u

/-! ### Faults of the vault -/

theorem replaceFile_ordinary (path : Path) (content : List UInt8) (t : Shelf) :
    FailsAt (·.isOrdinary) (replaceFile path content) t := by
  unfold replaceFile
  apply FailsAt.bind
  · cases beside : path.withSuffix ".tmp" with
    | error fault =>
        intro other u same
        cases same
        unfold Path.withSuffix at beside
        split at beside <;> cases beside
        rfl
    | ok draft => exact .of_ok rfl
  · intro draft u _
    apply (alter_fails (Disk.write_ordinary · draft content) u).bind
    exact fun _ v _ => alter_fails (Disk.move_ordinary · draft path) v

theorem unlock_ordinary (keyPath : Path) (t : Shelf) :
    FailsAt (·.isOrdinary) (unlock keyPath) t := by
  have text (u : Shelf) : FailsAt (·.isOrdinary) (keyText keyPath) u := by
    unfold keyText
    apply (alter_fails (Disk.ensureDirectory_ordinary · keyPath.parent) u).bind
    intro _ v _
    apply (look_fails (Disk.has_ordinary · keyPath) v).bind
    intro present w _
    split
    · apply (look_fails (Disk.read_ordinary · keyPath) w).bind
      exact fun _ _ _ => .of_ok rfl
    · apply FailsAt.bind
      · exact .of_ok rfl
      · intro bytes x _
        apply (replaceFile_ordinary keyPath _ x).bind
        exact fun _ _ _ => .of_ok rfl
  unfold unlock
  apply FailsAt.bind
  · exact .of_ok rfl
  · intro u v _
    split
    · exact .of_ok rfl
    · apply (text v).bind
      intro s w _
      split
      · exact .of_ok rfl
      · intro fault x same
        cases same
        rfl

theorem utf8_ordinary (s : LooseText) (t : Shelf) :
    FailsAt (·.isOrdinary) (liftM s.utf8 : Keeping (List UInt8)) t := by
  intro fault u same
  rw [run_lift] at same
  cases s with
  | whole s => cases same
  | broken front h rest =>
      cases same
      rfl

theorem ascii_ordinary (token : List Text.Code) (t : Shelf) :
    FailsAt (·.isOrdinary) (liftM (Text.ascii token) : Keeping (List Char)) t := by
  intro fault u same
  rw [run_lift, Text.ascii] at same
  cases read : token.mapM Text.Code.ascii? with
  | some characters =>
      rw [read] at same
      cases same
  | none =>
      rw [read] at same
      cases same
      rfl

/-- Encrypting a text fails only because of the key, or because the text has no bytes. -/
theorem encrypt_ordinary (keyPath : Path) (s : LooseText) (t : Shelf) :
    FailsAt (·.isOrdinary) (encrypt keyPath (.text s)) t := by
  unfold encrypt
  split
  · exact .of_ok rfl
  · apply (unlock_ordinary keyPath t).bind
    intro key u _
    apply (utf8_ordinary s u).bind
    exact fun _ _ _ => .of_ok rfl

/-- Decrypting a text fails only because of the key, or because the text is refused. -/
theorem decrypt_ordinary (keyPath : Path) (s : LooseText) (t : Shelf) :
    FailsAt (·.isOrdinary) (decrypt keyPath (.text s)) t := by
  have thrown (fault : Fault) (h : fault.isOrdinary) (u : Shelf) :
      FailsAt (·.isOrdinary) (throw fault : Keeping String) u := by
    intro other v same
    cases same
    exact h
  unfold decrypt
  split
  · exact .of_ok rfl
  · dsimp only
    split
    · exact thrown _ rfl t
    · apply (unlock_ordinary keyPath t).bind
      intro key u _
      apply (ascii_ordinary _ u).bind
      intro characters v _
      split
      · exact .of_ok rfl
      · exact thrown _ rfl v
      · exact thrown _ rfl v

theorem decrypt_absent {keyPath : Path} {secret : Value} (absent : secret.isPresent = false)
    {t : Shelf} : (decrypt keyPath secret).run t = (.ok "", t) := by
  unfold decrypt
  rw [absent]
  rfl

/-- What is no text cannot be decrypted, and this is no refusal of a value. -/
theorem decrypt_other (keyPath : Path) {secret : Value} (present : secret.isPresent)
    (other : secret.isText = false) (t : Shelf) :
    ∃ fault, (decrypt keyPath secret).run t = (.error fault, t) ∧ fault.isOrdinary = false := by
  unfold decrypt
  rw [present]
  cases secret with
  | text s => cases other
  | bytes bs => exact ⟨_, rfl, rfl⟩
  | _ => exact ⟨_, rfl, rfl⟩

/-- What is no text cannot be encrypted once the vault has its key. -/
theorem encrypt_other {keyPath : Path} {secret : Value} (present : secret.isPresent)
    (other : secret.isText = false) {t u : Shelf} {key : Fernet.Key}
    (unlocked : (unlock keyPath).run t = (.ok key, u)) :
    ∃ fault, (encrypt keyPath secret).run t = (.error fault, u) ∧ fault.isOrdinary = false := by
  unfold encrypt
  rw [present, if_neg (by decide), run_bind_of_ok unlocked]
  cases secret with
  | text s => cases other
  | _ => exact ⟨_, rfl, rfl⟩

/-- A text that cannot be encoded is refused, too, and this is a refusal of a value. -/
theorem encrypt_unencodable {keyPath : Path} {s : LooseText} {fault : Fault}
    (refused : s.utf8 = .error fault) {t u : Shelf} {key : Fernet.Key}
    (unlocked : (unlock keyPath).run t = (.ok key, u)) :
    (encrypt keyPath (.text s)).run t = (.error fault, u) ∧ fault.isFileFault = false := by
  cases s with
  | whole s => cases refused
  | broken front h rest =>
      cases refused
      unfold encrypt
      rw [if_neg (by simp [Value.isPresent]), run_bind_of_ok unlocked]
      exact ⟨rfl, rfl⟩

theorem encrypt_of_locked {keyPath : Path} {secret : Value} (present : secret.isPresent)
    {t u : Shelf} {fault : Fault} (locked : (unlock keyPath).run t = (.error fault, u)) :
    (encrypt keyPath secret).run t = (.error fault, u) := by
  unfold encrypt
  rw [present, if_neg (by decide)]
  exact run_bind_of_error locked

/-! ### The key -/

variable {keyPath : Path} {t u : Shelf}

theorem unlock_known {key : Fernet.Key} (known : t.key = some key) :
    (unlock keyPath).run t = (.ok key, t) := by
  unfold unlock
  rw [run_get_bind, known]
  rfl

theorem key_of_unlock {key : Fernet.Key} (h : (unlock keyPath).run t = (.ok key, u)) :
    u.key = some key := by
  unfold unlock at h
  rw [run_get_bind] at h
  split at h
  · next known =>
    cases h
    exact known
  · obtain ⟨text, v, -, h⟩ := run_bind_ok h
    split at h
    · cases h
      rfl
    · cases h

theorem encrypt_of_key (keyPath : Path) {key : Fernet.Key} (known : t.key = some key) (s : String) :
    ∃ token v, (encrypt keyPath (.text s)).run t = (.ok token, v) := by
  unfold encrypt
  split
  · exact ⟨_, _, rfl⟩
  · rw [run_bind_of_ok (unlock_known known)]
    exact ⟨_, _, rfl⟩

/-- Only a text that can be encoded is encrypted. -/
theorem encodable_of_encrypt {s : LooseText} {token : String}
    (h : (encrypt keyPath (.text s)).run t = (.ok token, u)) : ∃ bytes, s.utf8 = .ok bytes := by
  cases s with
  | whole s => exact ⟨_, rfl⟩
  | broken front half rest =>
      unfold encrypt at h
      rw [if_neg (by simp [Value.isPresent])] at h
      obtain ⟨key, v, -, h⟩ := run_bind_ok h
      obtain ⟨bytes, w, encoded, -⟩ := run_bind_ok h
      cases encoded

theorem key_of_decrypt {secret : Value} {s : String} (present : secret.isPresent)
    (h : (decrypt keyPath secret).run t = (.ok s, u)) : ∃ key, u.key = some key := by
  unfold decrypt at h
  rw [present] at h
  split at h
  · contradiction
  · split at h
    · dsimp only at h
      split at h
      · cases h
      · obtain ⟨key, v, unlocked, h⟩ := run_bind_ok h
        have known := key_of_unlock unlocked
        -- Nothing behind the key touches the shelf.
        obtain ⟨characters, w, read, h⟩ := run_bind_ok h
        rw [run_lift] at read
        obtain ⟨-, rfl⟩ := Prod.mk.inj read
        split at h
        · cases h
          exact ⟨key, known⟩
        · cases h
        · cases h
    · cases h
    · cases h

end Vault

end ActionEngine
