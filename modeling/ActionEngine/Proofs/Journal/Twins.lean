import ActionEngine.Journal.Basic
import ActionEngine.Proofs.Disk.Twins

/-!
# The journal beside a file that it does not read

The journal reads no file but the one it writes. On two disks that differ in another file it
does and shows the same, and they still differ in that file only. If the file bears the name of
a backup, rotating the journal may move it to the next one.
-/

namespace ActionEngine.Journal

open Disk Steps

/-! ### Where the journal's files stand -/

/-- The names of the journal's files: the one that is written, and the backups. -/
def fileName : Nat → String
  | 0 => "inkwell.log"
  | n + 1 => "inkwell.log" ++ "." ++ toString (n + 1)

def rooted (work : Place) (dir : Path) : Path := { slashes := 1, parts := destination work dir }

/-- Where the journal's files stand if its directory is that of a path. -/
def filePlace (work : Place) (dir : Path) (n : Nat) : Place :=
  destination work (rooted work dir) ++ [fileName n]

/-- The file is the one of a journal whose directory is that of a path. -/
def File.IsIn (f : File) (work : Place) (dir : Path) : Prop :=
  f.path = (rooted work dir).child "inkwell.log"

theorem toList_fileName (n : Nat) : (fileName (n + 1)).toList =
    "inkwell.log.".toList ++ Nat.toDigits 10 (n + 1) := by
  simp [fileName, Nat.repr]

theorem fileName_ne_above (n : Nat) : fileName n ≠ ".." := by
  cases n with
  | zero => decide
  | succ n =>
      intro same
      have first := congrArg (·.toList.head?) same
      simp [toList_fileName] at first

theorem filePlace_succ_ne (work : Place) (dir : Path) (n : Nat) :
    filePlace work dir (n + 1) ≠ filePlace work dir 0 := by
  intro same
  have names : fileName (n + 1) = fileName 0 := by simpa [filePlace] using same
  have sizes := congrArg (·.toList.length) names
  rw [toList_fileName, List.length_append] at sizes
  change 12 + _ = 11 at sizes
  omega

/-- The names of the journal's files end in `g` or in a digit. -/
theorem fileName_ne (n : Nat) {name : String} {c : Char} (last : name.toList.getLast? = some c)
    (letter : c.isDigit = false) (other : c ≠ 'g') : fileName n ≠ name := by
  intro same
  have ends : (fileName n).toList.getLast? = some c := by
    rw [same, last]
  cases n with
  | zero => exact other (Option.some.inj ends).symm
  | succ n =>
      rw [toList_fileName, List.getLast?_append] at ends
      have filled : Nat.toDigits 10 (n + 1) ≠ [] := by simp
      rw [List.getLast?_eq_some_getLast filled, Option.some_or] at ends
      have digit := Nat.isDigit_of_mem_toDigits (b := 10) (by decide) (by decide)
        (List.getLast_mem filled)
      rw [Option.some.inj ends, letter] at digit
      cases digit

theorem numbered_eq {f : File} {work : Place} {dir : Path} (inside : f.IsIn work dir) (n : Nat) :
    f.numbered n = (rooted work dir).child (fileName n) := by
  cases n with
  | zero => exact inside
  | succ n =>
      have named : f.path.name = "inkwell.log" := by
        rw [inside]
        simp [Path.name, Path.child]
      rw [File.numbered, named, inside, Path.parent_child]
      rfl

theorem destination_numbered {f : File} {work : Place} {dir : Path} (inside : f.IsIn work dir)
    (n : Nat) : destination work (f.numbered n) = filePlace work dir n := by
  rw [numbered_eq inside, destination_child _ _ (fileName_ne_above n)]
  rfl

/-! ### Two disks -/

/-- Two disks that differ in one file. It stands where it stood at first, or it is a backup of
    the journal. What else was on the first disk at the beginning is there still, but for the
    journal's files. -/
structure Parted (dir : Path) (x : Difference) (base d d' : Disk) : Prop where
  spares : Spares (fun place => ∃ n, place = filePlace x.work dir n) base d
  twins : ∃ pin, (pin = x.pin ∨ ∃ n, pin = filePlace x.work dir (n + 1)) ∧
    Twins { x with pin } d d'

variable {dir : Path} {x : Difference} {base d d' : Disk} {f : File}

namespace Parted

theorem of_twins (twins : Twins x d d') : Parted dir x d d d' :=
  ⟨.refl _ _, x.pin, .inl rfl, twins⟩

variable (apart : x.pin ≠ filePlace x.work dir 0) (inside : f.IsIn x.work dir)

include inside

theorem write (parted : Parted dir x base d d') (bytes : List UInt8) :
    Matches (Parted dir x base) (d.write f.path bytes) (d'.write f.path bytes) := by
  obtain ⟨spares, pin, held, twins⟩ := parted
  have here : ∃ n, destination d.work f.path = filePlace x.work dir n :=
    ⟨0, twins.work ▸ destination_numbered inside 0⟩
  exact ((twins.write f.path bytes).and fun e written => spares.trans (.write here written)).imp
    fun e e' ⟨spares, twins⟩ => ⟨spares, pin, held, twins⟩

theorem move (parted : Parted dir x base d d') (n : Nat) :
    Matches (Parted dir x base) (d.move (f.numbered n) (f.numbered (n + 1)))
      (d'.move (f.numbered n) (f.numbered (n + 1))) := by
  obtain ⟨spares, pin, held, twins⟩ := parted
  have place (n : Nat) : destination d.work (f.numbered n) = filePlace x.work dir n :=
    twins.work ▸ destination_numbered inside n
  have filled : destination x.work (f.numbered n) ≠ [] := by
    rw [destination_numbered inside]
    simp [filePlace]
  refine ((twins.move _ _ filled).and fun e moved => spares.trans
    (.move (twins.work ▸ filled) ⟨n, place n⟩ ⟨n + 1, place (n + 1)⟩ moved)).imp ?_
  rintro e e' ⟨spares, twins | ⟨-, twins⟩⟩
  · exact ⟨spares, pin, held, twins⟩
  · exact ⟨spares, _, .inr ⟨n, destination_numbered inside (n + 1)⟩, twins⟩

theorem shift (parted : Parted dir x base d d') (n : Nat) :
    Parted dir x base (f.shift d n) (f.shift d' n) := by
  induction n generalizing d d' with
  | zero => exact (parted.move inside 0).getD parted
  | succ n ih => exact ih ((parted.move inside (n + 1)).getD parted)

include apart

theorem content (parted : Parted dir x base d d') : f.content d' = f.content d := by
  obtain ⟨-, pin, held, twins⟩ := parted
  have other : destination x.work f.path ≠ pin := by
    rw [show destination x.work f.path = filePlace x.work dir 0 from destination_numbered inside 0]
    rcases held with rfl | ⟨n, rfl⟩
    · exact apart.symm
    · exact (filePlace_succ_ne x.work dir n).symm
  unfold File.content
  rw [twins.read (twins.not_located other)]

theorem begin (parted : Parted dir x base d d') :
    Matches (Parted dir x base) (f.begin d) (f.begin d') := by
  unfold File.begin
  rw [parted.content apart inside]
  exact parted.write inside _

theorem rotate (parted : Parted dir x base d d') :
    Parted dir x base (f.rotate d) (f.rotate d') := by
  unfold File.rotate
  split
  · exact parted
  · next n _ =>
    have shifted := parted.shift inside n
    exact (shifted.begin apart inside).getD shifted

theorem add (parted : Parted dir x base d d') (line : String) :
    Parted dir x base (f.add d line) (f.add d' line) := by
  have full : f.isFull d' line = f.isFull d line := by
    unfold File.isFull
    rw [parted.content apart inside]
  have rotated : Parted dir x base (if f.isFull d line then f.rotate d else d)
      (if f.isFull d' line then f.rotate d' else d') := by
    rw [full]
    split
    · exact parted.rotate apart inside
    · exact parted
  unfold File.add
  dsimp only
  generalize (if f.isFull d line then f.rotate d else d) = e,
    (if f.isFull d' line then f.rotate d' else d') = e' at rotated
  rw [rotated.content apart inside]
  exact (rotated.write inside _).getD rotated

end Parted

/-! ### Setting up and taking records -/

/-- If the journal has a file, its directory is that of a path. -/
def IsIn (j : Journal) (work : Place) (dir : Path) : Prop :=
  ∀ f, j.file = some f → f.IsIn work dir

variable {j : Journal}

theorem Parted.take (apart : x.pin ≠ filePlace x.work dir 0) (inside : j.IsIn x.work dir)
    (parted : Parted dir x base d d') (stamp : String) (level : Int) (logger message : String) :
    Parted dir x base (j.take stamp d level logger message).1
      (j.take stamp d' level logger message).1 ∧
    (j.take stamp d' level logger message).2 = (j.take stamp d level logger message).2 := by
  unfold Journal.take
  split
  · exact ⟨parted, rfl⟩
  · dsimp only
    cases file : j.file with
    | none => cases j.console <;> exact ⟨parted, rfl⟩
    | some f =>
        refine ⟨?_, rfl⟩
        dsimp only
        split
        · exact parted.add apart (inside f file) _
        · exact parted

theorem Parted.takeAll (apart : x.pin ≠ filePlace x.work dir 0) (inside : j.IsIn x.work dir)
    (parted : Parted dir x base d d') (stamp : String) (log : Log) :
    Parted dir x base (j.takeAll stamp d log).1 (j.takeAll stamp d' log).1 ∧
    (j.takeAll stamp d' log).2 = (j.takeAll stamp d log).2 := by
  unfold Journal.takeAll
  generalize "" = shown
  induction log generalizing d d' shown with
  | nil => exact ⟨parted, rfl⟩
  | cons r log ih =>
      obtain ⟨parted, same⟩ := parted.take apart inside stamp r.level.number r.logger r.message
      rw [List.foldl_cons, List.foldl_cons]
      dsimp only
      rw [same]
      exact ih parted _

theorem fromRoot_child {p : Path} (found : fromRoot d (dir.child "inkwell.log") = .ok p) :
    p = (rooted d.work dir).child "inkwell.log" := by
  unfold fromRoot at found
  split at found
  · next place located =>
    cases found
    rw [eq_destination located, destination_child _ _ (by decide)]
    rfl
  · cases found

/-- Environments that give the same level and the same directory set the journal up in the same
    way. -/
theorem Parted.setup (apart : x.pin ≠ filePlace x.work dir 0) (inside : j.IsIn x.work dir)
    (parted : Parted dir x base d d') {e e' : Environment} {o : Options}
    (found : directory e o.directory = .ok dir) (found' : directory e' o.directory = .ok dir)
    (level : levelFor e' o.level = levelFor e o.level) :
    Matches (fun r r' => r'.1 = r.1 ∧ r.1.IsIn x.work dir ∧ Parted dir x base r.2 r'.2)
      (j.setup e d o) (j.setup e' d' o) := by
  unfold Journal.setup
  rw [found, found', level]
  split
  · exact .ok ⟨rfl, inside, parted⟩
  · dsimp only
    have ensured : Matches (Parted dir x base) (d.ensureDirectory dir)
        (d'.ensureDirectory dir) := by
      obtain ⟨spares, pin, held, twins⟩ := parted
      exact ((twins.ensureDirectory dir).and fun e made => spares.trans (.ensureDirectory made)).imp
        fun e e' ⟨spares, twins⟩ => ⟨spares, pin, held, twins⟩
    refine ensured.bind fun d d' parted => ?_
    have rooted : fromRoot d' (dir.child "inkwell.log") = fromRoot d (dir.child "inkwell.log") := by
      obtain ⟨-, pin, -, twins⟩ := parted
      unfold fromRoot
      rw [twins.locate]
    rw [rooted]
    cases root : fromRoot d (dir.child "inkwell.log") with
    | error fault => exact .error fault
    | ok p =>
        have inside : File.IsIn { path := p, level := levelFor e o.level, maxBytes := o.maxBytes
                                  backups := o.backups } x.work dir := by
          obtain ⟨-, pin, -, twins⟩ := parted
          exact (fromRoot_child root).trans (by rw [twins.work])
        refine (parted.begin apart inside).bind fun d d' parted => .ok ⟨rfl, ?_, parted⟩
        rintro f ⟨⟩
        exact inside

end ActionEngine.Journal
