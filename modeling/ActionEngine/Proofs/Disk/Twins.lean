import ActionEngine.Proofs.Disk.Files
import ActionEngine.Proofs.Steps

/-!
# Disks that differ in one file

Two disks that differ in nothing but what one file holds cannot be told apart by an operation
that does not read this file. If the file is moved, they differ where it has gone.
-/

namespace ActionEngine.Disk

open Steps

variable {d d' : Disk} {place here there : Place} {p : Path}

/-- What two disks with the same working directory differ in: the content of one file. -/
structure Difference where
  work : Place
  pin : Place
  content : List UInt8
  content' : List UInt8

/-- The disks differ at one place at most, and there by a file whose content is one or the
    other. -/
structure Twins (x : Difference) (d d' : Disk) : Prop where
  work : d.work = x.work
  work' : d'.work = x.work
  same : ∀ place, place ≠ x.pin → d'.node? place = d.node? place
  pinned : d'.node? x.pin = d.node? x.pin ∨
    d.node? x.pin = some (.file x.content) ∧ d'.node? x.pin = some (.file x.content')

namespace Twins

variable {x : Difference} {other : Place}

theorem of_same (work : d.work = x.work) (work' : d'.work = x.work)
    (same : ∀ place, d'.node? place = d.node? place) : Twins x d d' :=
  ⟨work, work', fun place _ => same place, .inl (same _)⟩

/-- If both contents are the same, there is no difference. -/
theorem node?_eq (twins : Twins x d d') (none : x.content' = x.content) (place : Place) :
    d'.node? place = d.node? place := by
  by_cases here : place = x.pin
  · rcases twins.pinned with same | ⟨file, file'⟩
    · rw [here, same]
    · rw [here, file, file', none]
  · exact twins.same place here

/-- At any place there is the same, or there are the two files. -/
theorem alike (twins : Twins x d d') (place : Place) :
    d'.node? place = d.node? place ∨ place = x.pin ∧
      d.node? place = some (.file x.content) ∧ d'.node? place = some (.file x.content') := by
  by_cases here : place = x.pin
  · subst here
    exact twins.pinned.imp_right fun files => ⟨rfl, files⟩
  · exact .inl (twins.same place here)

theorem isSome (twins : Twins x d d') (place : Place) :
    (d'.node? place).isSome = (d.node? place).isSome := by
  rcases twins.alike place with same | ⟨-, file, file'⟩
  · rw [same]
  · rw [file, file']
    rfl

theorem directory_iff (twins : Twins x d d') :
    d'.node? place = some .directory ↔ d.node? place = some .directory := by
  rcases twins.alike place with same | ⟨-, file, file'⟩
  · rw [same]
  · simp [file, file']

theorem follow (twins : Twins x d d') (here : Place) (names : List String) :
    d'.follow here names = d.follow here names := by
  induction names generalizing here with
  | nil => rfl
  | cons name names ih =>
      rw [Disk.follow, Disk.follow]
      rcases twins.alike here with same | ⟨-, file, file'⟩
      · rw [same, ih]
      · rw [file, file']

theorem locate (twins : Twins x d d') (p : Path) :
    d'.locate p = d.locate p := by
  unfold Disk.locate
  rw [twins.work, twins.work', twins.follow]

theorem has (twins : Twins x d d') (p : Path) : d'.has p = d.has p := by
  unfold Disk.has
  rw [twins.locate]
  split
  · rw [twins.isSome]
  · rfl
  · rfl

theorem hasDirectory (twins : Twins x d d') (p : Path) :
    d'.hasDirectory p = d.hasDirectory p := by
  unfold Disk.hasDirectory
  rw [twins.locate]
  split
  · rw [decide_eq_decide]
    exact twins.directory_iff
  · rfl

theorem directoryAt (twins : Twins x d d') (there : d.DirectoryAt p place) :
    d'.DirectoryAt p place where
  located := (twins.locate p).trans there.located
  directory := twins.directory_iff.2 there.directory

theorem not_located (twins : Twins x d d') (apart : destination x.work p ≠ x.pin) :
    d.locate p ≠ .ok x.pin :=
  fun located => apart (twins.work ▸ (eq_destination located).symm)

theorem read (twins : Twins x d d') (apart : d.locate p ≠ .ok x.pin) : d'.read p = d.read p := by
  unfold Disk.read
  rw [twins.locate]
  split
  · rfl
  · next place located =>
    rw [twins.same place fun here => apart (here ▸ located)]

theorem readText (twins : Twins x d d') (apart : d.locate p ≠ .ok x.pin) :
    d'.readText p = d.readText p := by
  unfold Disk.readText
  rw [twins.read apart]

/-! ### Changes -/

theorem put (twins : Twins x d d') (filled : place ≠ []) (node : Node) :
    Twins x (d.put place node) (d'.put place node) where
  work := twins.work
  work' := twins.work'
  same other away := by rw [node?_put filled, node?_put filled, twins.same other away]
  pinned := by
    rw [node?_put filled, node?_put filled]
    split
    · exact .inl rfl
    · exact twins.pinned

theorem drop (twins : Twins x d d') (filled : place ≠ []) :
    Twins x (d.drop place) (d'.drop place) where
  work := twins.work
  work' := twins.work'
  same other away := by rw [node?_drop filled, node?_drop filled, twins.same other away]
  pinned := by
    rw [node?_drop filled, node?_drop filled]
    split
    · exact .inl rfl
    · exact twins.pinned

/-- The file that makes the difference goes to another place. -/
theorem moved (twins : Twins x d d') (filled : x.pin ≠ [])
    (filled' : other ≠ []) :
    Twins { x with pin := other } ((d.drop x.pin).put other (.file x.content))
      ((d'.drop x.pin).put other (.file x.content')) where
  work := twins.work
  work' := twins.work'
  same place away := by
    rw [node?_put filled', node?_put filled', if_neg away, if_neg away, node?_drop filled,
      node?_drop filled]
    split
    · rfl
    · next away' => exact twins.same place away'
  pinned := by
    rw [node?_put filled', node?_put filled', if_pos rfl, if_pos rfl]
    exact .inr ⟨rfl, rfl⟩

theorem makeDirectory (twins : Twins x d d') (p : Path) :
    Matches (Twins x) (d.makeDirectory p) (d'.makeDirectory p) := by
  unfold Disk.makeDirectory
  rw [twins.locate]
  cases d.locate p with
  | error reason => exact .error reason
  | ok place =>
      change Matches _ (if (d.node? place).isSome then _ else _)
        (if (d'.node? place).isSome then _ else _)
      rw [twins.isSome]
      split
      · exact .error _
      · next free =>
        refine .ok (twins.put ?_ _)
        rintro rfl
        exact free rfl

theorem ensureDirectory (twins : Twins x d d') (p : Path) :
    Matches (Twins x) (d.ensureDirectory p) (d'.ensureDirectory p) := by
  have kept (fault : Fault) (q : Path) {e e' : Disk} (twins : Twins x e e') :
      Matches (Twins x) (if e.hasDirectory q then .ok e else .error fault)
        (if e'.hasDirectory q then .ok e' else .error fault) := by
    rw [twins.hasDirectory]
    split
    · exact .ok twins
    · exact .error fault
  have reversed (names : List String) {e e' : Disk} (twins : Twins x e e') :
      Matches (Twins x) (ensureReversed p.slashes e names)
        (ensureReversed p.slashes e' names) := by
    induction names generalizing e e' with
    | nil => exact kept _ _ twins
    | cons name above ih =>
        unfold ensureReversed
        dsimp only
        generalize made : e.makeDirectory _ = result, made' : e'.makeDirectory _ = result'
        have matching := twins.makeDirectory
          { slashes := p.slashes, parts := (name :: above).reverse }
        rw [made, made'] at matching
        cases matching with
        | ok twins => exact .ok twins
        | error reason =>
            cases reason with
            | missing =>
                refine (ih twins).bind fun f f' twins => ?_
                generalize made : f.makeDirectory _ = result, made' : f'.makeDirectory _ = result'
                have matching :=
                  twins.makeDirectory { slashes := p.slashes, parts := (name :: above).reverse }
                rw [made, made'] at matching
                cases matching with
                | ok twins => exact .ok twins
                | error reason => exact kept _ _ twins
            | _ => exact kept _ _ twins
  exact reversed _ twins

theorem write (twins : Twins x d d') (p : Path) (bytes : List UInt8) :
    Matches (Twins x) (d.write p bytes) (d'.write p bytes) := by
  unfold Disk.write
  rw [twins.locate]
  cases d.locate p with
  | error reason => exact .error _
  | ok place =>
      dsimp only
      split
      · next directory =>
        rw [twins.directory_iff.2 directory]
        exact .error _
      · next free =>
        have filled : place ≠ [] := by
          rintro rfl
          exact free rfl
        split
        · next directory => exact absurd (twins.directory_iff.1 directory) free
        · exact .ok (twins.put filled _)

theorem moveNode (twins : Twins x d d') (filled : here ≠ []) (both : List Path) :
    Matches (fun e e' => Twins x e e' ∨ here = x.pin ∧
        Twins { x with pin := there } e e')
      (d.moveNode here there both) (d'.moveNode here there both) := by
  by_cases directory : d.node? there = some .directory
  · have directory' := twins.directory_iff.2 directory
    unfold Disk.moveNode
    rw [directory, directory']
    rcases twins.alike here with same | ⟨-, file, file'⟩
    · rw [same]
      cases d.node? here <;> exact .error _
    · rw [file, file']
      exact .error _
  · have directory' := mt twins.directory_iff.1 directory
    have filled' : there ≠ [] := by
      rintro rfl
      exact directory rfl
    rcases twins.alike here with same | ⟨rfl, file, file'⟩
    · cases found : d.node? here with
      | none =>
          unfold Disk.moveNode
          rw [same, found]
          exact .error _
      | some node =>
          rw [moveNode_of_file found directory, moveNode_of_file (same.trans found) directory']
          refine .ok (.inl ?_)
          split
          · exact twins
          · exact (twins.drop filled).put filled' node
    · rw [moveNode_of_file file directory, moveNode_of_file file' directory']
      refine .ok ?_
      split
      · exact .inl twins
      · exact .inr ⟨rfl, twins.moved filled filled'⟩

/-- A move takes the difference along, if it takes the file that makes it. -/
theorem move (twins : Twins x d d') (source target : Path)
    (filled : destination x.work source ≠ []) :
    Matches (fun e e' => Twins x e e' ∨ destination x.work source = x.pin ∧
        Twins { x with pin := destination x.work target } e e')
      (d.move source target) (d'.move source target) := by
  cases located : d.locate source with
  | error reason =>
      rw [move_of_unlocated located, move_of_unlocated ((twins.locate source).trans located)]
      exact .error _
  | ok here =>
      obtain rfl := eq_destination located
      cases located' : d.locate target with
      | error reason =>
          rw [move_to_unlocated located located', move_to_unlocated
            ((twins.locate source).trans located) ((twins.locate target).trans located')]
          exact .error _
      | ok there =>
          obtain rfl := eq_destination located'
          rw [move_of_located located located', move_of_located
            ((twins.locate source).trans located) ((twins.locate target).trans located')]
          rw [twins.work]
          exact twins.moveNode filled _

end Twins

end ActionEngine.Disk
