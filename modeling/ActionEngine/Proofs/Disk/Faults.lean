import ActionEngine.Disk.Tree

/-!
# Faults of the disk

An operation on the disk fails with a fault of the file system, unless a name on the path
holds a zero byte. Nothing is ever found under such a path, and a path next to one that
something was found under has no zero byte either.
-/

namespace ActionEngine

/-- A fault of the file system, or a value or text that was refused. -/
def Fault.isOrdinary (fault : Fault) : Bool :=
  fault.isFileFault || fault.isValueFault

theorem Fault.not_file {fault : Fault} (h : fault.isOrdinary = false) :
    fault.isFileFault = false := (Bool.or_eq_false_iff.1 h).1

theorem Fault.not_value {fault : Fault} (h : fault.isOrdinary = false) :
    fault.isValueFault = false := (Bool.or_eq_false_iff.1 h).2

/-- No name on the path holds a zero byte. -/
def Path.IsClean (p : Path) : Prop :=
  ∀ part ∈ p.parts, '\x00' ∉ part.toList

theorem Path.stem_subset (name : List Char) : Path.stem name ⊆ name := by
  intro c hc
  unfold Path.stem at hc
  dsimp only at hc
  split at hc
  · exact hc
  · exact List.mem_reverse.1 (List.mem_of_mem_drop (List.mem_reverse.1 hc))

namespace Path.IsClean

variable {p q : Path} {suffix : String}

theorem parent (clean : p.IsClean) : p.parent.IsClean :=
  fun part h => clean part ((List.dropLast_sublist _).subset h)

theorem child (clean : p.IsClean) {part : String} (h : '\x00' ∉ part.toList) :
    (p.child part).IsClean := by
  intro q hq
  rcases List.mem_append.1 hq with hq | hq
  · exact clean q hq
  · rwa [List.mem_singleton.1 hq]

theorem name (clean : p.IsClean) : '\x00' ∉ p.name.toList := by
  unfold Path.name
  cases last : p.parts.getLast? with
  | none => decide
  | some part => exact clean part (List.mem_of_getLast? last)

theorem withSuffix (clean : p.IsClean) (h : '\x00' ∉ suffix.toList)
    (same : p.withSuffix suffix = .ok q) : q.IsClean := by
  unfold Path.withSuffix at same
  split at same
  · cases same
  · cases same
    apply clean.parent.child
    rw [String.toList_append, String.toList_ofList, List.mem_append, not_or]
    constructor
    · exact fun hc => clean.name (Path.stem_subset _ hc)
    · exact h

end Path.IsClean

namespace Disk

/-- If the operation fails, then with a fault of the file system. -/
def FailsAsFile {α : Type} (result : Except Fault α) : Prop :=
  ∀ fault, result = .error fault → fault.isFileFault

theorem FailsAsFile.ok {α : Type} (a : α) : FailsAsFile (.ok a) :=
  fun _ h => by cases h

theorem FailsAsFile.reason {α : Type} {r : Reason} (h : r ≠ .zeroByte) (paths : List Path) :
    FailsAsFile (.error (r.fault paths) : Except Fault α) := by
  intro fault same
  cases same
  cases r with
  | zeroByte => exact absurd rfl h
  | _ => rfl

theorem FailsAsFile.bind {α β : Type} {result : Except Fault α} {next : α → Except Fault β}
    (first : FailsAsFile result) (later : ∀ a, FailsAsFile (next a)) :
    FailsAsFile (result >>= next) := by
  intro fault h
  cases same : result with
  | error other =>
      rw [same] at h
      cases h
      exact first _ same
  | ok a =>
      rw [same] at h
      exact later a fault h

theorem follow_fault {d : Disk} {here : Place} {names : List String} {r : Reason}
    (h : d.follow here names = .error r) : r ≠ .zeroByte := by
  induction names generalizing here with
  | nil => cases h
  | cons name names ih =>
      rw [follow] at h
      split at h
      · cases h
        decide
      · cases h
        decide
      · split at h
        · cases h
          decide
        · exact ih h

variable {d : Disk} {p q : Path} {r : Reason}

theorem locate_fault (clean : p.IsClean) (h : d.locate p = .error r) : r ≠ .zeroByte := by
  unfold locate at h
  split at h
  · next zero =>
    obtain ⟨part, hp, hc⟩ := List.any_eq_true.1 zero
    exact absurd (List.contains_iff_mem.1 hc) (clean part hp)
  · exact follow_fault h

theorem isClean_of_has (h : d.has p = .ok true) : p.IsClean := by
  intro part hp zero
  have found : (p.parts.any fun part => part.toList.contains '\x00') = true :=
    List.any_eq_true.2 ⟨part, hp, List.contains_iff_mem.2 zero⟩
  rw [has, locate, if_pos found] at h
  cases h

/-! ### Operations -/

theorem write_fails (clean : p.IsClean) (content : List UInt8) :
    FailsAsFile (d.write p content) := by
  unfold write
  split
  · next located => exact .reason (locate_fault clean located) _
  · split
    · exact .reason (by decide) _
    · exact .ok _

theorem move_fails (clean : p.IsClean) (clean' : q.IsClean) : FailsAsFile (d.move p q) := by
  unfold move
  dsimp only
  split
  · next located => exact .reason (locate_fault clean located) _
  · next located _ => exact .reason (locate_fault clean' located) _
  · split
    · exact .reason (by decide) _
    · exact .reason (by decide) _
    · exact .ok _

theorem makeDirectory_fault (clean : p.IsClean) (h : d.makeDirectory p = .error r) :
    r ≠ .zeroByte := by
  unfold makeDirectory at h
  cases located : d.locate p with
  | error reason =>
      rw [located] at h
      cases h
      exact locate_fault clean located
  | ok place =>
      rw [located] at h
      change (if (d.node? place).isSome then _ else _) = _ at h
      split at h <;> cases h
      decide

theorem ensureReversed_fails (slashes : Nat) (d : Disk) (names : List String)
    (clean : ∀ name ∈ names, '\x00' ∉ name.toList) :
    FailsAsFile (ensureReversed slashes d names) := by
  induction names generalizing d with
  | nil =>
      unfold ensureReversed
      split
      · exact .ok _
      · exact .reason (by decide) _
  | cons name above ih =>
      have here : Path.IsClean { slashes, parts := (name :: above).reverse } :=
        fun part h => clean part (List.mem_reverse.1 h)
      have higher := ih d fun part h => clean part (List.mem_cons_of_mem _ h)
      unfold ensureReversed
      dsimp only
      split
      · exact .ok _
      · apply higher.bind
        intro d
        split
        · exact .ok _
        · split
          · exact .ok _
          · exact .reason (makeDirectory_fault here ‹_›) _
      · split
        · exact .ok _
        · exact .reason (makeDirectory_fault here ‹_›) _

theorem ensureDirectory_fails (clean : p.IsClean) : FailsAsFile (d.ensureDirectory p) :=
  ensureReversed_fails _ _ _ fun part h => clean part (List.mem_reverse.1 h)

/-! ### Any path -/

/-- If the operation fails, then with a fault of the file system or with a refusal of the
    path or of the bytes that were read. -/
def FailsOrdinarily {α : Type} (result : Except Fault α) : Prop :=
  ∀ fault, result = .error fault → fault.isOrdinary

namespace FailsOrdinarily

theorem ok {α : Type} (a : α) : FailsOrdinarily (.ok a) :=
  fun _ h => by cases h

theorem reason {α : Type} (r : Reason) (paths : List Path) :
    FailsOrdinarily (.error (r.fault paths) : Except Fault α) := by
  intro fault same
  cases same
  cases r <;> rfl

theorem bind {α β : Type} {result : Except Fault α} {next : α → Except Fault β}
    (first : FailsOrdinarily result) (later : ∀ a, FailsOrdinarily (next a)) :
    FailsOrdinarily (result >>= next) := by
  intro fault h
  cases same : result with
  | error other =>
      rw [same] at h
      cases h
      exact first _ same
  | ok a =>
      rw [same] at h
      exact later a fault h

end FailsOrdinarily

theorem has_ordinary (d : Disk) (p : Path) : FailsOrdinarily (d.has p) := by
  unfold has
  split
  · exact .ok _
  · exact .reason _ _
  · exact .ok _

theorem read_ordinary (d : Disk) (p : Path) : FailsOrdinarily (d.read p) := by
  unfold read
  split
  · exact .reason _ _
  · split
    · exact .ok _
    · exact .reason _ _
    · exact .reason _ _

theorem readText_ordinary (d : Disk) (p : Path) : FailsOrdinarily (d.readText p) := by
  unfold readText
  apply (read_ordinary d p).bind
  intro bytes
  split
  · exact .ok _
  · intro fault same
    cases same
    rfl

theorem write_ordinary (d : Disk) (p : Path) (content : List UInt8) :
    FailsOrdinarily (d.write p content) := by
  unfold write
  split
  · exact .reason _ _
  · split
    · exact .reason _ _
    · exact .ok _

theorem move_ordinary (d : Disk) (p q : Path) : FailsOrdinarily (d.move p q) := by
  unfold move
  dsimp only
  split
  · exact .reason _ _
  · exact .reason _ _
  · split
    · exact .reason _ _
    · exact .reason _ _
    · exact .ok _

theorem ensureReversed_ordinary (slashes : Nat) (d : Disk) (names : List String) :
    FailsOrdinarily (ensureReversed slashes d names) := by
  induction names generalizing d with
  | nil =>
      unfold ensureReversed
      split
      · exact .ok _
      · exact .reason _ _
  | cons name above ih =>
      unfold ensureReversed
      dsimp only
      split
      · exact .ok _
      · apply (ih d).bind
        intro d
        split
        · exact .ok _
        · split
          · exact .ok _
          · exact .reason _ _
      · split
        · exact .ok _
        · exact .reason _ _

theorem ensureDirectory_ordinary (d : Disk) (p : Path) : FailsOrdinarily (d.ensureDirectory p) :=
  ensureReversed_ordinary _ _ _

end Disk

end ActionEngine
