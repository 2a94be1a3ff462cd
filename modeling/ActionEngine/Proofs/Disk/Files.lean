import ActionEngine.Disk.Tree
import Mathlib.Data.List.Basic

/-!
# The files of a directory

Once a directory stands where a path leads to, its files are told apart by their names
alone. An operation on one of them leaves every directory in place and every other file as
it was. Where a path leads, if it leads anywhere, is told by the path and the working directory.
-/

namespace ActionEngine

theorem Path.parent_child (dir : Path) (name : String) : (dir.child name).parent = dir := by
  simp [Path.parent, Path.child]

theorem Path.withSuffix_child (dir : Path) {name : String} (named : name ≠ "") (suffix : String) :
    (dir.child name).withSuffix suffix =
      .ok (dir.child (String.ofList (Path.stem name.toList) ++ suffix)) := by
  have name_eq : (dir.child name).name = name := by
    simp [Path.name, Path.child]
  unfold Path.withSuffix
  rw [name_eq, Path.parent_child, if_neg (by simpa using named)]

/-- A path with a name is that of an entry of the directory it lies in. -/
theorem Path.child_name {p : Path} (named : p.name ≠ "") : p.parent.child p.name = p := by
  have filled : p.parts ≠ [] := by
    intro empty
    exact named (by simp [Path.name, empty])
  have last : p.name = p.parts.getLast filled := by
    simp [Path.name, List.getLast?_eq_getLast_of_ne_nil filled]
  unfold Path.parent Path.child
  rw [last, List.dropLast_append_getLast]

theorem Path.stem_ne_nil {name : List Char} (filled : name ≠ []) : Path.stem name ≠ [] := by
  unfold Path.stem
  dsimp only
  split
  · exact filled
  · next found =>
    rw [Bool.or_eq_true, not_or] at found
    simpa using found.2

/-- A suffix is what stands behind the last dot. -/
theorem Path.stem_append {base suffix : List Char} (filled : base ≠ []) (some : suffix ≠ [])
    (last : '.' ∉ suffix) : Path.stem (base ++ '.' :: suffix) = base := by
  have behind : (base ++ '.' :: suffix).reverse.takeWhile (· != '.') = suffix.reverse := by
    rw [List.reverse_append, List.reverse_cons, List.append_assoc,
      List.takeWhile_append_of_pos fun c hc => ?_]
    · simp
    · simpa using ne_of_mem_of_not_mem (List.mem_reverse.1 hc) last
  have before : (base ++ '.' :: suffix).reverse.drop (suffix.reverse.length + 1) =
      base.reverse := by
    rw [List.reverse_append, List.reverse_cons, List.append_assoc, List.drop_append]
    simp
  unfold Path.stem
  dsimp only
  rw [behind, before, List.reverse_reverse, if_neg (by simp [filled, some])]

namespace Disk

variable {d d' : Disk} {place other : Place}

/-! ### Single places -/

theorem lookup_filter (nodes : List (Place × Node)) (place other : Place) :
    (nodes.filter fun n => n.1 != place).lookup other =
      if other = place then none else nodes.lookup other := by
  induction nodes with
  | nil => simp
  | cons n nodes ih =>
      rw [List.filter_cons]
      by_cases same : n.1 = place
      · rw [if_neg (by simpa using same), ih, List.lookup_cons]
        by_cases here : other = place
        · rw [if_pos here, if_pos here]
        · have apart : (other == n.1) = false := by simpa [same] using here
          rw [if_neg here, if_neg here, apart]
      · rw [if_pos (by simpa using same), List.lookup_cons, List.lookup_cons, ih]
        by_cases here : other = place
        · have apart : (other == n.1) = false := by
            simpa [here] using Ne.symm same
          rw [apart, if_pos here]
        · rw [if_neg here, if_neg here]

theorem node?_of_ne (d : Disk) (h : place ≠ []) : d.node? place = d.nodes.lookup place :=
  if_neg (by simpa using h)

theorem node?_put (h : place ≠ []) (node : Node) (other : Place) :
    (d.put place node).node? other = if other = place then some node else d.node? other := by
  by_cases root : other = []
  · rw [if_neg (root ▸ h.symm), root]
    rfl
  · rw [node?_of_ne _ root, node?_of_ne _ root, put, List.lookup_append, lookup_filter]
    by_cases same : other = place
    · simp [same]
    · have apart : (other == place) = false := by simpa using same
      simp [same, List.lookup_cons, apart]

theorem node?_drop (h : place ≠ []) (other : Place) :
    (d.drop place).node? other = if other = place then none else d.node? other := by
  by_cases root : other = []
  · rw [if_neg (root ▸ h.symm), root]
    rfl
  · rw [node?_of_ne _ root, node?_of_ne _ root, drop, lookup_filter]

/-! ### Directories -/

/-- Every directory is still one. -/
structure Keeps (d d' : Disk) : Prop where
  work : d'.work = d.work
  directory : ∀ place, d.node? place = some .directory → d'.node? place = some .directory

theorem Keeps.refl (d : Disk) : Keeps d d := ⟨rfl, fun _ h => h⟩

theorem Keeps.put (h : d.node? place ≠ some .directory) (node : Node) :
    Keeps d (d.put place node) where
  work := rfl
  directory other directory := by
    have filled : place ≠ [] := by
      rintro rfl
      exact h rfl
    rw [node?_put filled, if_neg (by rintro rfl; exact h directory), directory]

/-- Names lead to the same place as long as the directories on the way are there. -/
theorem Keeps.follow (keeps : Keeps d d') {here there : Place} {names : List String}
    (h : d.follow here names = .ok there) : d'.follow here names = .ok there := by
  induction names generalizing here with
  | nil => exact h
  | cons name names ih =>
      unfold Disk.follow at h ⊢
      split at h
      · cases h
      · cases h
      · next directory =>
        rw [keeps.directory here directory]
        dsimp only
        split at h
        · cases h
        · next short =>
          rw [if_neg short]
          exact ih h

theorem follow_append {here : Place} {names more : List String} :
    d.follow here (names ++ more) = (d.follow here names >>= fun there => d.follow there more) := by
  induction names generalizing here with
  | nil => rfl
  | cons name names ih =>
      rw [List.cons_append, Disk.follow, Disk.follow]
      split
      · rfl
      · rfl
      · split
        · rfl
        · exact ih

theorem Keeps.locate (keeps : Keeps d d') {p : Path} (h : d.locate p = .ok place) :
    d'.locate p = .ok place := by
  unfold Disk.locate at h ⊢
  split at h
  · cases h
  · next clean =>
    rw [if_neg clean, keeps.work]
    exact keeps.follow h

/-- A directory stands at the place that a path leads to. -/
structure DirectoryAt (d : Disk) (dir : Path) (place : Place) : Prop where
  located : d.locate dir = .ok place
  directory : d.node? place = some .directory

variable {dir : Path}

theorem DirectoryAt.mono (keeps : Keeps d d') (at_place : DirectoryAt d dir place) :
    DirectoryAt d' dir place where
  located := keeps.locate at_place.located
  directory := keeps.directory place at_place.directory

theorem hasDirectory_iff : d.hasDirectory dir ↔ ∃ place, DirectoryAt d dir place := by
  unfold hasDirectory
  constructor
  · intro h
    split at h
    · next place located => exact ⟨place, located, by simpa using h⟩
    · cases h
  · rintro ⟨place, located, directory⟩
    rw [located]
    simpa using directory

theorem DirectoryAt.makeDirectory (at_place : DirectoryAt d dir place) :
    d.makeDirectory dir = .error .exists := by
  unfold Disk.makeDirectory
  rw [at_place.located]
  change (if (d.node? place).isSome then _ else _) = _
  rw [at_place.directory]
  rfl

/-- Nothing changes if the directory is there. -/
theorem DirectoryAt.ensureDirectory (at_place : DirectoryAt d dir place) :
    d.ensureDirectory dir = .ok d := by
  have has : d.hasDirectory dir := hasDirectory_iff.2 ⟨place, at_place⟩
  have reversed (names : List String) (same : names.reverse = dir.parts) :
      ensureReversed dir.slashes d names = .ok d := by
    cases names with
    | nil =>
        have root : ({ slashes := dir.slashes } : Path) = dir := congrArg (Path.mk dir.slashes) same
        unfold ensureReversed
        rw [root]
        exact if_pos has
    | cons name above =>
        unfold ensureReversed
        dsimp only
        rw [same, at_place.makeDirectory]
        exact if_pos has
  exact reversed dir.parts.reverse (List.reverse_reverse _)

/-! ### Entries of a directory -/

/-- A name of an entry: not too long, without a zero byte, and not that of the directory
    above. -/
structure IsEntry (name : String) : Prop where
  clean : '\x00' ∉ name.toList
  short : (Text.utf8Encode name.toList).length ≤ maxName
  below : name ≠ ".."

theorem ne_above {base suffix : String} (long : 2 < suffix.toList.length) :
    base ++ suffix ≠ ".." := by
  intro same
  have size := congrArg (List.length ∘ String.toList) same
  simp at size
  omega

/-- Behind a name only the length of a suffix counts. -/
theorem isEntry_append_iff {base suffix : String} (clean : '\x00' ∉ suffix.toList)
    (long : 2 < suffix.toList.length) : IsEntry (base ++ suffix) ↔
      '\x00' ∉ base.toList ∧ (Text.utf8Encode base.toList).length +
        (Text.utf8Encode suffix.toList).length ≤ maxName := by
  have size : (Text.utf8Encode (base ++ suffix).toList).length =
      (Text.utf8Encode base.toList).length + (Text.utf8Encode suffix.toList).length := by
    simp [Text.utf8Encode]
  constructor
  · rintro ⟨clean', short, -⟩
    exact ⟨fun zero => clean' (by simp [zero]), size ▸ short⟩
  · rintro ⟨clean', short⟩
    exact ⟨by simp [clean, clean'], size ▸ short, ne_above long⟩

section Entries

variable {name : String} {content : List UInt8}

/-- A single name is followed from a directory. -/
theorem follow_singleton : d.follow place [name] = .ok other ↔
    d.node? place = some .directory ∧ (Text.utf8Encode name.toList).length ≤ maxName ∧
      other = if name == ".." then place.dropLast else place ++ [name] := by
  rw [Disk.follow]
  split
  · simp [*]
  · simp [*]
  · next directory =>
    simp only [directory, true_and]
    split
    · next long =>
      simp [Nat.not_le_of_lt long]
    · next short =>
      rw [Disk.follow, Except.ok.injEq, eq_comm]
      simp [Nat.le_of_not_lt short]

theorem locate_child (d : Disk) (dir : Path) (name : String) : d.locate (dir.child name) =
    if name.toList.contains '\x00' then .error .zeroByte
    else d.locate dir >>= fun place => d.follow place [name] := by
  unfold Disk.locate
  change (if ((dir.parts ++ [name]).any fun part => part.toList.contains '\x00') then _
    else d.follow (if dir.isAbsolute then [] else d.work) (dir.parts ++ [name])) = _
  rw [List.any_append, follow_append]
  by_cases clean : (dir.parts.any fun part => part.toList.contains '\x00') = true
  · rw [clean]
    simp [bind, Except.bind]
  · rw [Bool.not_eq_true] at clean
    rw [clean]
    simp

theorem DirectoryAt.locate (at_place : DirectoryAt d dir place) (entry : IsEntry name) :
    d.locate (dir.child name) = .ok (place ++ [name]) := by
  rw [locate_child, if_neg (by simpa using entry.clean), at_place.located]
  refine follow_singleton.2 ⟨at_place.directory, entry.short, ?_⟩
  rw [if_neg (by simpa using entry.below)]

/-- A path that leads somewhere leads to an entry of the directory it lies in. -/
theorem DirectoryAt.of_locate (below : name ≠ "..")
    (located : d.locate (dir.child name) = .ok other) :
    ∃ place, DirectoryAt d dir place ∧ IsEntry name ∧ other = place ++ [name] := by
  rw [locate_child] at located
  split at located
  · cases located
  · next clean =>
    cases above : d.locate dir with
    | error reason =>
        rw [above] at located
        cases located
    | ok place =>
        rw [above] at located
        obtain ⟨directory, short, rfl⟩ := follow_singleton.1 located
        rw [if_neg (by simpa using below)]
        exact ⟨place, ⟨above, directory⟩, ⟨by simpa using clean, short, below⟩, rfl⟩

theorem DirectoryAt.unique {place' : Place} (at_place : DirectoryAt d dir place)
    (at_place' : DirectoryAt d dir place') : place = place' :=
  Except.ok.inj (at_place.located.symm.trans at_place'.located)

theorem DirectoryAt.has (at_place : DirectoryAt d dir place) (entry : IsEntry name) :
    d.has (dir.child name) = .ok (d.node? (place ++ [name])).isSome := by
  unfold Disk.has
  rw [at_place.locate entry]

theorem DirectoryAt.read (at_place : DirectoryAt d dir place) (entry : IsEntry name)
    (file : d.node? (place ++ [name]) = some (.file content)) :
    d.read (dir.child name) = .ok content := by
  unfold Disk.read
  rw [at_place.locate entry]
  dsimp only
  rw [file]

theorem DirectoryAt.of_read (at_place : DirectoryAt d dir place) (below : name ≠ "..")
    (read : d.read (dir.child name) = .ok content) :
    IsEntry name ∧ d.node? (place ++ [name]) = some (.file content) := by
  unfold Disk.read at read
  split at read
  · cases read
  · next there located =>
    obtain ⟨place', at_place', entry, rfl⟩ := DirectoryAt.of_locate below located
    obtain rfl := at_place.unique at_place'
    split at read <;> cases read
    exact ⟨entry, ‹_›⟩

theorem DirectoryAt.read_congr (at_place : DirectoryAt d dir place)
    (at_place' : DirectoryAt d' dir place) (entry : IsEntry name)
    (same : d'.node? (place ++ [name]) = d.node? (place ++ [name])) :
    d'.read (dir.child name) = d.read (dir.child name) := by
  unfold Disk.read
  rw [at_place.locate entry, at_place'.locate entry]
  dsimp only
  rw [same]

theorem DirectoryAt.write (at_place : DirectoryAt d dir place) (entry : IsEntry name)
    (free : d.node? (place ++ [name]) ≠ some .directory) (content : List UInt8) :
    d.write (dir.child name) content = .ok (d.put (place ++ [name]) (.file content)) := by
  unfold Disk.write
  rw [at_place.locate entry]
  dsimp only
  split
  · contradiction
  · rfl

/-- A file can be written exactly if its name is that of an entry that is no directory. -/
theorem DirectoryAt.write_ok_iff (at_place : DirectoryAt d dir place) (below : name ≠ "..")
    (content : List UInt8) : (∃ d', d.write (dir.child name) content = .ok d') ↔
      IsEntry name ∧ d.node? (place ++ [name]) ≠ some .directory := by
  constructor
  · rintro ⟨d', written⟩
    unfold Disk.write at written
    split at written
    · cases written
    · next there located =>
      obtain ⟨place', at_place', entry, rfl⟩ := DirectoryAt.of_locate below located
      obtain rfl := at_place.unique at_place'
      refine ⟨entry, fun directory => ?_⟩
      rw [directory] at written
      cases written
  · rintro ⟨entry, free⟩
    exact ⟨_, at_place.write entry free content⟩

end Entries

/-! ### Where a path leads -/

/-- Names lead from a place to another one, whatever stands on the way. -/
def descend (here : Place) (names : List String) : Place :=
  names.foldl (fun here name => if name == ".." then here.dropLast else here ++ [name]) here

/-- The place that a path leads to, if it leads anywhere. -/
def destination (work : Place) (p : Path) : Place :=
  descend (if p.isAbsolute then [] else work) p.parts

theorem eq_descend {here there : Place} {names : List String}
    (h : d.follow here names = .ok there) : there = descend here names := by
  induction names generalizing here with
  | nil => exact (Except.ok.inj h).symm
  | cons name names ih =>
      rw [follow] at h
      split at h
      · cases h
      · cases h
      · split at h
        · cases h
        · exact ih h

theorem eq_destination {p : Path} (located : d.locate p = .ok place) :
    place = destination d.work p := by
  unfold locate at located
  split at located
  · cases located
  · exact eq_descend located

theorem destination_child (work : Place) (dir : Path) {name : String} (below : name ≠ "..") :
    destination work (dir.child name) = destination work dir ++ [name] := by
  change descend (if dir.isAbsolute then [] else work) (dir.parts ++ [name]) = _
  unfold descend
  rw [List.foldl_append, List.foldl_cons, List.foldl_nil, if_neg (by simpa using below)]
  rfl

/-! ### Moving -/

variable {source target : Path} {here there : Place}

/-- Move what stands at one place to another one. -/
def moveNode (d : Disk) (here there : Place) (both : List Path) : Except Fault Disk :=
  match d.node? here, d.node? there with
  | none, _ => .error (Reason.missing.fault both)
  | _, some .directory => .error (Reason.isDirectory.fault both)
  | some node, _ => .ok (if here = there then d else (d.drop here).put there node)

theorem move_of_located (located : d.locate source = .ok here)
    (located' : d.locate target = .ok there) :
    d.move source target = d.moveNode here there [source, target] := by
  unfold move
  rw [located, located']
  rfl

theorem move_of_unlocated {reason : Reason} (h : d.locate source = .error reason) :
    d.move source target = .error (reason.fault [source, target]) := by
  unfold move
  rw [h]

theorem move_to_unlocated {reason : Reason} (located : d.locate source = .ok here)
    (h : d.locate target = .error reason) :
    d.move source target = .error (reason.fault [source, target]) := by
  unfold move
  rw [located, h]

theorem moveNode_of_file {node : Node} {both : List Path} (found : d.node? here = some node)
    (free : d.node? there ≠ some .directory) : d.moveNode here there both =
      .ok (if here = there then d else (d.drop here).put there node) := by
  unfold moveNode
  rw [found]
  split
  · contradiction
  · contradiction
  · next same _ =>
    cases same
    rfl

/-! ### What is left alone -/

/-- Whatever stands on a disk stands there still, unless its place is one of some. -/
structure Spares (touched : Place → Prop) (d d' : Disk) : Prop where
  work : d'.work = d.work
  kept : ∀ place node, ¬ touched place → d.node? place = some node → d'.node? place = some node

namespace Spares

variable {touched : Place → Prop} {p : Path}

theorem refl (touched : Place → Prop) (d : Disk) : Spares touched d d :=
  ⟨rfl, fun _ _ _ h => h⟩

theorem trans {d'' : Disk} (first : Spares touched d d') (later : Spares touched d' d'') :
    Spares touched d d'' where
  work := later.work.trans first.work
  kept place node other h := later.kept place node other (first.kept place node other h)

/-- Something may be put at one of the places, and where nothing stands. -/
theorem put (filled : place ≠ []) (free : d.node? place = none ∨ touched place) (node : Node) :
    Spares touched d (d.put place node) where
  work := rfl
  kept other node' apart h := by
    rw [node?_put filled, if_neg ?_, h]
    rintro rfl
    rcases free with free | free
    · cases free.symm.trans h
    · exact apart free

theorem drop (filled : place ≠ []) (free : touched place) : Spares touched d (d.drop place) where
  work := rfl
  kept other node apart h := by
    rw [node?_drop filled, if_neg ?_, h]
    rintro rfl
    exact apart free

theorem write {content : List UInt8} (free : touched (destination d.work p))
    (written : d.write p content = .ok d') : Spares touched d d' := by
  unfold Disk.write at written
  split at written
  · cases written
  · next place located =>
    obtain rfl := eq_destination located
    split at written
    · cases written
    · next other =>
      cases written
      refine put ?_ (.inr free) _
      rintro filled
      exact other (by rw [filled]; rfl)

theorem move {source target : Path} (filled : destination d.work source ≠ [])
    (free : touched (destination d.work source)) (free' : touched (destination d.work target))
    (moved : d.move source target = .ok d') : Spares touched d d' := by
  cases located : d.locate source with
  | error reason =>
      rw [move_of_unlocated located] at moved
      cases moved
  | ok here =>
      cases located' : d.locate target with
      | error reason =>
          rw [move_to_unlocated located located'] at moved
          cases moved
      | ok there =>
          obtain rfl := eq_destination located
          obtain rfl := eq_destination located'
          rw [move_of_located located located'] at moved
          unfold moveNode at moved
          split at moved
          · cases moved
          · cases moved
          · next node _ _ other =>
            cases moved
            split
            · exact .refl _ _
            · refine (drop filled free).trans (put ?_ (.inr free') _)
              rintro filled'
              exact other (by rw [filled']; rfl)

theorem makeDirectory (made : d.makeDirectory p = .ok d') : Spares touched d d' := by
  unfold Disk.makeDirectory at made
  cases located : d.locate p with
  | error reason =>
      rw [located] at made
      cases made
  | ok place =>
      rw [located] at made
      change (if (d.node? place).isSome then _ else _) = _ at made
      split at made
      · cases made
      · next absent =>
        cases made
        refine put ?_ (.inl (by simpa using absent)) _
        rintro rfl
        exact absent rfl

theorem ensureDirectory (ensured : d.ensureDirectory p = .ok d') : Spares touched d d' := by
  have found (fault : Fault) (q : Path) {e e' : Disk}
      (h : (if e.hasDirectory q then .ok e else .error fault) = Except.ok e') :
      Spares touched e e' := by
    split at h <;> cases h
    exact .refl _ _
  have reversed (names : List String) {e e' : Disk}
      (h : ensureReversed p.slashes e names = .ok e') : Spares touched e e' := by
    induction names generalizing e e' with
    | nil => exact found _ _ h
    | cons name above ih =>
        unfold ensureReversed at h
        dsimp only at h
        split at h
        · next made =>
          cases h
          exact makeDirectory made
        · cases higher : ensureReversed p.slashes e above with
          | error fault =>
              rw [higher] at h
              cases h
          | ok f =>
              rw [higher] at h
              refine (ih higher).trans ?_
              simp only [bind, Except.bind] at h
              split at h
              · next made =>
                cases h
                exact makeDirectory made
              · exact found _ _ h
        · exact found _ _ h
  exact reversed _ ensured

end Spares

/-! ### Replacing a file -/

/-- The disk with a file that was written under another name first. -/
def replaced (d : Disk) (place : Place) (draft name : String) (content : List UInt8) : Disk :=
  ((d.put (place ++ [draft]) (.file content)).drop (place ++ [draft])).put (place ++ [name])
    (.file content)

section Replaced

variable {draft name : String} {content : List UInt8}

theorem node?_replaced (other : Place) :
    (d.replaced place draft name content).node? other =
      if other = place ++ [name] then some (.file content)
      else if other = place ++ [draft] then none
      else d.node? other := by
  have filled (name : String) : place ++ [name] ≠ [] := by simp
  unfold replaced
  rw [node?_put (filled _), node?_drop (filled _), node?_put (filled _)]
  split
  · rfl
  · split <;> rfl

theorem keeps_replaced (free : d.node? (place ++ [draft]) ≠ some .directory)
    (free' : d.node? (place ++ [name]) ≠ some .directory) :
    Keeps d (d.replaced place draft name content) where
  work := rfl
  directory other directory := by
    rw [node?_replaced, if_neg (by rintro rfl; exact free' directory),
      if_neg (by rintro rfl; exact free directory), directory]

/-- A file that is its own draft is written once. -/
theorem replaced_self (d : Disk) (place : Place) (name : String) (content : List UInt8) :
    d.replaced place name name content = d.put (place ++ [name]) (.file content) := by
  simp [replaced, put, drop]

theorem DirectoryAt.replace (at_place : DirectoryAt d dir place) (entry : IsEntry draft)
    (entry' : IsEntry name) (free : d.node? (place ++ [draft]) ≠ some .directory)
    (free' : d.node? (place ++ [name]) ≠ some .directory) (content : List UInt8) :
    (d.put (place ++ [draft]) (.file content)).move (dir.child draft) (dir.child name) =
      .ok (d.replaced place draft name content) := by
  have filled : place ++ [draft] ≠ [] := by simp
  have there : DirectoryAt (d.put (place ++ [draft]) (.file content)) dir place :=
    at_place.mono (.put free _)
  unfold Disk.move
  rw [there.locate entry, there.locate entry']
  dsimp only
  by_cases apart : draft = name
  · subst apart
    rw [node?_put filled, if_pos rfl, replaced_self]
    exact congrArg Except.ok (if_pos rfl)
  · have other : place ++ [name] ≠ place ++ [draft] := by simpa using Ne.symm apart
    rw [node?_put filled, if_pos rfl, node?_put filled, if_neg other]
    split
    · contradiction
    · contradiction
    · next same _ =>
      cases same
      rw [if_neg other.symm]
      rfl

end Replaced

end Disk

end ActionEngine
