import ActionEngine.Proofs.Bus.Deed
import ActionEngine.Proofs.Bus.Order
import Mathlib.Data.List.Nodup

/-!
# Dead registrations stay dead

A registration is dead when the listener of its handler is gone. An object never comes back to
life, so that what a publish finds dead at its turn is dead when the publish removes it, whatever
the handlers do in between; and no two registrations are mistaken for each other.
-/

namespace ActionEngine.Bus

/-! ### Objects and their listeners -/

namespace Target

/-- The object belongs to the listener of that name, in a list of the listeners in the order in
    which they came into being. Only the name decides how loosely the object is held. -/
def Known (names : List String) : Target → Prop
  | function _ => True
  | method object listener _ weak =>
      names[object]? = some listener ∧ weak = !World.isHeldStrongly listener

theorem Known.mono {names : List String} {target : Target} (known : target.Known names)
    (more : List String) : target.Known (names ++ more) := by
  cases target with
  | function name => trivial
  | method object listener name weak =>
      obtain ⟨named, loose⟩ := known
      refine ⟨?_, loose⟩
      rw [List.getElem?_append_left (List.getElem?_eq_some_iff.1 named).1, named]

theorem Known.lt {names : List String} {target : Target} {object : Nat}
    (known : target.Known names) (weak : target.weakObject? = some object) :
    object < names.length := by
  cases target with
  | function name => cases weak
  | method object' listener name loose =>
      obtain ⟨named, -⟩ := known
      cases loose with
      | false => cases weak
      | true =>
          cases weak
          exact (List.getElem?_eq_some_iff.1 named).1

/-- Two methods of one object are held alike. -/
theorem Known.weakObject?_eq {names : List String} {target target' : Target} {object : Nat}
    (known : target.Known names) (known' : target'.Known names)
    (weak : target.weakObject? = some object) (same : target'.object? = some object) :
    target'.weakObject? = some object := by
  cases target with
  | function name => cases weak
  | method _ listener name loose =>
      cases loose with
      | false => cases weak
      | true =>
          cases weak
          cases target' with
          | function name' => cases same
          | method _ listener' name' loose' =>
              cases same
              obtain ⟨named, held⟩ := known
              obtain ⟨named', held'⟩ := known'
              rw [named] at named'
              cases named'
              rw [← held] at held'
              rw [held']
              rfl

end Target

namespace World

theorem isAlive_iff {w : World} {object : Nat} :
    w.isAlive object = true ↔ (∃ l ∈ w.listeners, l.2 = object) ∨ object ∈ w.held := by
  simp [isAlive]

theorem canCall_iff {w : World} {target : Target} :
    w.canCall target = true ↔
      ∀ object, target.weakObject? = some object → w.isAlive object = true := by
  unfold canCall
  cases target.weakObject? with
  | none => simp
  | some object => simp

/-- The owner of the listener that the method belongs to has it at hand. -/
def Owns (w : World) : Target → Prop
  | .function _ => True
  | .method object listener _ weak =>
      (listener, object) ∈ w.listeners ∧ weak = !isHeldStrongly listener

theorem canCall_of_owns {w : World} {target : Target} (owns : w.Owns target) :
    w.canCall target = true := by
  rw [canCall_iff]
  intro object weak
  cases target with
  | function name => cases weak
  | method object' listener name loose =>
      cases loose with
      | false => cases weak
      | true =>
          cases weak
          exact isAlive_iff.2 (.inl ⟨_, owns.1, rfl⟩)

theorem Owns.mono {w w' : World} {target : Target} (owns : w.Owns target)
    (kept : ∀ l ∈ w.listeners, l ∈ w'.listeners) : w'.Owns target := by
  cases target with
  | function name => trivial
  | method object listener name weak => exact ⟨kept _ owns.1, owns.2⟩

/-- A handler that is named belongs to a listener that its owner has. -/
theorem resolve_owns (w : World) (handler : Handler) :
    (w.resolve handler).1.Owns (w.resolve handler).2 := by
  cases handler with
  | function name => trivial
  | method listener name =>
      unfold resolve
      cases found : w.listeners.lookup listener with
      | none =>
          simp only [found]
          exact ⟨List.mem_append_right _ List.mem_cons_self, rfl⟩
      | some object =>
          simp only [found]
          obtain ⟨front, back, split, -⟩ := List.lookup_eq_some_iff.1 found
          refine ⟨?_, rfl⟩
          rw [split]
          exact List.mem_append_right _ List.mem_cons_self

/-- The listeners are known by their objects, and what is registered belongs to them. -/
structure Known (names : List String) (w : World) : Prop where
  created : names.length = w.nextObject
  listeners : ∀ l ∈ w.listeners, names[l.2]? = some l.1
  registered : ∀ r ∈ w.registrations.entries, r.target.Known names
  ordered : w.registrations.Ordered

theorem Known.of_owns {names : List String} {w : World} (known : w.Known names) {target : Target}
    (owns : w.Owns target) : target.Known names := by
  cases target with
  | function name => trivial
  | method object listener name weak => exact ⟨known.listeners _ owns.1, owns.2⟩

end World

/-! ### What each deed keeps -/

def Deed.naming (names : List String) : Deed → List String
  | create listener => names ++ [listener]
  | _ => names

/-- What the bus and the handlers on it heed: whoever registers a method has its listener, what is
    called was registered, and what a publish removes is dead. -/
def Deed.Lawful (names : List String) (w : World) : Deed → Prop
  | subscribe _ target => w.Owns target
  | reach r _ => r.target.Known names
  | prune numbers =>
      ∀ r ∈ w.registrations.entries, r.number ∈ numbers → w.canCall r.target = false
  | _ => True

theorem Target.Known.naming {names : List String} {target : Target} (known : target.Known names)
    (d : Deed) : target.Known (d.naming names) := by
  cases d with
  | create listener => exact known.mono [listener]
  | _ => exact known

namespace World

section Act

variable {names : List String} {w : World} {d : Deed}

theorem Known.of_sublist {entries : List Registration} (known : w.Known names)
    (sub : entries.Sublist w.registrations.entries) :
    Known names { w with registrations := { w.registrations with entries } } :=
  ⟨known.created, known.listeners, fun r hr => known.registered r (sub.subset hr),
    known.ordered.of_sublist sub⟩

theorem Known.act (known : w.Known names) (lawful : d.Lawful names w) :
    (w.act d).Known (d.naming names) := by
  obtain ⟨created, listeners, registered, ordered⟩ := id known
  cases d with
  | create listener =>
      refine ⟨?_, ?_, fun r hr => (registered r hr).mono _, ordered⟩
      · simpa [World.act, Deed.naming] using created
      · intro l hl
        rcases List.mem_append.1 hl with hl | hl
        · have named := listeners l hl
          exact (List.getElem?_append_left (List.getElem?_eq_some_iff.1 named).1).trans named
        · rw [List.mem_singleton.1 hl, ← created]
          exact List.getElem?_concat_length
  | subscribe kind target =>
      refine ⟨created, listeners, ?_, ordered.add kind target⟩
      intro r hr
      rcases List.mem_append.1 hr with hr | hr
      · exact registered r hr
      · rw [List.mem_singleton.1 hr]
        exact known.of_owns lawful
  | drop listener =>
      exact ⟨created, fun l hl => listeners l (List.mem_filter.1 hl).1, registered, ordered⟩
  | unsubscribe kind target => exact known.of_sublist List.eraseP_sublist
  | clear => exact known.of_sublist (List.nil_sublist _)
  | prune numbers => exact known.of_sublist List.filter_sublist
  | _ => exact ⟨created, listeners, registered, ordered⟩

/-- An object that is known never comes back to life. -/
theorem Known.canCall_of_act (known : w.Known names) (lawful : d.Lawful names w) {target : Target}
    (hers : target.Known names) (alive : (w.act d).canCall target = true) :
    w.canCall target = true := by
  rw [canCall_iff] at alive ⊢
  intro object weak
  have alive := isAlive_iff.1 (alive object weak)
  cases d with
  | create listener =>
      rcases alive with ⟨l, hl, same⟩ | held
      · rcases List.mem_append.1 hl with hl | hl
        · exact isAlive_iff.2 (.inl ⟨l, hl, same⟩)
        · -- The object that comes into being has no name yet.
          have fresh := hers.lt weak
          rw [← same, List.mem_singleton.1 hl, known.created] at fresh
          exact absurd fresh (Nat.lt_irrefl _)
      · exact isAlive_iff.2 (.inr held)
  | drop listener =>
      rcases alive with ⟨l, hl, same⟩ | held
      · exact isAlive_iff.2 (.inl ⟨l, (List.mem_filter.1 hl).1, same⟩)
      · exact isAlive_iff.2 (.inr held)
  | reach r previous =>
      rcases alive with owned | held
      · exact isAlive_iff.2 (.inl owned)
      · rcases List.mem_append.1 (List.mem_of_mem_eraseP held) with next | held
        · -- What is held from now on is called, so that it is alive by itself.
          split at next
          · have same : r.target.object? = some object := by simpa using next
            exact canCall_iff.1 ‹_› object (hers.weakObject?_eq lawful weak same)
          · cases next
        · exact isAlive_iff.2 (.inr held)
  | release previous =>
      rcases alive with owned | held
      · exact isAlive_iff.2 (.inl owned)
      · exact isAlive_iff.2 (.inr (List.mem_of_mem_eraseP held))
  | _ => exact isAlive_iff.2 alive

/-- A deed other than dropping leaves every listener with its owner. -/
theorem mem_listeners_act (stays : ∀ listener, d ≠ .drop listener) {l : String × Nat}
    (hl : l ∈ w.listeners) : l ∈ (w.act d).listeners := by
  cases d with
  | create listener => exact List.mem_append_left _ hl
  | drop listener => exact absurd rfl (stays listener)
  | _ => exact hl

end Act

/-! ### Rows of deeds -/

def namesAfter (names : List String) (ds : List Deed) : List String :=
  ds.foldl Deed.naming names

def LawfulRow (names : List String) (w : World) : List Deed → Prop
  | [] => True
  | d :: ds => d.Lawful names w ∧ LawfulRow (d.naming names) (w.act d) ds

theorem lawfulRow_append {names : List String} {w : World} {ds ds' : List Deed} :
    LawfulRow names w (ds ++ ds') ↔
      LawfulRow names w ds ∧ LawfulRow (namesAfter names ds) (w.after ds) ds' := by
  induction ds generalizing names w with
  | nil =>
      constructor
      · intro lawful
        exact ⟨trivial, lawful⟩
      · rintro ⟨-, lawful⟩
        exact lawful
  | cons d ds ih =>
      have split : LawfulRow (d.naming names) (w.act d) (ds ++ ds') ↔
          LawfulRow (d.naming names) (w.act d) ds ∧
            LawfulRow (namesAfter (d.naming names) ds) ((w.act d).after ds) ds' := ih
      exact (and_congr_right fun _ => split).trans and_assoc.symm

theorem known_namesAfter {names : List String} {target : Target} (hers : target.Known names)
    (ds : List Deed) : target.Known (namesAfter names ds) := by
  induction ds generalizing names with
  | nil => exact hers
  | cons d ds ih => exact ih (hers.naming d)

theorem Known.after {names : List String} {w : World} {ds : List Deed} (known : w.Known names)
    (lawful : LawfulRow names w ds) : (w.after ds).Known (namesAfter names ds) := by
  induction ds generalizing names w with
  | nil => exact known
  | cons d ds ih => exact ih (known.act lawful.1) lawful.2

theorem Known.canCall_of_after {names : List String} {w : World} {ds : List Deed}
    (known : w.Known names) (lawful : LawfulRow names w ds) {target : Target}
    (hers : target.Known names) (alive : (w.after ds).canCall target = true) :
    w.canCall target = true := by
  induction ds generalizing names w with
  | nil => exact alive
  | cons d ds ih =>
      have alive := ih (known.act lawful.1) lawful.2 (hers.naming d) alive
      exact known.canCall_of_act lawful.1 hers alive

/-- The turn of a registration comes, and its handler can be called then, or not. -/
def Met (w : World) (ds : List Deed) (r : Registration) (alive : Bool) : Prop :=
  ∃ before previous rest,
    ds = before ++ .reach r previous :: rest ∧ (w.after before).canCall r.target = alive

theorem Met.append_right {w : World} {ds : List Deed} {r : Registration} {alive : Bool}
    (met : Met w ds r alive) (ds' : List Deed) : Met w (ds ++ ds') r alive := by
  obtain ⟨before, previous, rest, rfl, turn⟩ := met
  exact ⟨before, previous, rest ++ ds', by simp, turn⟩

theorem Met.append_left {w : World} {ds : List Deed} {r : Registration} {alive : Bool}
    (ds' : List Deed) (met : Met (w.after ds') ds r alive) : Met w (ds' ++ ds) r alive := by
  obtain ⟨before, previous, rest, rfl, turn⟩ := met
  refine ⟨ds' ++ before, previous, rest, by simp, ?_⟩
  rw [after_append]
  exact turn

/-- What was dead at its turn is dead at the end. -/
theorem Known.dead_after {names : List String} {w : World} {ds : List Deed} (known : w.Known names)
    (lawful : LawfulRow names w ds) {r : Registration} (met : Met w ds r false) :
    (w.after ds).canCall r.target = false := by
  obtain ⟨before, previous, rest, rfl, gone⟩ := met
  obtain ⟨lawful, lawful'⟩ := lawfulRow_append.1 lawful
  rw [after_append]
  by_contra alive
  rw [Bool.not_eq_false] at alive
  rw [(known.after lawful).canCall_of_after lawful' lawful'.1 alive] at gone
  cases gone

/-! ### Which registrations there can be later -/

/-- Registrations that were not there before are new ones. -/
structure Renewed (w₀ w : World) : Prop where
  next : w₀.registrations.next ≤ w.registrations.next
  entries : ∀ r ∈ w.registrations.entries,
    r ∈ w₀.registrations.entries ∨ w₀.registrations.next ≤ r.number

namespace Renewed

variable {w₀ w : World}

theorem refl (w : World) : Renewed w w :=
  ⟨Nat.le_refl _, fun _ hr => .inl hr⟩

theorem act (renewed : Renewed w₀ w) (d : Deed) : Renewed w₀ (w.act d) := by
  obtain ⟨next, entries⟩ := renewed
  cases d with
  | subscribe kind target =>
      refine ⟨Nat.le_succ_of_le next, ?_⟩
      intro r hr
      rcases List.mem_append.1 hr with hr | hr
      · exact entries r hr
      · rw [List.mem_singleton.1 hr]
        exact .inr next
  | unsubscribe kind target =>
      exact ⟨next, fun r hr => entries r (List.mem_of_mem_eraseP hr)⟩
  | clear => exact ⟨next, fun r hr => absurd hr List.not_mem_nil⟩
  | prune numbers => exact ⟨next, fun r hr => entries r (List.mem_filter.1 hr).1⟩
  | _ => exact ⟨next, entries⟩

theorem after (renewed : Renewed w₀ w) (ds : List Deed) : Renewed w₀ (w.after ds) := by
  induction ds generalizing w with
  | nil => exact renewed
  | cons d ds ih => exact ih (renewed.act d)

/-- A registration that was there is told by its number. -/
theorem eq_of_number (renewed : Renewed w₀ w) (ordered : w₀.registrations.Ordered)
    {r r' : Registration} (there : r' ∈ w₀.registrations.entries)
    (hr : r ∈ w.registrations.entries) (same : r.number = r'.number) : r = r' := by
  rcases renewed.entries r hr with before | fresh
  · have apart : (w₀.registrations.entries.map Registration.number).Nodup :=
      List.pairwise_map.2 (ordered.ascending.imp fun h => Nat.ne_of_lt h)
    exact List.inj_on_of_nodup_map apart before there same
  · have below := ordered.below r' there
    omega

end Renewed

/-! ### Every run is lawful -/

/-- Wherever a handler is called, its account tells lawful deeds. -/
def TellsLawfully (account : Account) : Prop :=
  ∀ names w target event, w.Known names → LawfulRow names w (account w target event)

/-- What a delivery finds dead are some of the registrations that it goes through, in their
    order; at the turn of any other one the handler can be called. -/
theorem deliverDeeds_met {call : Call} {account : Account} (tells : TellsDeeds call account)
    (event : Event) (rs : List Registration) (previous : Option Nat) (w : World) :
    ∃ dead : List Registration,
      (deliver call event rs previous w).2 = dead.map Registration.number ∧ dead.Sublist rs ∧
      (∀ r ∈ dead, Met w (deliverDeeds call account event rs previous w) r false) ∧
      ∀ r ∈ rs, r ∉ dead → Met w (deliverDeeds call account event rs previous w) r true := by
  induction rs generalizing previous w with
  | nil => exact ⟨[], rfl, .slnil, by simp, by simp⟩
  | cons r rest ih =>
      unfold deliverDeeds
      by_cases alive : w.canCall r.target = true
      · rw [if_pos alive, deliver_cons_of_canCall call event rest previous alive,
          ← after_turnDeeds tells alive]
        obtain ⟨dead, numbers, sub, gone, met⟩ := ih r.target.object?
          (w.after (turnDeeds call account event r previous w))
        refine ⟨dead, numbers, sub.cons r, fun r' hr => (gone r' hr).append_left _, ?_⟩
        intro r' hr spared
        rcases List.mem_cons.1 hr with rfl | hr
        · exact Met.append_right ⟨[], previous, _, rfl, alive⟩ _
        · exact (met r' hr spared).append_left _
      · rw [if_neg alive, deliver_cons_of_not_canCall call event rest previous alive,
          ← act_reach_of_not_canCall alive previous]
        obtain ⟨dead, numbers, sub, gone, met⟩ := ih none (w.act (.reach r previous))
        refine ⟨r :: dead, congrArg (r.number :: ·) numbers, sub.cons_cons r, ?_, ?_⟩
        · intro r' hr
          rcases List.mem_cons.1 hr with rfl | hr
          · exact ⟨[], previous, _, rfl, Bool.not_eq_true _ ▸ alive⟩
          · exact Met.append_left (w := w) [.reach r previous] (gone r' hr)
        · intro r' hr spared
          obtain ⟨other, spared⟩ := not_or.1 (mt List.mem_cons.2 spared)
          have hr := (List.mem_cons.1 hr).resolve_left other
          exact Met.append_left (w := w) [.reach r previous] (met r' hr spared)

section Lawful

variable {call : Call} {account : Account} (tells : TellsDeeds call account)
  (lawful : TellsLawfully account)
include tells lawful

theorem deliverDeeds_lawful {names : List String} {w : World} (known : w.Known names)
    (event : Event) {rs : List Registration} (registered : ∀ r ∈ rs, r.target.Known names)
    (previous : Option Nat) :
    LawfulRow names w (deliverDeeds call account event rs previous w) := by
  induction rs generalizing names previous w with
  | nil => exact ⟨trivial, trivial⟩
  | cons r rest ih =>
      have hers : r.target.Known names := registered r List.mem_cons_self
      have registered : ∀ r' ∈ rest, r'.target.Known names :=
        fun r' hr => registered r' (List.mem_cons_of_mem _ hr)
      have reached : (w.act (.reach r previous)).Known names :=
        known.act (d := .reach r previous) hers
      unfold deliverDeeds
      by_cases alive : w.canCall r.target = true
      · have turn : LawfulRow names w (turnDeeds call account event r previous w) := by
          refine ⟨hers, lawfulRow_append.2 ⟨?_, trivial, trivial⟩⟩
          rw [act_reach_of_canCall alive] at reached ⊢
          exact lawful names _ r.target event reached
        rw [if_pos alive, ← after_turnDeeds tells alive]
        refine lawfulRow_append.2 ⟨turn, ih (known.after turn) ?_ _⟩
        exact fun r' hr => known_namesAfter (registered r' hr) _
      · rw [if_neg alive, ← act_reach_of_not_canCall alive previous]
        exact ⟨hers, ih reached registered none⟩

/-- A publish goes through the registrations for its event, and at its end it removes those that
    it found dead, each by itself. -/
theorem publishDeeds_eq {names : List String} {w : World} (known : w.Known names) (event : Event) :
    ∃ (front : List Deed) (dead : List Registration),
      publishDeeds call account w event = front ++ [.prune (dead.map Registration.number)] ∧
      LawfulRow names w front ∧ dead.Sublist (w.registrations.ofKind event.kind) ∧
      (∀ r ∈ dead, Met w front r false) ∧
      (∀ r ∈ w.registrations.ofKind event.kind, r ∉ dead → Met w front r true) ∧
      ∀ r ∈ (w.after front).registrations.entries,
        r.number ∈ dead.map Registration.number → r ∈ dead := by
  have registered : ∀ r ∈ w.registrations.ofKind event.kind, r.target.Known names :=
    fun r hr => known.registered r (List.mem_filter.1 hr).1
  obtain ⟨dead, numbers, sub, gone, met⟩ := deliverDeeds_met tells event
    (w.registrations.ofKind event.kind) none (w.announced event)
  refine ⟨.announce event :: deliverDeeds call account event
    (w.registrations.ofKind event.kind) none (w.announced event), dead, ?_, ?_, sub, ?_, ?_, ?_⟩
  · rw [← numbers]
    rfl
  · have announced : (w.act (.announce event)).Known names :=
      known.act (d := .announce event) trivial
    exact ⟨trivial, deliverDeeds_lawful tells lawful announced event registered none⟩
  · exact fun r hr => (gone r hr).append_left [.announce event]
  · exact fun r hr spared => (met r hr spared).append_left [.announce event]
  · intro r hr numbered
    obtain ⟨r', hr', same⟩ := List.mem_map.1 numbered
    have there : r' ∈ w.registrations.entries := (List.mem_filter.1 (sub.subset hr')).1
    rw [((Renewed.refl w).after _).eq_of_number known.ordered there hr same.symm]
    exact hr'

theorem publishDeeds_lawful {names : List String} {w : World} (known : w.Known names)
    (event : Event) : LawfulRow names w (publishDeeds call account w event) := by
  obtain ⟨front, dead, deeds, row, -, gone, -, identified⟩ :=
    publishDeeds_eq tells lawful known event
  rw [deeds]
  refine lawfulRow_append.2 ⟨row, ?_, trivial⟩
  intro r hr numbered
  exact known.dead_after row (gone r (identified r hr numbered))

theorem commandDeeds_lawful {names : List String} {w : World} (known : w.Known names)
    (command : Command) : LawfulRow names w (commandDeeds call account w command) := by
  have resolved (handler : Handler) : LawfulRow names w (w.resolveDeeds handler) := by
    cases handler with
    | function name => trivial
    | method listener name =>
        unfold resolveDeeds
        dsimp only
        split
        · trivial
        · exact ⟨trivial, trivial⟩
  cases command with
  | subscribe kind handler =>
      refine lawfulRow_append.2 ⟨resolved handler, ?_, trivial⟩
      rw [after_resolveDeeds]
      exact w.resolve_owns handler
  | unsubscribe kind handler => exact lawfulRow_append.2 ⟨resolved handler, trivial, trivial⟩
  | publish event => exact publishDeeds_lawful tells lawful known event
  | clear => exact ⟨trivial, trivial⟩
  | drop listener => exact ⟨trivial, trivial⟩
  | fail => trivial

theorem performDeeds_lawful {names : List String} {w : World} (known : w.Known names)
    (commands : List Command) : LawfulRow names w (performDeeds call account commands w) := by
  induction commands generalizing names w with
  | nil => trivial
  | cons command rest ih =>
      by_cases fails : command = .fail
      · rw [fails]
        trivial
      · have row := commandDeeds_lawful tells lawful known command
        rw [performDeeds_cons call account fails, ← after_commandDeeds tells]
        exact lawfulRow_append.2 ⟨row, ih (known.after row)⟩

end Lawful

theorem callDeeds_lawful (depth : Nat) : TellsLawfully (callDeeds depth) := by
  induction depth with
  | zero => exact fun names w target event known => ⟨trivial, trivial⟩
  | succ depth ih =>
      intro names w target event known
      have known : ((w.noted target event).act (.takeScript target.label)).Known names :=
        (known.act (d := .note target event) trivial).act (d := .takeScript target.label) trivial
      have taken : (w.noted target event).act (.takeScript target.label) =
          ((w.noted target event).takeScript target.label).2 := (takeScript_eq _ _).symm
      refine ⟨trivial, trivial, ?_⟩
      change LawfulRow names ((w.noted target event).act (.takeScript target.label))
        (performDeeds _ _ _ ((w.noted target event).takeScript target.label).2)
      rw [taken] at known ⊢
      exact performDeeds_lawful (callDeeds_tells depth) ih known _

theorem course_lawful {names : List String} {w : World} (known : w.Known names)
    (commands : List Command) : LawfulRow names w (w.course commands) := by
  induction commands generalizing names w with
  | nil => trivial
  | cons command rest ih =>
      have row := performDeeds_lawful (callDeeds_tells (w.scripted + 1))
        (callDeeds_lawful (w.scripted + 1)) known [command]
      have behind := known.after row
      rw [after_performDeeds (callDeeds_tells _)] at behind
      refine lawfulRow_append.2 ⟨row, ?_⟩
      rw [after_performDeeds (callDeeds_tells _)]
      exact ih behind

end World

end ActionEngine.Bus
