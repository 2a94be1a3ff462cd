import ActionEngine.Proofs.Bus.Liveness

/-!
# A publish removes only the dead

Beside the bus a ledger is kept, from which a publish removes nothing. Whatever is alive stands in
both, in the same order, at every moment of every run. And where no listener is dropped while a
publish goes on, nothing dead is left behind it.
-/

namespace ActionEngine.Bus

theorem Target.object?_of_weakObject? {target : Target} {object : Nat}
    (weak : target.weakObject? = some object) : target.object? = some object := by
  cases target with
  | function name => cases weak
  | method _ listener name loose =>
      cases loose with
      | false => cases weak
      | true => exact weak

/-! ### The ledger -/

def Deed.entered (w : World) (ledger : Registrations) : Deed → Registrations
  | subscribe kind target => ledger.add kind target
  | unsubscribe kind target => ledger.remove w.canCall kind target
  | clear => ledger.clear
  | _ => ledger

namespace World

def ledgerAfter (w : World) (ledger : Registrations) : List Deed → Registrations
  | [] => ledger
  | d :: ds => ledgerAfter (w.act d) (d.entered w ledger) ds

def live (w : World) (rs : Registrations) (kind : Event.Kind) : List Registration :=
  (rs.ofKind kind).filter fun r => w.canCall r.target

/-- The world and its ledger at a moment of a run, behind so many of its deeds. -/
def moment (w : World) (commands : List Command) (n : Nat) : World :=
  w.after ((w.course commands).take n)

def ledgerAt (w : World) (commands : List Command) (n : Nat) : Registrations :=
  w.ledgerAfter w.registrations ((w.course commands).take n)

/-- The same registrations are alive in the ledger and on the bus. -/
structure Matches (names : List String) (w : World) (ledger : Registrations) : Prop where
  known : ∀ r ∈ ledger.entries, r.target.Known names
  next : ledger.next = w.registrations.next
  alive : (ledger.entries.filter fun r => w.canCall r.target) =
    w.registrations.entries.filter fun r => w.canCall r.target

theorem live_eq (w : World) (rs : Registrations) (kind : Event.Kind) :
    w.live rs kind =
      (rs.entries.filter fun r => w.canCall r.target).filter fun r => r.kind = kind :=
  List.filter_comm _ _ _

section Act

variable {names : List String} {w : World} {d : Deed} {ledger : Registrations}

/-- What is alive behind a deed was alive before it. -/
theorem Known.filter_act (known : w.Known names) (lawful : d.Lawful names w)
    {rs : List Registration} (registered : ∀ r ∈ rs, r.target.Known names) :
    (rs.filter fun r => (w.act d).canCall r.target) =
      (rs.filter fun r => w.canCall r.target).filter fun r => (w.act d).canCall r.target := by
  rw [List.filter_filter]
  refine List.filter_congr fun r hr => ?_
  by_cases alive : (w.act d).canCall r.target = true
  · rw [alive, known.canCall_of_act lawful (registered r hr) alive]
    rfl
  · simp [alive]

/-- Where a deed changes no registration, dying changes the ledger as it changes the bus. -/
theorem Matches.dying (same : Matches names w ledger) (known : w.Known names)
    (lawful : d.Lawful names w) :
    (ledger.entries.filter fun r => (w.act d).canCall r.target) =
      w.registrations.entries.filter fun r => (w.act d).canCall r.target := by
  rw [known.filter_act lawful same.known, same.alive, ← known.filter_act lawful known.registered]

theorem Matches.act (same : Matches names w ledger) (known : w.Known names)
    (lawful : d.Lawful names w) :
    Matches (d.naming names) (w.act d) (d.entered w ledger) := by
  cases d with
  | subscribe kind target =>
      refine ⟨?_, congrArg (· + 1) same.next, ?_⟩
      · intro r hr
        rcases List.mem_append.1 hr with hr | hr
        · exact same.known r hr
        · rw [List.mem_singleton.1 hr]
          exact known.of_owns lawful
      · change List.filter (fun r => w.canCall r.target) (ledger.entries ++ [_]) =
          List.filter (fun r => w.canCall r.target) (w.registrations.entries ++ [_])
        rw [List.filter_append, List.filter_append, same.alive, same.next]
  | unsubscribe kind target =>
      refine ⟨fun r hr => same.known r (List.mem_of_mem_eraseP hr), same.next, ?_⟩
      -- Only what is alive is unregistered, so that it goes from both in the same place.
      have gone (rs : List Registration) :
          List.filter (fun r => w.canCall r.target)
              (rs.eraseP fun r => r.kind = kind ∧ r.target = target ∧ w.canCall r.target) =
            (rs.filter fun r => w.canCall r.target).eraseP
              fun r => r.kind = kind ∧ r.target = target := by
        rw [List.eraseP_filter]
        congr 2
        funext r
        simp [Bool.and_assoc]
      exact (gone _).trans ((congrArg _ same.alive).trans (gone _).symm)
  | clear => exact ⟨fun r hr => absurd hr List.not_mem_nil, same.next, rfl⟩
  | prune numbers =>
      refine ⟨same.known, same.next, same.alive.trans ?_⟩
      change List.filter (fun r => w.canCall r.target) w.registrations.entries =
        List.filter (fun r => w.canCall r.target) (w.registrations.entries.filter _)
      rw [List.filter_filter]
      refine List.filter_congr fun r hr => ?_
      by_cases numbered : r.number ∈ numbers
      · simp [lawful r hr numbered]
      · simp [numbered]
  | create listener =>
      exact ⟨fun r hr => (same.known r hr).mono _, same.next, same.dying known lawful⟩
  | _ => exact ⟨same.known, same.next, same.dying known lawful⟩

end Act

theorem Matches.after {names : List String} {w : World} {ds : List Deed} {ledger : Registrations}
    (same : Matches names w ledger) (known : w.Known names) (lawful : LawfulRow names w ds) :
    Matches (namesAfter names ds) (w.after ds) (w.ledgerAfter ledger ds) := by
  -- On the deeds: the ledger goes with the bus from one to the next.
  induction ds generalizing names w ledger with
  | nil => exact same
  | cons d ds ih => exact ih (same.act known lawful.1) (known.act lawful.1) lawful.2

theorem Matches.live_eq {names : List String} {w : World} {ledger : Registrations}
    (same : Matches names w ledger) (kind : Event.Kind) :
    w.live ledger kind = w.live w.registrations kind := by
  rw [World.live_eq, World.live_eq, same.alive]

/-! ### Where no listener is dropped -/

/-- What is known to be alive since an earlier world, while nothing is dropped: a listener that is
    held now was held then or is with its owner, unless its methods are kept like functions, and
    what has been registered since belongs to a listener that is with its owner. -/
structure Undropped (names : List String) (w₀ w : World) : Prop where
  held : ∀ object ∈ w.held, object ∈ w₀.held ∨ (∃ l ∈ w.listeners, l.2 = object) ∨
    ∃ target : Target, target.Known names ∧ target.object? = some object ∧
      target.weakObject? = none
  registered : ∀ r ∈ w.registrations.entries, r ∈ w₀.registrations.entries ∨ w.Owns r.target

namespace Undropped

variable {names : List String} {w₀ w : World} {d : Deed}

theorem refl (names : List String) (w : World) : Undropped names w w :=
  ⟨fun _ held => .inl held, fun _ hr => .inl hr⟩

/-- A deed that changes neither registrations nor what is held, and drops nothing. -/
theorem of_act (undropped : Undropped names w₀ w) (stays : ∀ listener, d ≠ .drop listener)
    (held : ∀ object ∈ (w.act d).held, object ∈ w.held)
    (registered : ∀ r ∈ (w.act d).registrations.entries, r ∈ w.registrations.entries) :
    Undropped (d.naming names) w₀ (w.act d) := by
  constructor
  · intro object there
    rcases undropped.held object (held object there) with
      before | ⟨l, hl, same⟩ | ⟨target, hers, kept⟩
    · exact .inl before
    · exact .inr (.inl ⟨l, mem_listeners_act stays hl, same⟩)
    · exact .inr (.inr ⟨target, hers.naming d, kept⟩)
  · intro r hr
    rcases undropped.registered r (registered r hr) with before | owns
    · exact .inl before
    · exact .inr (owns.mono fun l hl => mem_listeners_act stays hl)

theorem act (undropped : Undropped names w₀ w) (lawful : d.Lawful names w)
    (stays : ∀ listener, d ≠ .drop listener) : Undropped (d.naming names) w₀ (w.act d) := by
  cases d with
  | subscribe kind target =>
      refine ⟨undropped.held, ?_⟩
      intro r hr
      rcases List.mem_append.1 hr with hr | hr
      · exact undropped.registered r hr
      · rw [List.mem_singleton.1 hr]
        exact .inr lawful
  | reach r previous =>
      refine ⟨?_, undropped.registered⟩
      intro object there
      rcases List.mem_append.1 (List.mem_of_mem_eraseP there) with next | held
      · -- Held from now on is what is about to be called.
        split at next
        · have same : r.target.object? = some object := by simpa using next
          cases loose : r.target.weakObject? with
          | none => exact .inr (.inr ⟨r.target, lawful, same, loose⟩)
          | some object' =>
              rw [Target.object?_of_weakObject? loose] at same
              cases same
              rcases isAlive_iff.1 (canCall_iff.1 ‹_› object loose) with owned | held
              · exact .inr (.inl owned)
              · exact undropped.held object held
        · cases next
      · exact undropped.held object held
  | release previous =>
      exact undropped.of_act stays (fun _ held => List.mem_of_mem_eraseP held) fun _ hr => hr
  | unsubscribe kind target =>
      exact undropped.of_act stays (fun _ held => held) fun _ hr => List.mem_of_mem_eraseP hr
  | clear =>
      exact undropped.of_act stays (fun _ held => held) fun _ hr => absurd hr List.not_mem_nil
  | prune numbers =>
      exact undropped.of_act stays (fun _ held => held) fun _ hr => (List.mem_filter.1 hr).1
  | _ => exact undropped.of_act stays (fun _ held => held) fun _ hr => hr

theorem after {ds : List Deed} (undropped : Undropped names w₀ w) (lawful : LawfulRow names w ds)
    (stays : ∀ listener, .drop listener ∉ ds) :
    Undropped (namesAfter names ds) w₀ (w.after ds) := by
  induction ds generalizing names w with
  | nil => exact undropped
  | cons d ds ih =>
      have first : ∀ listener, d ≠ .drop listener := by
        intro listener same
        exact stays listener (same ▸ List.mem_cons_self)
      exact ih (undropped.act lawful.1 first) lawful.2
        fun listener hd => stays listener (List.mem_cons_of_mem _ hd)

/-- A handler that can be called can be called as long as its listener's owner keeps the listener
    and the world holds what it held at first. -/
theorem canCall {w' : World} {target : Target} (undropped : Undropped names w₀ w)
    (hers : target.Known names) (alive : w.canCall target = true)
    (listeners : ∀ l ∈ w.listeners, l ∈ w'.listeners) (held : w'.held = w₀.held) :
    w'.canCall target = true := by
  rw [canCall_iff] at alive ⊢
  intro object weak
  rcases isAlive_iff.1 (alive object weak) with ⟨l, hl, same⟩ | there
  · exact isAlive_iff.2 (.inl ⟨l, listeners l hl, same⟩)
  · rcases undropped.held object there with before | ⟨l, hl, same⟩ | ⟨target', hers', same, strong⟩
    · exact isAlive_iff.2 (.inr (held ▸ before))
    · exact isAlive_iff.2 (.inl ⟨l, listeners l hl, same⟩)
    · rw [hers.weakObject?_eq hers' weak same] at strong
      cases strong

end Undropped

theorem mem_listeners_after {w : World} {ds : List Deed} (stays : ∀ listener, .drop listener ∉ ds)
    {l : String × Nat} (hl : l ∈ w.listeners) : l ∈ (w.after ds).listeners := by
  induction ds generalizing w with
  | nil => exact hl
  | cons d ds ih =>
      refine ih (fun listener hd => stays listener (List.mem_cons_of_mem _ hd)) ?_
      refine mem_listeners_act (fun listener same => ?_) hl
      exact stays listener (same ▸ List.mem_cons_self)

/-- What could be called at its turn can be called when everything held since is given back. -/
theorem canCall_after_of_met {names : List String} {w : World} {ds : List Deed}
    (lawful : LawfulRow names w ds)
    (stays : ∀ listener, .drop listener ∉ ds) (given : (w.after ds).held = w.held)
    {r : Registration} (hers : r.target.Known names) (met : Met w ds r true) :
    (w.after ds).canCall r.target = true := by
  obtain ⟨before, previous, rest, rfl, alive⟩ := met
  have undropped := (Undropped.refl names w).after (lawfulRow_append.1 lawful).1
    fun listener hd => stays listener (List.mem_append_left _ hd)
  refine undropped.canCall (known_namesAfter hers before) alive ?_ given
  intro l hl
  rw [after_append]
  exact mem_listeners_after (fun listener hd => stays listener (List.mem_append_right _ hd)) hl

/-! ### What a publish removes -/

/-- A publish comes to its end behind the deeds in `front` and removes the registrations in `dead`
    then. -/
structure Prunes (depth : Nat) (w : World) (event : Event) (front : List Deed)
    (dead : List Registration) : Prop where
  deeds : publishDeeds (callWithin depth) (callDeeds depth) w event =
    front ++ [.prune (dead.map Registration.number)]
  found : dead.Sublist (w.registrations.ofKind event.kind)
  once : dead.Nodup
  gone : ∀ r ∈ dead, Met w front r false
  removed : (w.publish (callWithin depth) event).registrations.entries =
    (w.after front).registrations.entries.filter (· ∉ dead)
  /-- Where no listener is dropped, nothing dead is left. -/
  tidy : (∀ listener, .drop listener ∉ front) →
    let w' := w.publish (callWithin depth) event
    (∀ r ∈ w'.registrations.ofKind event.kind, w'.canCall r.target = true) ∧
      w'.registrations.count event.kind = (w'.live w'.registrations event.kind).length

theorem Known.prunes {names : List String} {w : World} (known : w.Known names) (depth : Nat)
    (event : Event) : ∃ front dead, Prunes depth w event front dead := by
  obtain ⟨front, dead, deeds, lawful, found, gone, met, identified⟩ :=
    publishDeeds_eq (callDeeds_tells depth) (callDeeds_lawful depth) known event
  have behind : w.publish (callWithin depth) event =
      (w.after front).act (.prune (dead.map Registration.number)) := by
    rw [← after_publishDeeds (callDeeds_tells depth), deeds, after_append]
    rfl
  have apart : (w.registrations.ofKind event.kind).Nodup :=
    (known.ordered.ofKind event.kind).imp fun below same => by
      rw [same] at below
      exact Nat.lt_irrefl _ below
  have removed : (w.publish (callWithin depth) event).registrations.entries =
      (w.after front).registrations.entries.filter (· ∉ dead) := by
    rw [behind]
    refine List.filter_congr fun r hr => ?_
    by_cases numbered : r.number ∈ dead.map Registration.number
    · simp [numbered, identified r hr numbered]
    · have spared : r ∉ dead := fun h => numbered (List.mem_map_of_mem h)
      simp [numbered, spared]
  -- What is left was found alive at its turn, or registered since by somebody who owns it.
  have tidy (stays : ∀ listener, .drop listener ∉ front) : ∀ r ∈
      (w.publish (callWithin depth) event).registrations.ofKind event.kind,
      (w.publish (callWithin depth) event).canCall r.target = true := by
    intro r hr
    have given : (w.after front).held = w.held := by
      have given := publish_held (callWithin_givesBack depth) w event
      rw [behind] at given
      exact given
    obtain ⟨there, kind⟩ := List.mem_filter.1 hr
    rw [removed] at there
    obtain ⟨there, spared⟩ := List.mem_filter.1 there
    rw [behind]
    change (w.after front).canCall r.target = true
    rcases ((Undropped.refl names w).after lawful stays).registered r there with before | owns
    · have hr : r ∈ w.registrations.ofKind event.kind := List.mem_filter.2 ⟨before, kind⟩
      exact canCall_after_of_met lawful stays given (known.registered r before)
        (met r hr (by simpa using spared))
    · exact canCall_of_owns owns
  refine ⟨front, dead, deeds, found, found.nodup apart, gone, removed, fun stays => ?_⟩
  refine ⟨tidy stays, congrArg List.length (List.filter_eq_self.2 ?_).symm⟩
  exact tidy stays

/-- At every moment of every run what is alive on the bus is what is alive in the ledger; what is
    removed then by a publish is dead; and a publish that begins then, however deep in others,
    removes what it finds dead, and that once. -/
theorem publish_spares_the_living (scripts : List Script) (commands : List Command) :
    after { scripts } (course { scripts } commands) = runAll { scripts } commands ∧
      ∀ n, let w := moment { scripts } commands n
        (∀ kind, w.live w.registrations kind = w.live (ledgerAt { scripts } commands n) kind) ∧
        (∀ numbers, (course { scripts } commands)[n]? = some (.prune numbers) →
          ∀ r ∈ w.registrations.entries, r.number ∈ numbers → w.canCall r.target = false) ∧
        ∀ depth event, ∃ front dead, Prunes depth w event front dead := by
  refine ⟨after_course _ _, fun n => ?_⟩
  have known : Known [] { scripts } :=
    ⟨rfl, fun l hl => absurd hl List.not_mem_nil, fun r hr => absurd hr List.not_mem_nil,
      .empty⟩
  have same : Matches [] { scripts } ({} : Registrations) :=
    ⟨fun r hr => absurd hr List.not_mem_nil, rfl, rfl⟩
  have whole := course_lawful known commands
  -- The deeds up to this moment have led here, and the next one is lawful in their turn.
  rw [← List.take_append_drop n (course { scripts } commands)] at whole
  obtain ⟨lawful, onwards⟩ := lawfulRow_append.1 whole
  refine ⟨?_, ?_, ?_⟩
  · intro kind
    exact ((same.after known lawful).live_eq kind).symm
  · intro numbers next
    obtain ⟨there, next⟩ := List.getElem?_eq_some_iff.1 next
    rw [List.drop_eq_getElem_cons there, next] at onwards
    exact onwards.1
  · intro depth event
    exact (known.after lawful).prunes depth event

/-- A listener with two registrations and a function between them; the listener is dropped. -/
def listenerGone : List Command :=
  [.subscribe .plain (.method "L" "on_event"), .subscribe .plain (.function "f"),
    .subscribe .plain (.method "L" "on_event"), .drop "L", .publish .plain]

/-- The publish removes both registrations at its end and leaves the one that is alive. -/
theorem listenerGone_pruned :
    let w := (moment {} listenerGone 5).publish (callWithin 1) .plain
    (∀ r ∈ w.registrations.ofKind .plain, w.canCall r.target = true) ∧
      w.registrations.count .plain = (w.live w.registrations .plain).length ∧
      w.registrations.count .plain = 1 ∧
      ∀ r ∈ (moment {} listenerGone 13).registrations.entries, r.number ∈ [0, 2] →
        (moment {} listenerGone 13).canCall r.target = false := by
  obtain ⟨front, dead, pruned⟩ := ((publish_spares_the_living [] listenerGone).2 5).2.2 1 .plain
  have undropped : ∀ listener, .drop listener ∉ front := by
    intro listener hd
    have hd : Deed.drop listener ∈
        publishDeeds (callWithin 1) (callDeeds 1) (moment {} listenerGone 5) .plain := by
      rw [pruned.deeds]
      exact List.mem_append_left _ hd
    have none : (publishDeeds (callWithin 1) (callDeeds 1) (moment {} listenerGone 5) .plain).all
        (fun d => match d with | .drop _ => false | _ => true) = true := by
      decide +kernel
    cases List.all_eq_true.1 none _ hd
  obtain ⟨tidy, counted⟩ := pruned.tidy undropped
  refine ⟨tidy, counted, by decide +kernel, ?_⟩
  exact ((publish_spares_the_living [] listenerGone).2 13).2.1 [0, 2] (by decide +kernel)

end World

end ActionEngine.Bus
