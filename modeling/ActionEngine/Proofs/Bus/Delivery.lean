import ActionEngine.Proofs.Bus.Depth
import ActionEngine.Proofs.Bus.Order

/-!
# Publishes within publishes

Handlers publish while they are called, so that one publish is nested in the other. Each of
them, at whatever depth, gives a turn to the registrations that there are for its event when it
begins: to each of them once and in their order, whatever the handlers do in the meantime. A
registration whose listener is gone when its turn comes is passed over. Any other one is called,
and the script of its handler says what is published within the call: a failure ends that script
alone, and neither the delivery nor the script of the handler that has published.
-/

namespace ActionEngine.Bus

/-- A turn in the delivery of an event: the registration, the world in which its turn comes, and
    what happens while its handler is called. -/
structure Turn where
  registration : Registration
  world : World
  inner : List Moment

/-- The events that commands publish; a failure ends them. -/
def publishedBy : List Command → List Event
  | [] => []
  | .fail :: _ => []
  | .publish event :: rest => event :: publishedBy rest
  | _ :: rest => publishedBy rest

namespace Turn

def isCalled (t : Turn) : Bool :=
  t.world.canCall t.registration.target

/-- What the next script of the handler publishes. -/
def publishes (t : Turn) : List Event :=
  publishedBy (t.world.takeScript t.registration.target.label).1

def moments (event : Event) (t : Turn) : List Moment :=
  .reached t.world t.registration event :: t.inner

def inside (outer : Registration) (t : Turn) : Turn :=
  { t with inner := t.inner.map (Moment.inside outer) }

end Turn

/-- While some registrations are being called, the events are published one after the other, and
    each of them is delivered in turns before the next one is published. -/
inductive Delivered : List Registration → List Event → List Moment → Prop
  | nil (within : List Registration) : Delivered within [] []
  | publish {within : List Registration} {w : World} {event : Event} {events : List Event}
      {turns : List Turn} {h : List Moment}
      (registered : turns.map Turn.registration = w.registrations.ofKind event.kind)
      (once : (turns.map Turn.registration).Nodup)
      (called : ∀ t ∈ turns, t.isCalled = true →
        Delivered (t.registration :: within) t.publishes t.inner)
      (passed : ∀ t ∈ turns, t.isCalled = false → t.inner = [])
      (rest : Delivered within events h) :
      Delivered within (event :: events)
        (.published w within event :: (turns.flatMap (Turn.moments event) ++ h))

/-! ### How deliveries combine -/

theorem publishedBy_cons_of_quiet {command : Command} (quiet : command.Quiet)
    (rest : List Command) : publishedBy (command :: rest) = publishedBy rest := by
  cases command with
  | publish event => exact quiet.elim
  | fail => exact quiet.elim
  | _ => rfl

namespace Delivered

variable {within : List Registration} {events events' : List Event} {h h' : List Moment}

theorem append (first : Delivered within events h) (later : Delivered within events' h') :
    Delivered within (events ++ events') (h ++ h') := by
  induction first with
  | nil => exact later
  | publish registered once called passed _ _ ih =>
      rw [List.cons_append, List.cons_append, List.append_assoc]
      exact .publish registered once called passed (ih later)

theorem map_flatMap_moments (outer : Registration) (event : Event) (turns : List Turn) :
    (turns.flatMap (Turn.moments event)).map (Moment.inside outer) =
      (turns.map (Turn.inside outer)).flatMap (Turn.moments event) := by
  rw [List.map_flatMap, List.flatMap_map]
  rfl

/-- The same happens while one more registration is being called around it. -/
theorem inside (outer : Registration) (delivered : Delivered within events h) :
    Delivered (within ++ [outer]) events (h.map (Moment.inside outer)) := by
  induction delivered with
  | nil => exact .nil _
  | @publish within w event events turns h registered once _ passed _ called rest =>
      have kept : (turns.map (Turn.inside outer)).map Turn.registration =
          turns.map Turn.registration := by
        rw [List.map_map]
        rfl
      rw [List.map_cons, List.map_append, map_flatMap_moments]
      refine .publish (kept.trans registered) (kept ▸ once) ?_ ?_ rest
      · exact List.forall_mem_map.2 fun t ht alive => called t ht alive
      · exact List.forall_mem_map.2 fun t ht gone => congrArg _ (passed t ht gone)

end Delivered

namespace World

/-! ### What the bus makes of it -/

/-- Registrations are in order, and the scripted calls that are left fit into the depth. -/
def Fits (depth : Nat) (w : World) : Prop :=
  w.registrations.Ordered ∧ w.scripted ≤ depth

theorem fits_kept (depth : Nat) : KeptByBus (Fits depth) :=
  ordered_kept.and (scripted_kept depth)

/-- The script that a handler takes is told by the scripts alone. -/
theorem takeScript_congr (w w' : World) (same : w'.scripts = w.scripts) {handler : String} :
    (w'.takeScript handler).1 = (w.takeScript handler).1 := by
  unfold takeScript
  rw [same]
  split <;> rfl

/-- Whenever a handler is called, what its script publishes is delivered. -/
def TellsDelivered (story : Story) (depth : Nat) : Prop :=
  ∀ w target event, Fits depth w →
    Delivered [] (publishedBy (w.takeScript target.label).1) (story w target event)

section Delivered

variable {call : Call} {story : Story} {depth : Nat} (keeps : call.Keeps (Fits depth))
  (tells : TellsDelivered story depth) {w : World}
include keeps tells

theorem deliverStory_turns (fits : Fits depth w) (event : Event) (rs : List Registration)
    (previous : Option Nat) :
    ∃ turns : List Turn,
      deliverStory call story event rs previous w = turns.flatMap (Turn.moments event) ∧
      turns.map Turn.registration = rs ∧
      (∀ t ∈ turns, t.isCalled = true → Delivered [t.registration] t.publishes t.inner) ∧
      ∀ t ∈ turns, t.isCalled = false → t.inner = [] := by
  induction rs generalizing previous w with
  | nil => exact ⟨[], rfl, rfl, by simp, by simp⟩
  | cons r rest ih =>
      by_cases alive : w.canCall r.target = true
      · have reheld : Fits depth (w.rehold previous r.target.object?) :=
          (fits_kept depth).reheld w previous _ fits
        obtain ⟨turns, told, registered, called, passed⟩ :=
          ih ((fits_kept depth).called keeps reheld event r) r.target.object?
        have turn := (tells _ r.target event reheld).inside r
        rw [takeScript_congr w (w.rehold previous r.target.object?) rfl] at turn
        refine ⟨⟨r, w, (story (w.rehold previous r.target.object?) r.target event).map
          (Moment.inside r)⟩ :: turns, ?_, by rw [List.map_cons, registered], ?_, ?_⟩
        · rw [deliverStory_cons_of_canCall call story event rest previous alive, told]
          rfl
        · exact List.forall_mem_cons.2 ⟨fun _ => turn, called⟩
        · exact List.forall_mem_cons.2 ⟨(nomatch alive.symm.trans ·), passed⟩
      · obtain ⟨turns, told, registered, called, passed⟩ :=
          ih ((fits_kept depth).reheld w previous none fits) none
        refine ⟨⟨r, w, []⟩ :: turns, ?_, by rw [List.map_cons, registered], ?_, ?_⟩
        · rw [deliverStory_cons_of_not_canCall call story event rest previous alive, told]
          rfl
        · exact List.forall_mem_cons.2 ⟨fun now => absurd now alive, called⟩
        · exact List.forall_mem_cons.2 ⟨fun _ => rfl, passed⟩

theorem publishStory_delivered (fits : Fits depth w) (event : Event) :
    Delivered [] [event] (publishStory call story w event) := by
  obtain ⟨turns, told, registered, called, passed⟩ := deliverStory_turns keeps tells
    ((fits_kept depth).remarked w _ fits) event (w.registrations.ofKind event.kind) none
  have once : (w.registrations.ofKind event.kind).Nodup := by
    refine (fits.1.ofKind event.kind).imp ?_
    rintro r r' before rfl
    exact Nat.lt_irrefl _ before
  unfold publishStory
  rw [show deliverStory call story event _ none (w.announced event) = _ from told,
    ← List.append_nil (turns.flatMap _)]
  exact .publish registered (registered ▸ once) called passed (.nil [])

theorem performStory_delivered (fits : Fits depth w) (commands : List Command) :
    Delivered [] (publishedBy commands) (performStory call story commands w) := by
  induction commands generalizing w with
  | nil => exact .nil []
  | cons command rest ih =>
      rcases command.quiet_or with quiet | rfl | ⟨event, rfl⟩
      · rw [publishedBy_cons_of_quiet quiet, (perform_cons_of_quiet call story quiet rest w).2]
        exact ih ((fits_kept depth).performed w call command quiet fits)
      · exact .nil []
      · exact (publishStory_delivered keeps tells fits event).append
          (ih ((fits_kept depth).publish keeps fits event))

end Delivered

/-- Every call uses up a scripted call or does nothing, so the depth suffices. -/
theorem callStory_delivered (depth : Nat) : TellsDelivered (callStory depth) depth := by
  induction depth with
  | zero =>
      intro w target event fits
      have idle := (takeScript_or w target.label).resolve_right fun used => by
        have := fits.2
        omega
      rw [idle]
      exact .nil []
  | succ depth ih =>
      intro w target event fits
      rw [(callWithin_succ depth w target event).2,
        ← takeScript_congr w (w.noted target event) rfl]
      rcases takeScript_or (w.noted target event) target.label with idle | used
      · rw [idle]
        exact .nil []
      · have ordered := ordered_kept.scripted _ target.label
          (ordered_kept.noted w target event fits.1)
        rw [noted_scripted] at used
        exact performStory_delivered ((fits_kept depth).callWithin depth) ih
          ⟨ordered, by have := fits.2; omega⟩ _

theorem history_delivered {w : World} (ordered : w.registrations.Ordered)
    (commands : List Command) :
    Delivered [] (commands.flatMap fun command => publishedBy [command]) (w.history commands) := by
  induction commands generalizing w with
  | nil => exact .nil []
  | cons command rest ih =>
      rw [List.flatMap_cons]
      exact (performStory_delivered ((fits_kept _).callWithin _) (callStory_delivered _)
        ⟨ordered, Nat.le_succ _⟩ [command]).append (ih (ordered_kept.run ordered command))

/-- Whatever the handlers do, every publish at every depth gives a turn to exactly the
    registrations for its event that there are when it begins, and the calls that are made are
    those of the turns at which the listener is not gone. -/
theorem publishes_reach_registered (scripts : List Script) (setup commands : List Command) :
    ((runAll { scripts } setup).runAll commands).calls =
        (runAll { scripts } setup).calls ++
          callsOf (history (runAll { scripts } setup) commands) ∧
      Delivered [] (commands.flatMap fun command => publishedBy [command])
        (history (runAll { scripts } setup) commands) :=
  ⟨runAll_calls _ commands,
    history_delivered (ordered_kept.runAll Registrations.Ordered.empty setup) commands⟩

/-- The first handler removes the second one, registers a third one and fails: the second one is
    called all the same, and the third one is not. -/
example : ((runAll { scripts := [⟨"a", [[.unsubscribe .processingChanged (.function "b"),
      .subscribe .processingChanged (.function "c"), .fail]]⟩] } twoFunctions).runAll
      [.publish (.processingChanged true)]).calls =
    [("a", .processingChanged true), ("b", .processingChanged true)] := by
  decide +kernel

end World

end ActionEngine.Bus
