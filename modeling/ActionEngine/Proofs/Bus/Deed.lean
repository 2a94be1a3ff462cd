import ActionEngine.Proofs.Bus.History

/-!
# What is done on a bus, one thing at a time

Whatever handlers do while they are called, and however deep their calls are nested, a run of the
bus is a row of small deeds, each of which changes the world in one way. Every moment of the run
is the world behind some of them.
-/

namespace ActionEngine.Bus

inductive Deed where
  /-- A listener comes into being. -/
  | create (listener : String)
  | subscribe (kind : Event.Kind) (target : Target)
  | unsubscribe (kind : Event.Kind) (target : Target)
  | clear
  | drop (listener : String)
  /-- A publish begins. -/
  | announce (event : Event)
  /-- The turn of a registration comes; the handler called before it is let go. -/
  | reach (r : Registration) (previous : Option Nat)
  | note (target : Target) (event : Event)
  | takeScript (handler : String)
  /-- The call of a registration is over. -/
  | finish (r : Registration) (event : Event) (failed : Bool)
  /-- The last handler that a publish has called is let go. -/
  | release (previous : Option Nat)
  /-- A publish removes registrations. -/
  | prune (numbers : List Nat)
deriving DecidableEq

/-- What is done while a handler is called. -/
abbrev Account := World → Target → Event → List Deed

namespace World

def act (w : World) : Deed → World
  | .create listener =>
    { w with listeners := w.listeners ++ [(listener, w.nextObject)]
             nextObject := w.nextObject + 1 }
  | .subscribe kind target =>
    { w with registrations := w.registrations.add kind target
             log := w.log ++ subscribeRemark target.logName kind }
  | .unsubscribe kind target =>
    { w with registrations := w.registrations.remove w.canCall kind target }
  | .clear => { w with registrations := w.registrations.clear }
  | .drop listener => w.drop listener
  | .announce event => w.announced event
  | .reach r previous =>
    w.rehold previous (if w.canCall r.target then r.target.object? else none)
  | .note target event => w.noted target event
  | .takeScript handler => { w with scripts := (w.takeScript handler).2.scripts }
  | .finish r event failed =>
    { w with log := if failed then w.log ++ failureRemark r.target.logName event.kind else w.log }
  | .release previous => w.rehold previous none
  | .prune numbers => { w with registrations := w.registrations.prune numbers }

def after (w : World) (ds : List Deed) : World :=
  ds.foldl act w

/-! ### The deeds of a run -/

def resolveDeeds (w : World) : Handler → List Deed
  | .function _ => []
  | .method listener _ => if (w.listeners.lookup listener).isSome then [] else [.create listener]

def turnDeeds (call : Call) (account : Account) (event : Event) (r : Registration)
    (previous : Option Nat) (w : World) : List Deed :=
  let w := w.rehold previous r.target.object?
  .reach r previous :: (account w r.target event ++ [.finish r event (call w r.target event).2])

def deliverDeeds (call : Call) (account : Account) (event : Event) :
    List Registration → Option Nat → World → List Deed
  | [], previous, _ => [.release previous]
  | r :: rest, previous, w =>
    if w.canCall r.target then
      turnDeeds call account event r previous w ++
        deliverDeeds call account event rest r.target.object?
          ((w.rehold previous r.target.object?).called call event r)
    else .reach r previous :: deliverDeeds call account event rest none (w.rehold previous none)

/-- A publish changes the registrations by itself at its very end only. -/
def publishDeeds (call : Call) (account : Account) (w : World) (event : Event) : List Deed :=
  let rs := w.registrations.ofKind event.kind
  .announce event :: (deliverDeeds call account event rs none (w.announced event) ++
    [.prune (deliver call event rs none (w.announced event)).2])

def commandDeeds (call : Call) (account : Account) (w : World) : Command → List Deed
  | .subscribe kind handler => w.resolveDeeds handler ++ [.subscribe kind (w.resolve handler).2]
  | .unsubscribe kind handler => w.resolveDeeds handler ++ [.unsubscribe kind (w.resolve handler).2]
  | .publish event => publishDeeds call account w event
  | .clear => [.clear]
  | .drop listener => [.drop listener]
  | .fail => []

def performDeeds (call : Call) (account : Account) : List Command → World → List Deed
  | [], _ => []
  | .fail :: _, _ => []
  | command :: rest, w =>
    commandDeeds call account w command ++
      performDeeds call account rest (perform call [command] w).1

def callDeeds : Nat → Account
  | 0, _, target, event => [.note target event]
  | depth + 1, w, target, event =>
    let w := w.noted target event
    let (commands, w) := w.takeScript target.label
    .note target event :: .takeScript target.label ::
      performDeeds (callWithin depth) (callDeeds depth) commands w

def course (w : World) : List Command → List Deed
  | [] => []
  | command :: rest =>
    performDeeds (callWithin (w.scripted + 1)) (callDeeds (w.scripted + 1)) [command] w ++
      course (w.run command) rest

/-! ### A run is the row of its deeds -/

theorem after_cons (w : World) (d : Deed) (ds : List Deed) :
    w.after (d :: ds) = (w.act d).after ds := rfl

theorem after_append (w : World) (ds ds' : List Deed) :
    w.after (ds ++ ds') = (w.after ds).after ds' :=
  List.foldl_append

theorem after_resolveDeeds (w : World) (handler : Handler) :
    w.after (w.resolveDeeds handler) = (w.resolve handler).1 := by
  cases handler with
  | function name => rfl
  | method listener name =>
      unfold resolveDeeds resolve
      cases found : w.listeners.lookup listener with
      | none => simp only [found]; rfl
      | some object => simp only [found]; rfl

theorem takeScript_eq (w : World) (handler : String) :
    (w.takeScript handler).2 = { w with scripts := (w.takeScript handler).2.scripts } := by
  unfold takeScript
  split <;> rfl

theorem act_reach_of_canCall {w : World} {r : Registration} (alive : w.canCall r.target = true)
    (previous : Option Nat) :
    w.act (.reach r previous) = w.rehold previous r.target.object? :=
  congrArg (w.rehold previous) (if_pos alive)

theorem act_reach_of_not_canCall {w : World} {r : Registration}
    (gone : ¬w.canCall r.target = true) (previous : Option Nat) :
    w.act (.reach r previous) = w.rehold previous none :=
  congrArg (w.rehold previous) (if_neg gone)

/-- Commands behind one that does not fail. -/
theorem perform_cons (call : Call) {command : Command} (goes : command ≠ .fail)
    (rest : List Command) (w : World) :
    perform call (command :: rest) w = perform call rest (perform call [command] w).1 := by
  cases command with
  | fail => exact absurd rfl goes
  | _ => rfl

theorem performDeeds_cons (call : Call) (account : Account) {command : Command}
    (goes : command ≠ .fail) (rest : List Command) (w : World) :
    performDeeds call account (command :: rest) w =
      commandDeeds call account w command ++
        performDeeds call account rest (perform call [command] w).1 := by
  cases command with
  | fail => exact absurd rfl goes
  | _ => rfl

/-- Wherever a handler is called, its account leads to the world behind the call. -/
def TellsDeeds (call : Call) (account : Account) : Prop :=
  ∀ w target event, w.after (account w target event) = (call w target event).1

section Tells

variable {call : Call} {account : Account} (tells : TellsDeeds call account)
include tells

theorem after_turnDeeds {w : World} {r : Registration} (alive : w.canCall r.target = true)
    (event : Event) (previous : Option Nat) :
    w.after (turnDeeds call account event r previous w) =
      (w.rehold previous r.target.object?).called call event r := by
  unfold turnDeeds called
  rw [after_cons, after_append, act_reach_of_canCall alive, tells]
  cases (call (w.rehold previous r.target.object?) r.target event).2 <;> rfl

theorem after_deliverDeeds (event : Event) (rs : List Registration) (previous : Option Nat)
    (w : World) : w.after (deliverDeeds call account event rs previous w) =
      (deliver call event rs previous w).1 := by
  induction rs generalizing previous w with
  | nil => rfl
  | cons r rest ih =>
      unfold deliverDeeds
      by_cases alive : w.canCall r.target = true
      · rw [if_pos alive, deliver_cons_of_canCall call event rest previous alive, after_append,
          after_turnDeeds tells alive, ih]
      · rw [if_neg alive, deliver_cons_of_not_canCall call event rest previous alive, after_cons,
          act_reach_of_not_canCall alive, ih]

theorem after_publishDeeds (w : World) (event : Event) :
    w.after (publishDeeds call account w event) = w.publish call event := by
  unfold publishDeeds
  rw [after_cons, after_append]
  have announced : w.act (.announce event) = w.announced event := rfl
  rw [announced, after_deliverDeeds tells]
  rfl

theorem after_commandDeeds (w : World) (command : Command) :
    w.after (commandDeeds call account w command) = (perform call [command] w).1 := by
  cases command with
  | subscribe kind handler =>
      unfold commandDeeds
      rw [after_append, after_resolveDeeds]
      rfl
  | unsubscribe kind handler =>
      unfold commandDeeds
      rw [after_append, after_resolveDeeds]
      rfl
  | publish event => exact after_publishDeeds tells w event
  | _ => rfl

theorem after_performDeeds (commands : List Command) (w : World) :
    w.after (performDeeds call account commands w) = (perform call commands w).1 := by
  induction commands generalizing w with
  | nil => rfl
  | cons command rest ih =>
      by_cases fails : command = .fail
      · rw [fails]
        rfl
      · rw [performDeeds_cons call account fails, after_append, after_commandDeeds tells, ih]
        exact congrArg Prod.fst (perform_cons call fails rest w).symm

end Tells

theorem callDeeds_tells (depth : Nat) : TellsDeeds (callWithin depth) (callDeeds depth) := by
  induction depth with
  | zero => exact fun w target event => rfl
  | succ depth ih =>
      intro w target event
      have taken : (w.noted target event).act (.takeScript target.label) =
          ((w.noted target event).takeScript target.label).2 := (takeScript_eq _ _).symm
      have told : w.after (callDeeds (depth + 1) w target event) =
          ((w.noted target event).act (.takeScript target.label)).after
            (performDeeds (callWithin depth) (callDeeds depth)
              ((w.noted target event).takeScript target.label).1
              ((w.noted target event).takeScript target.label).2) := rfl
      rw [(callWithin_succ depth w target event).1, told, taken, after_performDeeds ih]

theorem after_course (w : World) (commands : List Command) :
    w.after (w.course commands) = w.runAll commands := by
  induction commands generalizing w with
  | nil => rfl
  | cons command rest ih =>
      unfold course
      rw [after_append, after_performDeeds (callDeeds_tells _)]
      exact ih (w.run command)

/-! ### What a publish gives back -/

/-- The call holds the same listeners afterwards as before. -/
def Call.GivesBack (call : Call) : Prop :=
  ∀ w target event, (call w target event).1.held = w.held

/-- Holding one more listener and letting it go again leaves those that were held. -/
theorem eraseP_rehold (held : List Nat) (previous next : Option Nat) :
    ((next.toList ++ held).eraseP fun object => previous = some object).eraseP
        (fun object => next = some object) =
      held.eraseP fun object => previous = some object := by
  cases next with
  | none => simp
  | some object =>
      by_cases same : previous = some object
      · subst same
        simp
      · simp [same]

section GivesBack

variable {call : Call} (gives : call.GivesBack)
include gives

theorem called_held (event : Event) (r : Registration) (w : World) :
    (w.called call event r).held = w.held := by
  unfold called
  split <;> exact gives w r.target event

theorem deliver_held (event : Event) (rs : List Registration) (previous : Option Nat) (w : World) :
    (deliver call event rs previous w).1.held =
      w.held.eraseP fun object => previous = some object := by
  induction rs generalizing previous w with
  | nil => rfl
  | cons r rest ih =>
      by_cases alive : w.canCall r.target = true
      · rw [deliver_cons_of_canCall call event rest previous alive, ih, called_held gives]
        exact eraseP_rehold w.held previous r.target.object?
      · rw [deliver_cons_of_not_canCall call event rest previous alive]
        exact (ih none _).trans (eraseP_rehold w.held previous none)

theorem publish_held (w : World) (event : Event) : (w.publish call event).held = w.held := by
  have given :=
    deliver_held gives event (w.registrations.ofKind event.kind) none (w.announced event)
  exact given.trans (List.eraseP_of_forall_not (by simp))

theorem perform_held (commands : List Command) (w : World) :
    (perform call commands w).1.held = w.held := by
  have resolved (w : World) (handler : Handler) : (w.resolve handler).1.held = w.held := by
    cases handler with
    | function name => rfl
    | method listener name =>
        unfold resolve
        dsimp only
        split <;> rfl
  induction commands generalizing w with
  | nil => rfl
  | cons command rest ih =>
      cases command with
      | fail => rfl
      | subscribe kind handler => exact (ih _).trans (resolved w handler)
      | unsubscribe kind handler => exact (ih _).trans (resolved w handler)
      | publish event => exact (ih _).trans (publish_held gives w event)
      | clear => exact ih _
      | drop listener => exact ih _

end GivesBack

/-- Calls within calls hold their listeners only as long as they last. -/
theorem callWithin_givesBack (depth : Nat) : Call.GivesBack (callWithin depth) := by
  induction depth with
  | zero => exact fun w target event => rfl
  | succ depth ih =>
      intro w target event
      rw [(callWithin_succ depth w target event).1, perform_held ih, takeScript_eq]
      rfl

end World

end ActionEngine.Bus
