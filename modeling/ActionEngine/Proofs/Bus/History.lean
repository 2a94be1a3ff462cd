import ActionEngine.Bus.World

/-!
# What happens on a bus

Handlers publish while they are called, so that one event can be published in the middle of
the delivery of another one. The history of a bus lists every event that is published and every
turn of a registration, in the order in which they happen, each with the world at that moment.
It follows the operations of the bus step by step, and the calls that it tells of are the calls
that are made.
-/

namespace ActionEngine.Bus

/-- A moment in the history of a bus: an event is published, while some registrations are being
    called, the innermost first; or the turn of a registration has come in the delivery of an
    event. -/
inductive Moment where
  | published (w : World) (within : List Registration) (event : Event)
  | reached (w : World) (r : Registration) (event : Event)

namespace Moment

def world : Moment → World
  | published w .. => w
  | reached w .. => w

def inside (outer : Registration) : Moment → Moment
  | published w within event => published w (within ++ [outer]) event
  | reached w r event => reached w r event

/-- The call that is made: a registration whose handler is gone is passed over. -/
def call? : Moment → Option (String × Event)
  | published .. => none
  | reached w r event => if w.canCall r.target then some (r.target.label, event) else none

def published? (kind : Event.Kind) : Moment → Option Event
  | published _ _ event => if event.kind = kind then some event else none
  | reached .. => none

def received? (r : Registration) : Moment → Option Event
  | published .. => none
  | reached w r' event => if r' = r ∧ w.canCall r.target then some event else none

@[simp] theorem world_inside (outer : Registration) (m : Moment) :
    (m.inside outer).world = m.world := by
  cases m <;> rfl

@[simp] theorem call?_inside (outer : Registration) (m : Moment) :
    (m.inside outer).call? = m.call? := by
  cases m <;> rfl

@[simp] theorem published?_inside (kind : Event.Kind) (outer : Registration) (m : Moment) :
    (m.inside outer).published? kind = m.published? kind := by
  cases m <;> rfl

@[simp] theorem received?_inside (r outer : Registration) (m : Moment) :
    (m.inside outer).received? r = m.received? r := by
  cases m <;> rfl

end Moment

-- What is published and what a registration receives, in the order in which it happens.
def published (kind : Event.Kind) (h : List Moment) : List Event :=
  h.filterMap (Moment.published? kind)

def received (r : Registration) (h : List Moment) : List Event :=
  h.filterMap (Moment.received? r)

def callsOf (h : List Moment) : List (String × Event) :=
  h.filterMap Moment.call?

/-- What happens while a handler is called. -/
abbrev Story := World → Target → Event → List Moment

/-- The command calls no handler and does not fail. -/
def Command.Quiet : Command → Prop
  | publish _ => False
  | fail => False
  | _ => True

theorem Command.quiet_or (command : Command) :
    command.Quiet ∨ command = .fail ∨ ∃ event, command = .publish event := by
  cases command with
  | publish event => exact .inr (.inr ⟨event, rfl⟩)
  | fail => exact .inr (.inl rfl)
  | _ => exact .inl trivial

namespace World

/-! ### Stories

A story follows its operation branch by branch and takes the worlds from the operation itself.
It says at which moments something is published or a turn comes, and in which world. -/

/-- The world when the call of a registration is over. -/
def called (call : Call) (event : Event) (r : Registration) (w : World) : World :=
  if (call w r.target event).2 then
    { (call w r.target event).1 with
      log := (call w r.target event).1.log ++ failureRemark r.target.logName event.kind }
  else (call w r.target event).1

def deliverStory (call : Call) (story : Story) (event : Event) :
    List Registration → Option Nat → World → List Moment
  | [], _, _ => []
  | r :: rest, previous, w =>
    .reached w r event ::
      if w.canCall r.target then
        let w := w.rehold previous r.target.object?
        (story w r.target event).map (Moment.inside r) ++
          deliverStory call story event rest r.target.object? (w.called call event r)
      else deliverStory call story event rest none (w.rehold previous none)

def announced (w : World) (event : Event) : World :=
  { w with log := w.log ++ publishRemark event.kind (w.registrations.count event.kind) }

def publishStory (call : Call) (story : Story) (w : World) (event : Event) : List Moment :=
  .published w [] event ::
    deliverStory call story event (w.registrations.ofKind event.kind) none (w.announced event)

def performStory (call : Call) (story : Story) : List Command → World → List Moment
  | [], _ => []
  | .fail :: _, _ => []
  | .publish event :: rest, w =>
    publishStory call story w event ++ performStory call story rest (w.publish call event)
  | command :: rest, w => performStory call story rest (perform call [command] w).1

def callStory : Nat → Story
  | 0, _, _, _ => []
  | depth + 1, w, target, event =>
    let w := { w with calls := w.calls ++ [(target.label, event)] }
    let (commands, w) := w.takeScript target.label
    performStory (callWithin depth) (callStory depth) commands w

def noted (w : World) (target : Target) (event : Event) : World :=
  { w with calls := w.calls ++ [(target.label, event)] }

def runAll (w : World) (commands : List Command) : World :=
  commands.foldl run w

def history (w : World) : List Command → List Moment
  | [] => []
  | command :: rest =>
    performStory (callWithin (w.scripted + 1)) (callStory (w.scripted + 1)) [command] w ++
      history (w.run command) rest

/-! ### The operations, step by step -/

section Steps

variable (call : Call) (story : Story) (event : Event) {r : Registration}
  (rest : List Registration) (previous : Option Nat) {w : World}

theorem deliver_cons_of_canCall (alive : w.canCall r.target = true) :
    deliver call event (r :: rest) previous w =
      deliver call event rest r.target.object?
        ((w.rehold previous r.target.object?).called call event r) := by
  rw [deliver, if_pos alive]
  rfl

theorem deliver_cons_of_not_canCall (gone : ¬w.canCall r.target = true) :
    deliver call event (r :: rest) previous w =
      ((deliver call event rest none (w.rehold previous none)).1,
        r.number :: (deliver call event rest none (w.rehold previous none)).2) := by
  rw [deliver, if_neg gone]

theorem deliverStory_cons_of_canCall (alive : w.canCall r.target = true) :
    deliverStory call story event (r :: rest) previous w =
      .reached w r event ::
        ((story (w.rehold previous r.target.object?) r.target event).map (Moment.inside r) ++
          deliverStory call story event rest r.target.object?
            ((w.rehold previous r.target.object?).called call event r)) := by
  rw [deliverStory, if_pos alive]

theorem deliverStory_cons_of_not_canCall (gone : ¬w.canCall r.target = true) :
    deliverStory call story event (r :: rest) previous w =
      .reached w r event ::
        deliverStory call story event rest none (w.rehold previous none) := by
  rw [deliverStory, if_neg gone]

end Steps

/-- A call with depth left carries out the script of its handler. -/
theorem callWithin_succ (depth : Nat) (w : World) (target : Target) (event : Event) :
    callWithin (depth + 1) w target event =
        perform (callWithin depth) ((w.noted target event).takeScript target.label).1
          ((w.noted target event).takeScript target.label).2 ∧
      callStory (depth + 1) w target event =
        performStory (callWithin depth) (callStory depth)
          ((w.noted target event).takeScript target.label).1
          ((w.noted target event).takeScript target.label).2 :=
  ⟨rfl, rfl⟩

theorem resolve_frame (w : World) (handler : Handler) :
    (w.resolve handler).1.registrations = w.registrations ∧
      (w.resolve handler).1.calls = w.calls ∧ (w.resolve handler).1.scripts = w.scripts := by
  unfold resolve
  split
  · exact ⟨rfl, rfl, rfl⟩
  · split <;> exact ⟨rfl, rfl, rfl⟩

theorem takeScript_frame (w : World) (handler : String) :
    (w.takeScript handler).2.registrations = w.registrations ∧
      (w.takeScript handler).2.calls = w.calls := by
  unfold takeScript
  split <;> exact ⟨rfl, rfl⟩

/-- A command that calls no handler and does not fail is over at once. -/
theorem perform_cons_of_quiet (call : Call) (story : Story) {command : Command}
    (quiet : command.Quiet) (rest : List Command) (w : World) :
    perform call (command :: rest) w = perform call rest (perform call [command] w).1 ∧
      performStory call story (command :: rest) w =
        performStory call story rest (perform call [command] w).1 := by
  cases command with
  | publish event => exact quiet.elim
  | fail => exact quiet.elim
  | _ => exact ⟨rfl, rfl⟩

theorem perform_frame_of_quiet (call : Call) {command : Command} (quiet : command.Quiet)
    (w : World) : (perform call [command] w).1.calls = w.calls ∧
      (perform call [command] w).1.scripts = w.scripts := by
  cases command with
  | subscribe kind handler => exact (resolve_frame w handler).2
  | unsubscribe kind handler => exact (resolve_frame w handler).2
  | publish event => exact quiet.elim
  | fail => exact quiet.elim
  | _ => exact ⟨rfl, rfl⟩

/-! ### What the bus keeps by itself -/

def Call.Keeps (call : Call) (P : World → Prop) : Prop :=
  ∀ w target event, P w → P (call w target event).1

/-- A property of worlds that nothing breaks that is done between two calls, so that it lasts
    as long as calls keep it. -/
structure KeptByBus (P : World → Prop) : Prop where
  reheld : ∀ (w : World) previous next, P w → P (w.rehold previous next)
  remarked : ∀ (w : World) log, P w → P { w with log }
  noted : ∀ (w : World) target event, P w → P (w.noted target event)
  scripted : ∀ (w : World) handler, P w → P (w.takeScript handler).2
  pruned : ∀ (w : World) numbers, P w →
    P { w with registrations := w.registrations.prune numbers }
  performed : ∀ (w : World) call (command : Command), command.Quiet → P w →
    P (perform call [command] w).1

namespace KeptByBus

variable {P : World → Prop} (kept : KeptByBus P) {call : Call} (keeps : call.Keeps P) {w : World}

section

include kept keeps

theorem called (holds : P w) (event : Event) (r : Registration) :
    P (w.called call event r) := by
  unfold World.called
  split
  · exact kept.remarked _ _ (keeps w r.target event holds)
  · exact keeps w r.target event holds

theorem deliver (holds : P w) (event : Event) (rs : List Registration) (previous : Option Nat) :
    P (World.deliver call event rs previous w).1 := by
  induction rs generalizing previous w with
  | nil => exact kept.reheld w previous none holds
  | cons r rest ih =>
      by_cases alive : w.canCall r.target = true
      · rw [deliver_cons_of_canCall call event rest previous alive]
        exact ih (kept.called keeps (kept.reheld w previous r.target.object? holds) event r) _
      · rw [deliver_cons_of_not_canCall call event rest previous alive]
        exact ih (kept.reheld w previous none holds) none

theorem publish (holds : P w) (event : Event) : P (w.publish call event) :=
  kept.pruned _ _ (kept.deliver keeps (kept.remarked w _ holds) event _ none)

theorem perform (holds : P w) (commands : List Command) :
    P (World.perform call commands w).1 := by
  induction commands generalizing w with
  | nil => exact holds
  | cons command rest ih =>
      rcases command.quiet_or with quiet | rfl | ⟨event, rfl⟩
      · rw [(perform_cons_of_quiet call (fun _ _ _ => []) quiet rest w).1]
        exact ih (kept.performed w call command quiet holds)
      · exact holds
      · exact ih (kept.publish keeps holds event)

end

include kept

theorem callWithin (depth : Nat) : Call.Keeps (World.callWithin depth) P := by
  induction depth with
  | zero => exact fun w target event holds => kept.noted w target event holds
  | succ depth ih =>
      intro w target event holds
      exact kept.perform ih (kept.scripted _ target.label (kept.noted w target event holds)) _

theorem run (holds : P w) (command : Command) : P (w.run command) :=
  kept.perform (kept.callWithin _) holds [command]

theorem runAll (holds : P w) (commands : List Command) : P (w.runAll commands) := by
  induction commands generalizing w with
  | nil => exact holds
  | cons command rest ih => exact ih (kept.run holds command)

theorem and {Q : World → Prop} (kept' : KeptByBus Q) : KeptByBus fun w => P w ∧ Q w where
  reheld w previous next := And.imp (kept.reheld w previous next) (kept'.reheld w previous next)
  remarked w log := And.imp (kept.remarked w log) (kept'.remarked w log)
  noted w target event := And.imp (kept.noted w target event) (kept'.noted w target event)
  scripted w handler := And.imp (kept.scripted w handler) (kept'.scripted w handler)
  pruned w numbers := And.imp (kept.pruned w numbers) (kept'.pruned w numbers)
  performed w call command quiet :=
    And.imp (kept.performed w call command quiet) (kept'.performed w call command quiet)

end KeptByBus

/-! ### The history tells the calls -/

theorem callsOf_inside (outer : Registration) (h : List Moment) :
    callsOf (h.map (Moment.inside outer)) = callsOf h := by
  unfold callsOf
  rw [List.filterMap_map]
  congr 1
  funext m
  exact m.call?_inside outer

theorem callsOf_append (h h' : List Moment) : callsOf (h ++ h') = callsOf h ++ callsOf h' :=
  List.filterMap_append

/-- Wherever a handler is called, its story tells the calls behind its own one. -/
def TellsCalls (call : Call) (story : Story) : Prop :=
  ∀ w target event,
    (call w target event).1.calls =
      w.calls ++ (target.label, event) :: callsOf (story w target event)

section Calls

variable {call : Call} {story : Story} (tells : TellsCalls call story)
include tells

theorem called_calls (event : Event) (r : Registration) (w : World) :
    (w.called call event r).calls =
      w.calls ++ (r.target.label, event) :: callsOf (story w r.target event) := by
  unfold called
  split <;> exact tells w r.target event

theorem deliver_calls (event : Event) (rs : List Registration) (previous : Option Nat) (w : World) :
    (deliver call event rs previous w).1.calls =
      w.calls ++ callsOf (deliverStory call story event rs previous w) := by
  induction rs generalizing previous w with
  | nil => exact (List.append_nil _).symm
  | cons r rest ih =>
      by_cases alive : w.canCall r.target = true
      · have made : Moment.call? (.reached w r event) = some (r.target.label, event) := if_pos alive
        have reheld : (w.rehold previous r.target.object?).calls = w.calls := rfl
        rw [deliver_cons_of_canCall call event rest previous alive,
          deliverStory_cons_of_canCall call story event rest previous alive, ih,
          called_calls tells, reheld]
        unfold callsOf
        rw [List.filterMap_cons_some made, List.filterMap_append, List.append_assoc,
          List.cons_append]
        congr 3
        exact (callsOf_inside r _).symm
      · have none_made : Moment.call? (.reached w r event) = none := if_neg alive
        have reheld : (w.rehold previous none).calls = w.calls := rfl
        rw [deliver_cons_of_not_canCall call event rest previous alive,
          deliverStory_cons_of_not_canCall call story event rest previous alive]
        dsimp only
        rw [ih, reheld]
        unfold callsOf
        rw [List.filterMap_cons_none none_made]

theorem publish_calls (w : World) (event : Event) :
    (w.publish call event).calls = w.calls ++ callsOf (publishStory call story w event) :=
  deliver_calls tells event _ none (w.announced event)

theorem perform_calls (commands : List Command) (w : World) :
    (perform call commands w).1.calls =
      w.calls ++ callsOf (performStory call story commands w) := by
  induction commands generalizing w with
  | nil => exact (List.append_nil _).symm
  | cons command rest ih =>
      rcases command.quiet_or with quiet | rfl | ⟨event, rfl⟩
      · obtain ⟨performed, told⟩ := perform_cons_of_quiet call story quiet rest w
        rw [performed, told, ih, (perform_frame_of_quiet call quiet w).1]
      · exact (List.append_nil _).symm
      · rw [perform, performStory, ih, publish_calls tells, callsOf_append, List.append_assoc]

end Calls

theorem callWithin_tells (depth : Nat) : TellsCalls (callWithin depth) (callStory depth) := by
  induction depth with
  | zero => exact fun w target event => rfl
  | succ depth ih =>
      intro w target event
      obtain ⟨called, told⟩ := callWithin_succ depth w target event
      have noted : (w.noted target event).calls = w.calls ++ [(target.label, event)] := rfl
      rw [called, told, perform_calls ih, (takeScript_frame _ target.label).2, noted,
        List.append_assoc, List.singleton_append]

theorem run_calls (w : World) (command : Command) :
    (w.run command).calls = w.calls ++ callsOf (performStory (callWithin (w.scripted + 1))
      (callStory (w.scripted + 1)) [command] w) :=
  perform_calls (callWithin_tells _) [command] w

theorem runAll_calls (w : World) (commands : List Command) :
    (w.runAll commands).calls = w.calls ++ callsOf (w.history commands) := by
  induction commands generalizing w with
  | nil => exact (List.append_nil _).symm
  | cons command rest ih =>
      unfold history
      rw [callsOf_append, ← List.append_assoc, ← run_calls]
      exact ih (w.run command)

end World

end ActionEngine.Bus
