import ActionEngine.Coordinator.Floor

/-!
# What a move does

A move lets one invocation take a turn, starts or makes an invocation, carries out a
control, or names no invocation at all. `Move.turn` is what comes of a turn, and `Floor.Does`
lists the cases. Whatever is proved of every step is proved of these.
-/

namespace ActionEngine.Coordinator

/-- The place of the invocation that a move lets go on. -/
def Move.place? : Move → Option Nat
  | .execute .. => none
  | .stream _ => none
  | .pull place _ => some place
  | .searched place => some place
  | .refuse place _ => some place
  | .text place _ => some place
  | .ending place => some place
  | .fail place _ => some place
  | .interrupt place => some place
  | .close place _ => some place
  | .shut place _ => some place
  | .control .. => none

/-- What a move makes of a desk and of the stage of the invocation that it lets go on. The
    place of the invocation does not matter. -/
def Move.turn (s : Setting) (d : Desk) : Move → Stage → Segment
  | .pull _ task, .unopened i => openStream s { d with current := some task } i task
  | .pull _ task, .shown run snapshot => resume s { d with current := some task } run snapshot task
  | .pull _ task, .shownLast run => leave s { d with current := some task } run [.stopped]
  | .pull .., .over => (d, .over, [.stopped])
  | .searched _, .waitingCitation i fault task =>
      finishSearch { d with current := some task } i fault
  | .refuse _ fault, .waitingChunk run _ task =>
      refuseStream s { d with current := some task } run fault
  | .text _ reply, .waitingReply run i target =>
      settle s { d with current := some run.task } run i target reply
  | .text _ chunk, .waitingChunk run snapshot task =>
      feedChunk s { d with current := some task } run snapshot task chunk
  | .ending _, .waitingChunk run snapshot task =>
      endStream s { d with current := some task } run snapshot
  | .fail _ fault, .waitingReply run _ _ =>
      failSingle s { d with current := some run.task } run fault
  | .fail _ fault, .waitingChunk run _ task =>
      failStream s { d with current := some task } run fault
  | .interrupt _, .waitingCitation _ _ task =>
      ({ d with current := some task }, .over, [.cancelled])
  | .interrupt _, .waitingReply run _ _ =>
      interruptSingle s { d with current := some run.task } run
  | .interrupt _, .waitingChunk run _ task =>
      interruptStream s { d with current := some task } run
  | .interrupt _, .waitingClose _ _ task =>
      ({ d with current := task }, .over, [.streamOver, .cancelled])
  | .close .., .unopened _ => (d, .over, [.closed])
  | .close _ task, .shown run _ =>
      leave s { d with current := some task } run [.streamOver, .closed]
  | .close _ task, .shownLast run => leave s { d with current := some task } run [.closed]
  | .close .., .over => (d, .over, [.closed])
  | .shut _ fault, .waitingClose run outputs task =>
      finishClosing s { d with current := task } run outputs fault
  | _, stage => (d, stage, [])

namespace Floor

variable {s : Setting} {f : Floor} {m : Move} {place : Nat} {stage : Stage}

theorem put_self (hold : f.stages[place]? = some stage) (outputs : List Output) :
    f.put place (f.desk, stage, outputs) = (f, outputs) := by
  obtain ⟨hlt, hget⟩ := List.getElem?_eq_some_iff.1 hold
  unfold put
  rw [← hget, List.set_getElem_self]

theorem step_eq_turn (hplace : m.place? = some place) (hold : f.stages[place]? = some stage) :
    f.step s m = f.put place (m.turn s f.desk stage) := by
  have unmoved (outputs : List Output) : (f, outputs) = f.put place (f.desk, stage, outputs) :=
    (put_self hold outputs).symm
  cases m <;> cases hplace <;> cases stage <;> simp only [step, hold] <;>
    first | rfl | exact unmoved _

theorem step_absent (hplace : m.place? = some place) (missing : f.stages[place]? = none) :
    f.step s m = (f, []) := by
  cases m <;> cases hplace <;> simp only [step, missing]

/-- What a move makes of a floor, and what it shows. -/
inductive Does (s : Setting) (f : Floor) : Move → Floor × List Output → Prop
  /-- There is no such invocation. -/
  | absent {m : Move} {place : Nat} (hplace : m.place? = some place)
      (missing : f.stages[place]? = none) : f.Does s m (f, [])
  /-- An invocation takes a turn, all others stay where they are. -/
  | taken {m : Move} {place : Nat} {stage : Stage} (hplace : m.place? = some place)
      (hold : f.stages[place]? = some stage) : f.Does s m (f.put place (m.turn s f.desk stage))
  /-- A single request takes its first turn. -/
  | started (i : Invocation) (task : Nat) :
      f.Does s (.execute i task) (f.add (openSingle s (f.deskFor task) i task))
  /-- A stream is made. -/
  | made (i : Invocation) : f.Does s (.stream i) (f.add (f.desk, .unopened i, []))
  /-- A control is carried out. -/
  | controlled (c : Control) (task : Option Nat) : f.Does s (.control c task)
      ({ f with desk := ({ f.desk with current := task }.control s.tell c).1 },
        [.replied ({ f.desk with current := task }.control s.tell c).2])

theorem step_does (s : Setting) (f : Floor) (m : Move) : f.Does s m (f.step s m) := by
  cases hplace : m.place? with
  | some place =>
      cases hold : f.stages[place]? with
      | none =>
          rw [step_absent hplace hold]
          exact .absent hplace hold
      | some stage =>
          rw [step_eq_turn hplace hold]
          exact .taken hplace hold
  | none =>
      cases m with
      | execute i task => exact .started i task
      | stream i => exact .made i
      | control c task => exact .controlled c task
      | _ => cases hplace

end Floor

end ActionEngine.Coordinator
