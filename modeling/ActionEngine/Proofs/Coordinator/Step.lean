import ActionEngine.Proofs.Coordinator.Turn

/-!
# What one move can do

As long as its stage fits the desk, an invocation takes one of the turns that `Turn` lists.
`Floor.Steps` says what the floor is after each of the cases of a move, and `step_steps`
that there is no other.
-/

namespace ActionEngine.Coordinator

/-- What a move makes of a floor. -/
inductive Floor.Steps (s : Setting) (f : Floor) : Move → Floor → List Output → Prop
  /-- There is no such invocation. -/
  | absent (m : Move) : f.Steps s m f []
  /-- An invocation takes a turn, all others stay where they are. -/
  | taken {m : Move} {place : Nat} {old new : Stage} {d : Desk} {outputs : List Output}
      (hplace : m.place? = some place) (hold : f.stages[place]? = some old)
      (turn : Turn s f.desk.view m old d.view new outputs) :
      f.Steps s m { desk := d, stages := f.stages.set place new } outputs
  /-- A single request takes its first turn. -/
  | started {i : Invocation} {task : Nat} {new : Stage} {d : Desk} {outputs : List Output}
      (turn : Turn s f.desk.view (.execute i task) (.unopened i) d.view new outputs) :
      f.Steps s (.execute i task) { desk := d, stages := f.stages ++ [new] } outputs
  /-- A stream is made. -/
  | made (i : Invocation) :
      f.Steps s (.stream i) { f with stages := f.stages ++ [.unopened i] } []
  /-- A control is carried out. -/
  | controlled (c : Control) (task : Option Nat) {d : Desk} {reply : Reply}
      (view : d.view = (f.desk.view.controlled s c).1)
      (replies : reply = (f.desk.view.controlled s c).2) :
      f.Steps s (.control c task) { f with desk := d } [.replied reply]

/-! ### The turns, stage by stage -/

section Turns

variable {s : Setting}

/-- Nothing is shown at all, which suits every stage but that of a single request. -/
theorem nothing_shown : ∀ o ∈ ([] : List Output),
    o = .streamOver ∨ o = .stopped ∨ o = .closed ∨ o = .cancelled := by
  intro o member
  cases member

theorem unopened_isTurn (calm : s.Calm) (d : Desk) (m : Move) (i : Invocation) :
    (m.turn s d (.unopened i)).IsTurn s d.view m (.unopened i) := by
  cases m with
  | pull p task => exact openStream_isTurn calm { d with current := some task } i task _ rfl
  | close p task => exact .refused rfl rfl (by simp [Move.turn, Output.Preliminary])
  | _ => exact .ignored nothing_shown

theorem waitingCitation_isTurn (d : Desk) (m : Move) (i : Invocation) (fault : Option Fault)
    (task : Nat) : (m.turn s d (.waitingCitation i fault task)).IsTurn s d.view m
      (.waitingCitation i fault task) := by
  cases m with
  | searched p =>
      dsimp only [Segment.IsTurn, Move.turn, finishSearch]
      rw [view_searched]
      exact .refused rfl rfl (by simpa using handledExternally_preliminary i)
  | interrupt p => exact .refused rfl rfl (by simp [Move.turn, Output.Preliminary])
  | _ => exact .ignored nothing_shown

theorem waitingReply_isTurn (calm : s.Calm) {d : Desk} (m : Move) {run : Run} {i : Invocation}
    {target : TextRange} (fits : (Stage.waitingReply run i target).Fits d.view) :
    (m.turn s d (.waitingReply run i target)).IsTurn s d.view m (.waitingReply run i target) := by
  cases m with
  | text p text => exact settle_isTurn (d := { d with current := some run.task }) calm fits p text
  | fail p fault =>
      exact failSingle_isTurn (d := { d with current := some run.task }) calm fits p fault
  | interrupt p =>
      exact interruptSingle_isTurn calm { d with current := some run.task } run i target p
  | _ => exact .ignored rfl

theorem waitingChunk_isTurn (calm : s.Calm) {d : Desk} (m : Move) {run : Run}
    {snapshot : Suggestion} {task : Nat}
    (fits : (Stage.waitingChunk run snapshot task).Fits d.view) :
    (m.turn s d (.waitingChunk run snapshot task)).IsTurn s d.view m
      (.waitingChunk run snapshot task) := by
  cases m with
  | refuse p fault =>
      exact refuseStream_isTurn (d := { d with current := some task }) calm fits rfl rfl
  | text p chunk => exact feedChunk_isTurn (d := { d with current := some task }) calm fits p chunk
  | ending p => exact endStream_isTurn (d := { d with current := some task }) calm fits p
  | fail p fault => exact failStream_isTurn (d := { d with current := some task }) calm fits rfl rfl
  | interrupt p =>
      exact leave_isTurn calm { d with current := some task } _ [.streamOver, .cancelled] rfl
        (by simp)
  | _ => exact .ignored nothing_shown

theorem shown_isTurn (calm : s.Calm) (d : Desk) (m : Move) (run : Run) (snapshot : Suggestion) :
    (m.turn s d (.shown run snapshot)).IsTurn s d.view m (.shown run snapshot) := by
  cases m with
  | pull p task => exact resume_isTurn calm { d with current := some task } run snapshot task _
  | close p task =>
      exact leave_isTurn calm { d with current := some task } _ [.streamOver, .closed] rfl
        (by simp)
  | _ => exact .ignored nothing_shown

theorem shownLast_isTurn (calm : s.Calm) {d : Desk} (m : Move) {run : Run}
    (fits : (Stage.shownLast run).Fits d.view) :
    (m.turn s d (.shownLast run)).IsTurn s d.view m (.shownLast run) := by
  cases m with
  | pull p task =>
      exact leave_isTurn_of_stale (d := { d with current := some task }) calm _ [.stopped] rfl fits
        (by simp)
  | close p task =>
      exact leave_isTurn calm { d with current := some task } _ [.closed] rfl (by simp)
  | _ => exact .ignored nothing_shown

/-- An invocation that is over at most says so again. -/
theorem over_isTurn (d : Desk) (m : Move) :
    (m.turn s d .over).IsTurn s d.view m .over := by
  cases m <;> exact .ignored (by simp [Move.turn, Stage.Late])

/-- Every turn is one of the cases of `Turn`. -/
theorem turn_isTurn (calm : s.Calm) (d : Desk) (m : Move) {old : Stage} (fits : old.Fits d.view) :
    (m.turn s d old).IsTurn s d.view m old := by
  cases old with
  | unopened i => exact unopened_isTurn calm d m i
  | waitingCitation i fault task => exact waitingCitation_isTurn d m i fault task
  | waitingReply run i target => exact waitingReply_isTurn calm m fits
  | waitingChunk run snapshot task => exact waitingChunk_isTurn calm m fits
  | shown run snapshot => exact shown_isTurn calm d m run snapshot
  | shownLast run => exact shownLast_isTurn calm m fits
  | waitingClose run outputs task => exact fits.elim
  | «over» => exact over_isTurn d m

end Turns

namespace Floor

variable {s : Setting}

/-- An invocation that is over changes nothing, and at most says again that it is. -/
theorem step_over {f : Floor} {m : Move} {place : Nat} (hplace : m.place? = some place)
    (hold : f.stages[place]? = some .over) :
    (f.step s m).1 = f ∧ ∀ o ∈ (f.step s m).2, o = .stopped ∨ o = .closed := by
  cases m <;> cases hplace <;> simp [step, hold]

/-- Every move makes of a floor what `Steps` says. -/
theorem step_steps (calm : s.Calm) {f : Floor}
    (fits : ∀ (place : Nat) (stage : Stage), f.stages[place]? = some stage →
      stage.Fits f.desk.view) (m : Move) :
    f.Steps s m (f.step s m).1 (f.step s m).2 := by
  have does := step_does s f m
  generalize f.step s m = after at does ⊢
  cases does with
  | absent hplace missing => exact .absent m
  | taken hplace hold => exact .taken hplace hold (turn_isTurn calm f.desk m (fits _ _ hold))
  | started i task => exact .started (openSingle_isTurn calm (f.deskFor task) i task _ rfl)
  | made i => exact .made i
  | controlled c task =>
      obtain ⟨view, replies⟩ := Desk.view_control calm { f.desk with current := task } c
      exact .controlled c task view replies

end Floor

end ActionEngine.Coordinator
