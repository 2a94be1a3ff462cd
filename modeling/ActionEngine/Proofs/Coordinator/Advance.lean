import ActionEngine.Proofs.Coordinator.Course
import ActionEngine.Proofs.Coordinator.Retirement

/-!
# One move among observers

Whatever the observers do, a move lets one invocation take a turn, starts or makes an
invocation, carries out a control, or does nothing. The runs stay in order in each case,
and the active run belongs to an invocation as long as streams can be closed.
-/

namespace ActionEngine.Coordinator

/-- What a move makes of a floor, whatever the observers do. -/
inductive Floor.Advances (s : Setting) (f : Floor) : Move → Floor → List Output → Prop
  /-- There is no such invocation. -/
  | absent {m : Move} (missing : ∀ place, m.place? = some place → f.stages[place]? = none) :
      f.Advances s m f []
  /-- An invocation takes a turn, all others stay where they are. -/
  | taken {m : Move} {place : Nat} {old new : Stage} {d : Desk} {outputs : List Output}
      (hplace : m.place? = some place) (hold : f.stages[place]? = some old)
      (course : Course s f.desk.view m old d.view new outputs) :
      f.Advances s m { desk := d, stages := f.stages.set place new } outputs
  /-- A single request takes its first turn. -/
  | started {i : Invocation} {task : Nat} {new : Stage} {d : Desk} {outputs : List Output}
      (course : Course s f.desk.view (.execute i task) (.unopened i) d.view new outputs) :
      f.Advances s (.execute i task) { desk := d, stages := f.stages ++ [new] } outputs
  /-- A stream is made. -/
  | made (i : Invocation) :
      f.Advances s (.stream i) { f with stages := f.stages ++ [.unopened i] } []
  /-- A control is carried out. -/
  | controlled (c : Control) (task : Option Nat) {d : Desk} (reply : Reply)
      (cedes : f.desk.view.Cedes d.view) :
      f.Advances s (.control c task) { f with desk := d } [.replied reply]

theorem Floor.step_advances (s : Setting) {f : Floor}
    (suits : ∀ (place : Nat) (stage : Stage), f.stages[place]? = some stage →
      stage.Suits f.desk.view) (m : Move) :
    f.Advances s m (f.step s m).1 (f.step s m).2 := by
  have does := step_does s f m
  generalize f.step s m = after at does ⊢
  cases does with
  | absent hplace missing =>
      refine .absent ?_
      intro q hq
      cases hplace.symm.trans hq
      exact missing
  | taken hplace hold => exact .taken hplace hold (turn_course m (suits _ _ hold))
  | started i task => exact .started (openSingle_course (f.deskFor task) i task rfl)
  | made i => exact .made i
  | controlled c task =>
      exact .controlled c task _
        (Desk.control_cedes (Desk.tell_hears s) { f.desk with current := task } c)

/-! ### What a turn does to the runs -/

theorem Stage.Left.run_eq {stage : Stage} {run r : Run} (left : stage.Left run)
    (h : stage.run? = some r) : r = run := by
  cases stage with
  | waitingClose q outputs task =>
      cases h
      exact left.1
  | _ => first | exact False.elim left | cases h

theorem Stage.Left.suits {stage : Stage} {run : Run} (left : stage.Left run) (v : View) :
    stage.Suits v := by
  cases stage <;> trivial

theorem Stage.Opens.run?_eq {stage : Stage} {m : Move} {run : Run} {i : Invocation}
    (opens : stage.Opens m run i) : stage.run? = some run := by
  cases stage with
  | waitingReply r j target => exact congrArg some opens.2.1
  | waitingChunk r snapshot task => exact congrArg some opens.1
  | _ => exact opens.elim

/-- The stage of a run that begins fits a desk on which the run, if it is still active, is
    loading. -/
theorem Stage.Opens.fits {stage : Stage} {v : View} {m : Move} {i : Invocation}
    {number task : Nat} (opens : stage.Opens m ⟨number, i.action.id, task⟩ i)
    (loading : ∀ run, v.active = some run → v.lifecycle.state = .loading i.action) :
    stage.Fits v := by
  cases stage with
  | waitingReply r j target =>
      obtain ⟨-, rfl, rfl⟩ := opens
      exact ⟨rfl, fun active => loading _ active⟩
  | waitingChunk r snapshot t =>
      obtain ⟨rfl, id, target, -, rfl⟩ := opens
      exact ⟨rfl, fun active => .inl (loading _ active)⟩
  | _ => exact opens.elim

/-- No run begins, and none becomes the active one. -/
def View.Keeps (v v' : View) : Prop :=
  v'.nextRun = v.nextRun ∧ ∀ run, v'.active = some run → v.active = some run

theorem View.Cedes.keeps {v v' : View} (cedes : v.Cedes v') : v.Keeps v' :=
  ⟨cedes.next, fun _ h => (cedes.active_of h).1⟩

theorem View.Finishes.keeps {s : Setting} {v w v' : View} {run : Run} {next : Lifecycle.State}
    (finishes : w.Finishes s run v') (entered : (v.entered s next).Cedes w) : v.Keeps v' := by
  have cedes := entered.trans finishes.cedes
  exact ⟨cedes.next, fun _ h => (cedes.active_of h).1⟩

namespace Course

variable {s : Setting} {v v' : View} {m : Move} {old new : Stage} {outputs : List Output}

/-- A turn begins the next run of its invocation, or none at all. -/
theorem starts_or_keeps (course : Course s v m old v' new outputs) :
    (∃ i task, old = .unopened i ∧ new.Opens m (v.upcoming i.action task) i ∧
        v.Starts s (v.upcoming i.action task) i.action v') ∨
      v.Keeps v' ∧ ∀ run, new.run? = some run → old.run? = some run := by
  have keeps : v.Keeps v := (View.Cedes.refl v).keeps
  cases course with
  | ignored deaf shows => exact .inr ⟨keeps, fun run h => h⟩
  | refused before early after shows =>
      refine .inr ⟨keeps, ?_⟩
      intro run h
      rcases after with rfl | ⟨i, fault, task, rfl⟩ <;> cases h
  | begun task opens starts shows => exact .inl ⟨_, task, rfl, opens, starts⟩
  | concluded entered finishes =>
      refine .inr ⟨?_, by rintro run ⟨⟩⟩
      rcases entered with rfl | ⟨-, next, -, entered⟩
      · exact finishes.cedes.keeps
      · exact finishes.keeps entered
  | skipped place current move => exact .inr ⟨keeps, fun run h => h⟩
  | resumed task current => exact .inr ⟨keeps, fun run h => h⟩
  | shown place chunk current move nonempty entered =>
      exact .inr ⟨entered.keeps, fun run h => h⟩
  | ended place current move entered finishes =>
      exact .inr ⟨finishes.keeps entered, fun run h => h⟩
  | failed streams current move entered finishes after shows =>
      refine .inr ⟨finishes.keeps entered, ?_⟩
      intro run h
      rw [after.run_eq h, streams.run_eq]
  | left streams departs leaves shows =>
      refine .inr ⟨leaves.cedes.keeps, ?_⟩
      intro run h
      rw [leaves.left.run_eq h, streams.run_eq]
  | dropped streams stale after shows =>
      refine .inr ⟨keeps, ?_⟩
      intro run h
      rw [after.run_eq h, streams.run_eq]
  | shut place move finishes => exact .inr ⟨finishes.cedes.keeps, by rintro run ⟨⟩⟩
  | unclosed fails shows => exact .inr ⟨keeps, by rintro run ⟨⟩⟩

/-- A run that is active after a turn is still the one of the invocation that took the turn,
    or it was active before and its lifecycle was left alone; then it is the run of another
    invocation, unless its stream cannot be closed. -/
theorem active_of (course : Course s v m old v' new outputs) {run : Run}
    (h : v'.active = some run) :
    new.run? = some run ∨ v.active = some run ∧ v'.lifecycle = v.lifecycle ∧
      (old.run? = some run → old.Fails s run m) := by
  cases course with
  | ignored deaf shows =>
      by_cases own : old.run? = some run
      · exact .inl own
      · exact .inr ⟨h, rfl, fun same => absurd same own⟩
  | refused before early after shows =>
      refine .inr ⟨h, rfl, ?_⟩
      intro own
      rw [before] at own
      cases own
  | begun task opens starts shows =>
      obtain ⟨rfl, -⟩ := starts.active_of h
      exact .inl opens.run?_eq
  | @concluded r _ _ w _ _ entered finishes =>
      rcases entered with rfl | ⟨current, next, -, entered⟩
      -- The reply came too late: the run that is active is that of another invocation.
      · obtain ⟨before, -, same⟩ := finishes.cedes.active_of h
        refine .inr ⟨before, same, ?_⟩
        intro own
        cases own
        exact absurd h finishes.not_active
      · rw [(finishes.vacates current entered).1] at h
        cases h
  | skipped place current move => exact .inl (current.symm.trans h)
  | resumed task current => exact .inl (current.symm.trans h)
  | shown place chunk current move nonempty entered =>
      exact .inl (current.symm.trans (entered.active_of h).1)
  | ended place current move entered finishes =>
      rw [(finishes.vacates current entered).1] at h
      cases h
  | failed streams current move entered finishes after shows =>
      rw [(finishes.vacates current entered).1] at h
      cases h
  | left streams departs leaves shows =>
      obtain ⟨before, -, same⟩ := leaves.cedes.active_of h
      -- Either another stream is left, or its own one cannot be closed.
      by_cases own : old.run? = some run
      · rw [streams.run_eq] at own
        cases own
        rcases leaves with ⟨-, -, finishes⟩ | ⟨raises, -, -⟩ | ⟨-, ⟨outputs, task, rfl, -⟩, -⟩
        · exact absurd h finishes.not_active
        · exact .inr ⟨before, same, fun _ => (streams.fails_iff m).2 ⟨departs, raises⟩⟩
        · exact .inl rfl
      · exact .inr ⟨before, same, fun h => absurd h own⟩
  | dropped streams stale after shows =>
      refine .inr ⟨h, rfl, ?_⟩
      intro own
      rw [streams.run_eq] at own
      cases own
      exact absurd h stale
  | shut place move finishes =>
      obtain ⟨before, -, same⟩ := finishes.cedes.active_of h
      refine .inr ⟨before, same, ?_⟩
      intro own
      cases own
      exact absurd h finishes.not_active
  | unclosed fails shows =>
      exact .inr ⟨h, rfl, fun _ => fails⟩

theorem suits (course : Course s v m old v' new outputs) (before : old.Suits v) :
    new.Suits v' := by
  cases course with
  | ignored deaf shows => exact before
  | refused none early after shows =>
      rcases after with rfl | ⟨i, fault, task, rfl⟩ <;> trivial
  | begun task opens starts shows =>
      exact (opens.fits fun run h => (starts.active_of h).2).suits
  | skipped place current move => exact before
  | resumed task current => exact ⟨before.1, fun h => .inr (before.2 h)⟩
  | shown place chunk current move nonempty entered =>
      refine ⟨before.1, ?_⟩
      intro active
      rw [(entered.active_of active).2.2]
      exact ⟨rfl, rfl⟩
  | ended place current move entered finishes => exact finishes.not_active
  | failed streams current move entered finishes after shows => exact after.suits v'
  | left streams departs leaves shows => exact leaves.left.suits v'
  | dropped streams stale after shows => exact after.suits v
  | _ => trivial

theorem orderly (course : Course s v m old v' new outputs)
    (newest : ∀ run, v.active = some run → run.number + 1 = v.nextRun) (before : old.Suits v) :
    Orderly v old v' new := by
  have active : ∀ run, v'.active = some run →
      new.run? = some run ∨ v.active = some run ∧ v'.lifecycle = v.lifecycle := by
    intro run h
    exact (course.active_of h).imp_right fun h => ⟨h.1, h.2.1⟩
  rcases course.starts_or_keeps with ⟨i, task, rfl, opens, starts⟩ | ⟨keeps, same⟩
  · refine ⟨?_, ?_, ?_, active, course.suits before⟩
    · intro run h
      rw [(starts.active_of h).1, starts.nextRun]
      rfl
    · rw [starts.nextRun]
      exact Nat.le_succ _
    · intro run h
      rw [opens.run?_eq] at h
      cases h
      rw [starts.nextRun]
      exact .inr ⟨Nat.le_refl _, Nat.lt_succ_self _⟩
  · refine ⟨?_, Nat.le_of_eq keeps.1.symm, fun run h => .inl (same run h), active,
      course.suits before⟩
    intro run h
    rw [keeps.1]
    exact newest run (keeps.2 run h)

end Course

/-! ### What a move does to the runs -/

/-- The move ends a stream because the provider's stream cannot be closed. -/
def Floor.FailsToClose (s : Setting) (f : Floor) (m : Move) : Prop :=
  ∃ (place : Nat) (stage : Stage) (run : Run), m.place? = some place ∧
    f.stages[place]? = some stage ∧ stage.run? = some run ∧ stage.Fails s run m

/-- Every stream that is left in the course of the moves can be closed. -/
def Floor.Closes (s : Setting) (f : Floor) : List Move → Prop
  | [] => True
  | m :: moves => ¬f.FailsToClose s m ∧ Floor.Closes s (f.step s m).1 moves

def Floor.Carries (f : Floor) : Prop :=
  ∀ run, f.desk.view.active = some run →
    ∃ (place : Nat) (stage : Stage), f.stages[place]? = some stage ∧ stage.run? = some run

abbrev Floor.Ordered (f : Floor) : Prop :=
  Coordinator.Ordered f.desk.view f.stages

namespace Floor

variable {s : Setting} {f g : Floor} {m : Move} {outputs : List Output}

theorem Advances.ordered (advances : f.Advances s m g outputs) (ordered : f.Ordered) :
    g.Ordered := by
  cases advances with
  | absent => exact ordered
  | taken hplace hold course =>
      exact ordered.put hold (course.orderly ordered.newest (ordered.suits _ _ hold))
  | @started i task new d _ course =>
      -- The request first stands at the end without a run, and then takes its turn there.
      have last : (f.stages ++ [.unopened i])[f.stages.length]? = some (.unopened i) := by simp
      have turned := (ordered.add_unopened i).put last (course.orderly ordered.newest trivial)
      simpa using turned
  | made i => exact ordered.add_unopened i
  | controlled c task reply cedes =>
      exact ordered.mono cedes.next fun run h => ⟨(cedes.active_of h).1, (cedes.active_of h).2.2⟩

theorem Advances.at_place (advances : f.Advances s m g outputs) {place : Nat} {old : Stage}
    (hold : f.stages[place]? = some old) :
    (m.place? = some place ∧ ∃ new, g.stages[place]? = some new ∧
        Course s f.desk.view m old g.desk.view new outputs) ∨
      m.place? ≠ some place ∧ g.stages[place]? = some old := by
  have hlt : place < f.stages.length := (List.getElem?_eq_some_iff.1 hold).1
  cases advances with
  | absent missing =>
      refine .inr ⟨?_, hold⟩
      intro hplace
      rw [missing place hplace] at hold
      cases hold
  | @taken m q old' new d outputs hplace hold' course =>
      by_cases same : q = place
      · subst same
        rw [hold] at hold'
        cases hold'
        exact .inl ⟨hplace, new, List.getElem?_set_self hlt, course⟩
      · refine .inr ⟨?_, (List.getElem?_set_ne same).trans hold⟩
        rw [hplace]
        intro h
        exact same (Option.some.inj h)
  | started course => exact .inr ⟨by rintro ⟨⟩, (List.getElem?_append_left hlt).trans hold⟩
  | made i => exact .inr ⟨by rintro ⟨⟩, (List.getElem?_append_left hlt).trans hold⟩
  | controlled c task reply cedes => exact .inr ⟨by rintro ⟨⟩, hold⟩

theorem Carries.of_course (carries : f.Carries) {place : Nat} {old new : Stage} {d : Desk}
    (hold : f.stages[place]? = some old) (closes : ∀ run, old.run? = some run → ¬old.Fails s run m)
    (course : Course s f.desk.view m old d.view new outputs) :
    Carries { desk := d, stages := f.stages.set place new } := by
  intro run active
  have hlt : place < f.stages.length := (List.getElem?_eq_some_iff.1 hold).1
  rcases course.active_of active with own | ⟨before, -, left⟩
  · exact ⟨place, new, List.getElem?_set_self hlt, own⟩
  -- The run was carried by an invocation already. If that is the one that took the turn, its
  -- stream could not be closed.
  · obtain ⟨q, stage, hstage, hrun⟩ := carries run before
    by_cases h : q = place
    · subst h
      rw [hold] at hstage
      cases hstage
      exact absurd (left hrun) (closes run hrun)
    · exact ⟨q, stage, (List.getElem?_set_ne (Ne.symm h)).trans hstage, hrun⟩

theorem Carries.add_unopened (carries : f.Carries) (i : Invocation) :
    Carries { f with stages := f.stages ++ [.unopened i] } := by
  intro run active
  obtain ⟨q, stage, hstage, hrun⟩ := carries run active
  have hlt : q < f.stages.length := (List.getElem?_eq_some_iff.1 hstage).1
  exact ⟨q, stage, (List.getElem?_append_left hlt).trans hstage, hrun⟩

theorem Advances.carries (advances : f.Advances s m g outputs) (carries : f.Carries)
    (closes : ¬f.FailsToClose s m) : g.Carries := by
  cases advances with
  | absent => exact carries
  | @taken m place old new d outputs hplace hold course =>
      refine carries.of_course hold ?_ course
      intro run hrun fails
      exact closes ⟨place, old, run, hplace, hold, hrun, fails⟩
  | @started i task new d _ course =>
      have last : (f.stages ++ [.unopened i])[f.stages.length]? = some (.unopened i) := by simp
      have turned := (carries.add_unopened i).of_course last (by rintro run ⟨⟩) course
      simpa using turned
  | made i => exact carries.add_unopened i
  | controlled c task reply cedes =>
      intro run active
      exact carries run (cedes.active_of active).1

theorem Advances.renews (advances : f.Advances s m g outputs) :
    f.desk.view.Renews g.desk.view := by
  have of_course : ∀ {old new : Stage} {v' : View},
      Course s f.desk.view m old v' new outputs → f.desk.view.Renews v' := by
    intro old new v' course
    rcases course.starts_or_keeps with ⟨i, task, -, -, starts⟩ | ⟨keeps, -⟩
    · refine ⟨Nat.le_of_lt (Nat.lt_of_lt_of_eq (Nat.lt_succ_self _) starts.nextRun.symm), ?_⟩
      intro run h
      rw [(starts.active_of h).1]
      exact .inr (Nat.le_refl _)
    · exact ⟨Nat.le_of_eq keeps.1.symm, fun run h => .inl (keeps.2 run h)⟩
  cases advances with
  | absent => exact ⟨Nat.le_refl _, fun run h => .inl h⟩
  | taken hplace hold course => exact of_course course
  | started course => exact of_course course
  | made i => exact ⟨Nat.le_refl _, fun run h => .inl h⟩
  | controlled c task reply cedes =>
      exact ⟨Nat.le_of_eq cedes.next.symm, fun run h => .inl (cedes.active_of h).1⟩

theorem Ordered.step (ordered : f.Ordered) (s : Setting) (m : Move) : (f.step s m).1.Ordered :=
  (step_advances s ordered.suits m).ordered ordered

theorem Ordered.run (ordered : f.Ordered) (s : Setting) (moves : List Move) :
    (f.run s moves).Ordered := by
  induction moves generalizing f with
  | nil => exact ordered
  | cons m moves ih => exact ih (ordered.step s m)

theorem ordered_run (s : Setting) (moves : List Move) : (Floor.run s {} moves).Ordered :=
  Ordered.run Coordinator.Ordered.initial s moves

/-- As long as every stream can be closed, the active run belongs to an invocation. -/
theorem Carries.run (carries : f.Carries) (ordered : f.Ordered) {moves : List Move}
    (closes : f.Closes s moves) : (f.run s moves).Carries := by
  induction moves generalizing f with
  | nil => exact carries
  | cons m moves ih =>
      exact ih ((step_advances s ordered.suits m).carries carries closes.1) (ordered.step s m)
        closes.2

/-- An invocation stays at its stage while moves of others are carried out. -/
theorem step_elsewhere {place : Nat} {stage : Stage} (ordered : f.Ordered)
    (hold : f.stages[place]? = some stage) (elsewhere : m.place? ≠ some place) :
    (f.step s m).1.stages[place]? = some stage := by
  rcases (step_advances s ordered.suits m).at_place hold with ⟨here, -⟩ | ⟨-, stays⟩
  · exact absurd here elsewhere
  · exact stays

theorem run_elsewhere {place : Nat} {stage : Stage} (ordered : f.Ordered)
    (hold : f.stages[place]? = some stage) {moves : List Move}
    (elsewhere : ∀ m ∈ moves, m.place? ≠ some place) :
    (f.run s moves).stages[place]? = some stage := by
  induction moves generalizing f with
  | nil => exact hold
  | cons m moves ih =>
      have stays := step_elsewhere (s := s) ordered hold (elsewhere m (List.mem_cons_self ..))
      exact ih (ordered.step s m) stays fun m' later => elsewhere m' (List.mem_cons_of_mem m later)

end Floor

end ActionEngine.Coordinator
