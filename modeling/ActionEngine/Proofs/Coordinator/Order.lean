import ActionEngine.Proofs.Coordinator.Turn

/-!
# The order of the runs

Runs are numbered as they begin. The active run is the last of them, every invocation has
a run of its own, and its stage suits the desk. A turn of one invocation keeps this if it
begins at most the next run and leaves the active run alone unless it is its own.
-/

namespace ActionEngine.Coordinator

/-- The stage fits the desk, or it waits until its stream is closed. -/
def Stage.Suits (v : View) : Stage → Prop
  | .waitingClose .. => True
  | stage => stage.Fits v

/-- The runs of a desk and of the stages of its invocations are in order. -/
structure Ordered (v : View) (stages : List Stage) : Prop where
  /-- The active run is the one that began last. -/
  newest : ∀ run, v.active = some run → run.number + 1 = v.nextRun
  /-- Runs are numbered as they begin. -/
  numbered : ∀ (place : Nat) (stage : Stage) (run : Run), stages[place]? = some stage →
    stage.run? = some run → run.number < v.nextRun
  /-- No two invocations share a run. -/
  apart : ∀ (p q : Nat) (stage stage' : Stage) (run run' : Run),
    stages[p]? = some stage → stages[q]? = some stage' → stage.run? = some run →
      stage'.run? = some run' → run.number = run'.number → p = q
  /-- The number of the active run names it. -/
  named : ∀ (place : Nat) (stage : Stage) (run active : Run), stages[place]? = some stage →
    stage.run? = some run → v.active = some active → run.number = active.number → run = active
  /-- Every stage suits the desk. -/
  suits : ∀ (place : Nat) (stage : Stage), stages[place]? = some stage → stage.Suits v

/-- A turn that keeps the runs in order. -/
structure Orderly (v : View) (old : Stage) (v' : View) (new : Stage) : Prop where
  newest : ∀ run, v'.active = some run → run.number + 1 = v'.nextRun
  grows : v.nextRun ≤ v'.nextRun
  numbered : ∀ run, new.run? = some run →
    old.run? = some run ∨ v.nextRun ≤ run.number ∧ run.number < v'.nextRun
  /-- The run that is active now is the one that took the turn, or it was so before and
      its lifecycle was left alone. -/
  active : ∀ run, v'.active = some run →
    new.run? = some run ∨ v.active = some run ∧ v'.lifecycle = v.lifecycle
  suits : new.Suits v'

theorem Stage.Fits.suits {v : View} {stage : Stage} (fits : stage.Fits v) : stage.Suits v := by
  cases stage with
  | waitingClose run outputs task => trivial
  | _ => exact fits

theorem Stage.Suits.fits_or_waits {v : View} {stage : Stage} (suits : stage.Suits v) :
    stage.Fits v ∨ ∃ run outputs task, stage = .waitingClose run outputs task := by
  cases stage with
  | waitingClose run outputs task => exact .inr ⟨run, outputs, task, rfl⟩
  | _ => exact .inl suits

theorem Stage.fits_of_run?_eq_none {v : View} {stage : Stage} (h : stage.run? = none) :
    stage.Fits v := by
  cases stage <;> first | exact trivial | cases h

/-- A stage goes on fitting as long as its run does not become the active one and the
    lifecycle of the active run is left alone. -/
theorem Stage.Fits.mono {v v' : View} {stage : Stage} (fits : stage.Fits v)
    (h : ∀ run, stage.run? = some run → v'.active = some run →
      v.active = some run ∧ v'.lifecycle = v.lifecycle) : stage.Fits v' := by
  cases stage with
  | waitingReply run i target =>
      refine ⟨fits.1, fun active => ?_⟩
      obtain ⟨before, same⟩ := h run rfl active
      exact same ▸ fits.2 before
  | waitingChunk run snapshot task =>
      refine ⟨fits.1, fun active => ?_⟩
      obtain ⟨before, same⟩ := h run rfl active
      exact same ▸ fits.2 before
  | shown run snapshot =>
      refine ⟨fits.1, fun active => ?_⟩
      obtain ⟨before, same⟩ := h run rfl active
      exact same ▸ fits.2 before
  | shownLast run => exact fun active => fits (h run rfl active).1
  | waitingClose run outputs task => exact fits.elim
  | _ => trivial

theorem Stage.Suits.mono {v v' : View} {stage : Stage} (suits : stage.Suits v)
    (h : ∀ run, stage.run? = some run → v'.active = some run →
      v.active = some run ∧ v'.lifecycle = v.lifecycle) : stage.Suits v' := by
  rcases suits.fits_or_waits with fits | ⟨run, outputs, task, rfl⟩
  · exact (fits.mono h).suits
  · trivial

theorem getElem?_set_cases {stages : List Stage} {place q : Nat} {new stage : Stage}
    (h : (stages.set place new)[q]? = some stage) :
    q = place ∧ stage = new ∨ q ≠ place ∧ stages[q]? = some stage := by
  rw [List.getElem?_set] at h
  by_cases same : place = q
  · rw [if_pos same] at h
    split at h
    · exact .inl ⟨same.symm, (Option.some.inj h).symm⟩
    · cases h
  · rw [if_neg same] at h
    exact .inr ⟨fun h => same h.symm, h⟩

namespace Ordered

theorem initial : Ordered ({} : Floor).desk.view [] where
  newest run h := by cases h
  numbered place stage run h := by cases h
  apart p q stage stage' run run' h := by cases h
  named place stage run active h := by cases h
  suits place stage h := by cases h

variable {v v' : View} {stages : List Stage}

/-- The run of the new stage is the old one or a fresh one, so no other invocation has
    it. -/
theorem alone (ordered : Ordered v stages) {place : Nat} {old new : Stage}
    (hold : stages[place]? = some old) (orderly : Orderly v old v' new) {q : Nat}
    {stage : Stage} {run run' : Run} (hq : q ≠ place) (hstage : stages[q]? = some stage)
    (hrun : stage.run? = some run) (hrun' : new.run? = some run') :
    run.number ≠ run'.number := by
  intro same
  rcases orderly.numbered run' hrun' with before | ⟨fresh, _⟩
  · exact hq (ordered.apart q place stage old run run' hstage hold hrun before same)
  · have older := ordered.numbered q stage run hstage hrun
    omega

theorem named_new (ordered : Ordered v stages) {place : Nat} {old new : Stage}
    (hold : stages[place]? = some old) (orderly : Orderly v old v' new) {run active : Run}
    (hrun : new.run? = some run) (hactive : v'.active = some active)
    (same : run.number = active.number) : run = active := by
  rcases orderly.active active hactive with own | ⟨before, _⟩
  · exact Option.some.inj (hrun.symm.trans own)
  · rcases orderly.numbered run hrun with earlier | ⟨fresh, _⟩
    · exact ordered.named place old run active hold earlier before same
    · have newest := ordered.newest active before
      omega

theorem put (ordered : Ordered v stages) {place : Nat} {old new : Stage}
    (hold : stages[place]? = some old) (orderly : Orderly v old v' new) :
    Ordered v' (stages.set place new) := by
  refine ⟨orderly.newest, ?_, ?_, ?_, ?_⟩
  · intro q stage run hstage hrun
    rcases getElem?_set_cases hstage with ⟨rfl, rfl⟩ | ⟨hq, hstage⟩
    · rcases orderly.numbered run hrun with before | ⟨_, fresh⟩
      · exact Nat.lt_of_lt_of_le (ordered.numbered q old run hold before) orderly.grows
      · exact fresh
    · exact Nat.lt_of_lt_of_le (ordered.numbered q stage run hstage hrun) orderly.grows
  · intro p q stage stage' run run' hp hq hrun hrun' same
    rcases getElem?_set_cases hp with ⟨rfl, rfl⟩ | ⟨hpne, before⟩
    · rcases getElem?_set_cases hq with ⟨rfl, rfl⟩ | ⟨hqne, after⟩
      · rfl
      · exact absurd same.symm (ordered.alone hold orderly hqne after hrun' hrun)
    · rcases getElem?_set_cases hq with ⟨rfl, rfl⟩ | ⟨hqne, after⟩
      · exact absurd same (ordered.alone hold orderly hpne before hrun hrun')
      · exact ordered.apart p q stage stage' run run' before after hrun hrun' same
  · intro q stage run active hstage hrun hactive same
    rcases getElem?_set_cases hstage with ⟨rfl, rfl⟩ | ⟨hq, hstage⟩
    · exact ordered.named_new hold orderly hrun hactive same
    · rcases orderly.active active hactive with own | ⟨before, _⟩
      · exact absurd same (ordered.alone hold orderly hq hstage hrun own)
      · exact ordered.named q stage run active hstage hrun before same
  · intro q stage hstage
    rcases getElem?_set_cases hstage with ⟨rfl, rfl⟩ | ⟨hq, hstage⟩
    · exact orderly.suits
    · refine (ordered.suits q stage hstage).mono ?_
      intro run hrun active
      rcases orderly.active run active with own | same
      · exact absurd rfl (ordered.alone hold orderly hq hstage hrun own)
      · exact same

/-- The order is kept while no run begins and the active run at most goes. -/
theorem mono (ordered : Ordered v stages) (next : v'.nextRun = v.nextRun)
    (active : ∀ run, v'.active = some run → v.active = some run ∧ v'.lifecycle = v.lifecycle) :
    Ordered v' stages where
  newest run h := by
    rw [next]
    exact ordered.newest run (active run h).1
  numbered place stage run hstage hrun := by
    rw [next]
    exact ordered.numbered place stage run hstage hrun
  apart := ordered.apart
  named place stage run r hstage hrun h :=
    ordered.named place stage run r hstage hrun (active r h).1
  suits place stage hstage := (ordered.suits place stage hstage).mono fun run _ h => active run h

theorem add_unopened (ordered : Ordered v stages) (i : Invocation) :
    Ordered v (stages ++ [.unopened i]) := by
  have earlier : ∀ (q : Nat) (stage : Stage), (stages ++ [.unopened i])[q]? = some stage →
      stages[q]? = some stage ∨ stage = .unopened i := by
    intro q stage h
    rw [List.getElem?_append] at h
    split at h
    · exact .inl h
    · exact .inr (List.mem_singleton.1 (List.mem_of_getElem? h))
  have begun : ∀ (q : Nat) (stage : Stage) (run : Run),
      (stages ++ [.unopened i])[q]? = some stage → stage.run? = some run →
        stages[q]? = some stage := by
    intro q stage run h hrun
    rcases earlier q stage h with h | rfl
    · exact h
    · cases hrun
  refine ⟨ordered.newest, ?_, ?_, ?_, ?_⟩
  · intro q stage run hstage hrun
    exact ordered.numbered q stage run (begun q stage run hstage hrun) hrun
  · intro p q stage stage' run run' hp hq hrun hrun' same
    exact ordered.apart p q stage stage' run run' (begun p stage run hp hrun)
      (begun q stage' run' hq hrun') hrun hrun' same
  · intro q stage run active hstage hrun
    exact ordered.named q stage run active (begun q stage run hstage hrun) hrun
  · intro q stage hstage
    rcases earlier q stage hstage with h | rfl
    · exact ordered.suits q stage h
    · trivial

end Ordered

end ActionEngine.Coordinator
