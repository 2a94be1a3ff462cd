import ActionEngine.Proofs.Coordinator.Publication

/-!
# What observers can do

An observer may answer an event by a control, in the middle of the operation that
published it. Every control either leaves the active run alone or takes it away, and so
does any number of them: `View.Cedes` says what that leaves of a desk. Each operation is
then described up to the answers of observers.
-/

namespace ActionEngine

/-- The event announces a run: its action is loading. -/
def Event.announces : Event → Bool
  | .stateChanged _ (.loading _) => true
  | _ => false

/-- What controls publish: the end of processing, and the return to the idle state. -/
def Event.settles : Event → Bool
  | .stateChanged _ .idle => true
  | .processingChanged on => !on
  | _ => false

theorem Event.announces_eq_false_of_settles {e : Event} (h : e.settles = true) :
    e.announces = false := by
  cases e with
  | stateChanged previous current => cases current <;> first | rfl | cases h
  | _ => rfl

namespace Coordinator

/-- Between two views nothing but controls was carried out. -/
structure View.Cedes (v v' : View) : Prop where
  next : v'.nextRun = v.nextRun
  quiet : v.Publishes v' fun e => e.settles = true
  /-- Nothing happened to the active run, or it was taken away. -/
  runs : v'.active = v.active ∧ v'.processing = v.processing ∧
      (v.active.isSome → v'.lifecycle = v.lifecycle) ∨
    v.active.isSome ∧ v'.active = none ∧ v'.processing = false

namespace View.Cedes

variable {s : Setting} {v v' v'' : View}

theorem refl (v : View) : v.Cedes v :=
  ⟨rfl, .of_events_eq rfl, .inl ⟨rfl, rfl, fun _ => rfl⟩⟩

theorem trans (first : v.Cedes v') (second : v'.Cedes v'') : v.Cedes v'' := by
  refine ⟨second.next.trans first.next, first.quiet.trans second.quiet, ?_⟩
  rcases first.runs with ⟨active, flag, same⟩ | ⟨busy, vacant, down⟩
  · rcases second.runs with ⟨active', flag', same'⟩ | ⟨busy, vacant, down⟩
    · refine .inl ⟨active'.trans active, flag'.trans flag, ?_⟩
      intro busy
      rw [same' (by rw [active]; exact busy), same busy]
    · exact .inr ⟨by rw [← active]; exact busy, vacant, down⟩
  · rcases second.runs with ⟨active', flag', -⟩ | ⟨busy', -, -⟩
    · exact .inr ⟨busy, active'.trans vacant, flag'.trans down⟩
    · rw [vacant] at busy'
      cases busy'

/-- Without an active run there is none afterwards, and the flag stays as it is. -/
theorem vacant (cedes : v.Cedes v') (h : v.active = none) :
    v'.active = none ∧ v'.processing = v.processing := by
  rcases cedes.runs with ⟨active, flag, -⟩ | ⟨busy, -, -⟩
  · exact ⟨active.trans h, flag⟩
  · rw [h] at busy
    cases busy

theorem active_of (cedes : v.Cedes v') {run : Run} (h : v'.active = some run) :
    v.active = some run ∧ v'.processing = v.processing ∧ v'.lifecycle = v.lifecycle := by
  rcases cedes.runs with ⟨active, flag, same⟩ | ⟨-, vacant, -⟩
  · have before : v.active = some run := active.symm.trans h
    exact ⟨before, flag, same (by rw [before]; rfl)⟩
  · rw [vacant] at h
    cases h

theorem released (s : Setting) (v : View) : v.Cedes (v.released s) := by
  refine ⟨View.released_nextRun s v, .released rfl, ?_⟩
  unfold View.released
  by_cases busy : v.active.isSome
  · rw [if_pos busy]
    exact .inr ⟨busy, rfl, rfl⟩
  · rw [if_neg busy]
    exact .inl ⟨rfl, rfl, fun _ => rfl⟩

theorem reset (s : Setting) (h : v.active = none) : v.Cedes (v.entered s .idle) := by
  refine ⟨rfl, .entered rfl, .inl ⟨rfl, rfl, ?_⟩⟩
  intro busy
  rw [h] at busy
  cases busy

end View.Cedes

/-- A way of publishing lets the observers hear the event, and answer it. -/
def Setting.Hears (s : Setting) (publish : Desk.Publish) : Prop :=
  ∀ d e, View.Cedes { d.view with events := d.view.events ++ s.heard e } (publish d e).view

namespace Desk

/-! ### Operations, for any way of publishing -/

section Publish

variable {s : Setting} {publish : Publish} (hears : s.Hears publish) (d : Desk)
include hears

theorem flagged_cedes (on : Bool) :
    (d.view.flagged s on).Cedes (d.setProcessing publish on).view := by
  unfold setProcessing View.flagged
  by_cases same : d.processing = on
  · rw [if_pos same]
    have unchanged : d.view.processing = on := same
    simp only [if_pos unchanged, List.append_nil]
    rw [← unchanged]
    exact .refl d.view
  · rw [if_neg same]
    have changed : ¬d.view.processing = on := same
    rw [if_neg changed]
    exact hears { d with processing := on } (.processingChanged on)

theorem entered_cedes (next : Lifecycle.State) :
    (d.view.entered s next).Cedes (d.enter publish next).view :=
  hears { d with lifecycle := d.lifecycle.move next } (.stateChanged d.lifecycle.state next)

theorem released_cedes : (d.view.released s).Cedes (d.retire publish).view := by
  have same : d.view.active = d.active := rfl
  unfold retire View.released
  rw [same]
  cases d.active with
  | none => exact .refl d.view
  | some run => exact flagged_cedes hears { d with active := none } false

theorem retire_cedes : d.view.Cedes (d.retire publish).view :=
  (View.Cedes.released s d.view).trans (released_cedes hears d)

theorem retire_vacates : (d.retire publish).view.active = none :=
  ((released_cedes hears d).vacant (View.released_active s d.view)).1

theorem dismiss_cedes : d.view.Cedes (d.dismiss publish).view := by
  have retired := retire_cedes hears d
  unfold dismiss reset
  split
  · exact retired
  · have vacant := retire_vacates hears d
    have entered := entered_cedes hears (d.retire publish) .idle
    exact retired.trans ((View.Cedes.reset s vacant).trans entered)

theorem dismiss_vacates : (d.dismiss publish).view.active = none := by
  have vacant := retire_vacates hears d
  unfold dismiss reset
  split
  · exact vacant
  · exact ((entered_cedes hears (d.retire publish) .idle).vacant vacant).1

/-- A control that finds nothing to accept or to cancel leaves everything as it is. -/
theorem control_cedes (c : Control) : d.view.Cedes (d.control publish c).1.view := by
  cases c with
  | accept =>
      unfold control accept
      cases d.lifecycle.state.suggestion? with
      | none => exact .refl d.view
      | some suggestion => exact dismiss_cedes hears d
  | reject => exact dismiss_cedes hears d
  | clear => exact dismiss_cedes hears d
  | cancel =>
      unfold control cancel
      cases h : d.active with
      | none => exact .refl d.view
      | some run =>
          dsimp only
          rw [view_askToStop]
          -- `Cedes` does not look at the runs that were cancelled.
          have cedes := retire_cedes hears
            { d.remark .info ("Cancelling AI action: " ++ run.action) with
              cancelled := d.cancelled ++ [run.number] }
          exact ⟨cedes.next, cedes.quiet, cedes.runs⟩

theorem control_vacates {c : Control} (h : c ≠ .accept) :
    (d.control publish c).1.view.active = none := by
  cases c with
  | accept => exact absurd rfl h
  | reject => exact dismiss_vacates hears d
  | clear => exact dismiss_vacates hears d
  | cancel =>
      unfold control cancel
      cases hactive : d.active with
      | none => exact hactive
      | some run =>
          dsimp only
          rw [view_askToStop]
          exact retire_vacates hears _

theorem answers_cede (e : Event) (controls : List Control) :
    d.view.Cedes (controls.foldl (answer publish e) d).view := by
  induction controls generalizing d with
  | nil => exact .refl d.view
  | cons c controls ih => exact (control_cedes hears d c).trans (ih (answer publish e d c))

end Publish

/-! ### Publishing -/

variable (s : Setting)

theorem publishWithin_hears (visible : (s.handlers == 0) = false) (depth : Nat) :
    s.Hears (publishWithin s depth) := by
  have record_view (d : Desk) (e : Event) : (d.record s.handlers e).view =
      { d.view with events := d.view.events ++ s.heard e } := by
    unfold Setting.heard
    rw [visible]
    rfl
  induction depth with
  | zero =>
      intro d e
      rw [← record_view d e]
      exact .refl _
  | succ depth ih =>
      intro d e
      rw [← record_view d e]
      exact answers_cede ih _ e _

theorem tell_hears : s.Hears s.tell := by
  intro d e
  unfold Setting.tell
  cases visible : s.handlers == 0 with
  | true =>
      have unheard : s.heard e = [] := by
        unfold Setting.heard
        rw [visible]
        rfl
      simp only [unheard, List.append_nil]
      exact .refl d.view
  | false => exact publishWithin_hears s visible _ d e

/-! ### The depth of answers

Every control that publishes takes something away first, so there is always depth left for
the answers to it: `tell` lets the observers answer each event, whatever they do. -/

/-- A way of publishing after which the observers cannot take away more than before. -/
def Publish.Lessens (publish : Publish) : Prop :=
  ∀ d e, (publish d e).pending ≤ d.pending

section Lessens

variable (d : Desk)

theorem pending_vacated_lt (busy : d.active.isSome) :
    { d with active := none, processing := false }.pending < d.pending := by
  unfold pending
  grind

theorem pending_idle_lt (offered : ¬d.lifecycle.state.isIdle = true) :
    { d with lifecycle := d.lifecycle.move .idle }.pending < d.pending := by
  unfold pending
  have idle : (d.lifecycle.move .idle).state.isIdle = true := rfl
  grind

variable {publish : Publish} (lessens : publish.Lessens)
include lessens

theorem setProcessing_pending (on : Bool) :
    (d.setProcessing publish on).pending ≤ { d with processing := on }.pending := by
  unfold setProcessing
  by_cases same : d.processing = on
  · rw [if_pos same]
    subst same
    exact Nat.le_refl _
  · rw [if_neg same]
    exact lessens _ _

theorem retire_pending : (d.retire publish).pending ≤ d.pending := by
  unfold retire
  cases busy : d.active with
  | none => exact Nat.le_refl _
  | some run =>
      have vacated := pending_vacated_lt d (by rw [busy]; rfl)
      have flagged := setProcessing_pending { d with active := none } lessens false
      exact Nat.le_trans flagged (Nat.le_of_lt vacated)

theorem reset_pending : (d.reset publish).pending ≤ d.pending := by
  unfold reset
  by_cases idle : d.lifecycle.state.isIdle = true
  · exact Nat.le_of_eq (congrArg pending (if_pos idle))
  · rw [if_neg idle]
    exact Nat.le_trans (lessens _ _) (Nat.le_of_lt (pending_idle_lt d idle))

theorem dismiss_pending : (d.dismiss publish).pending ≤ d.pending :=
  Nat.le_trans (reset_pending _ lessens) (retire_pending d lessens)

theorem control_pending (c : Control) : (d.control publish c).1.pending ≤ d.pending := by
  cases c with
  | accept =>
      unfold control accept
      cases d.lifecycle.state.suggestion? with
      | none => exact Nat.le_refl _
      | some suggestion => exact dismiss_pending d lessens
  | reject => exact dismiss_pending d lessens
  | clear => exact dismiss_pending d lessens
  | cancel =>
      unfold control cancel
      cases busy : d.active with
      | none => exact Nat.le_refl _
      | some run =>
          dsimp only
          unfold askToStop
          have retired := retire_pending
            { d.remark .info ("Cancelling AI action: " ++ run.action) with
              cancelled := d.cancelled ++ [run.number] } lessens
          split <;> exact retired

theorem answers_pending (e : Event) (controls : List Control) :
    (controls.foldl (answer publish e) d).pending ≤ d.pending := by
  induction controls generalizing d with
  | nil => exact Nat.le_refl _
  | cons c controls ih =>
      exact Nat.le_trans (ih (answer publish e d c)) (control_pending d lessens c)

end Lessens

theorem publishWithin_lessens (depth : Nat) : (publishWithin s depth).Lessens := by
  induction depth with
  | zero =>
      intro d e
      exact Nat.le_refl _
  | succ depth ih =>
      intro d e
      exact answers_pending (d.record s.handlers e) ih e _

/-- Two ways of publishing do the same as long as little can be taken away. -/
def Publish.Agree (publish publish' : Publish) (bound : Nat) : Prop :=
  ∀ d e, d.pending < bound → publish d e = publish' d e

section Agree

variable {publish publish' : Publish} {bound : Nat} (agree : publish.Agree publish' bound)
  (d : Desk) (small : d.pending ≤ bound)
include agree small

theorem retire_agree : d.retire publish = d.retire publish' := by
  unfold retire setProcessing
  cases busy : d.active with
  | none => rfl
  | some run =>
      have vacated := pending_vacated_lt d (by rw [busy]; rfl)
      dsimp only
      rw [agree { d with active := none, processing := false } _ (Nat.lt_of_lt_of_le vacated small)]

theorem reset_agree : d.reset publish = d.reset publish' := by
  unfold reset enter
  by_cases idle : d.lifecycle.state.isIdle = true
  · rw [if_pos idle, if_pos idle]
  · rw [if_neg idle, if_neg idle]
    exact agree _ _ (Nat.lt_of_lt_of_le (pending_idle_lt d idle) small)

theorem dismiss_agree (lessens : publish'.Lessens) : d.dismiss publish = d.dismiss publish' := by
  unfold dismiss
  rw [retire_agree agree d small]
  exact reset_agree agree _ (Nat.le_trans (retire_pending d lessens) small)

theorem control_agree (lessens : publish'.Lessens) (c : Control) :
    d.control publish c = d.control publish' c := by
  cases c with
  | accept =>
      have same := dismiss_agree agree d small lessens
      unfold dismiss at same
      unfold control accept
      rw [same]
  | reject =>
      unfold control
      rw [dismiss_agree agree d small lessens]
  | clear =>
      unfold control
      rw [dismiss_agree agree d small lessens]
  | cancel =>
      unfold control cancel
      cases busy : d.active with
      | none => rfl
      | some run =>
          dsimp only
          rw [retire_agree agree _ (by exact small)]

theorem answers_agree (lessens : publish'.Lessens) (e : Event) (controls : List Control) :
    controls.foldl (answer publish e) d = controls.foldl (answer publish' e) d := by
  induction controls generalizing d with
  | nil => rfl
  | cons c controls ih =>
      have same : answer publish e d c = answer publish' e d c := by
        unfold answer
        rw [control_agree agree d small lessens c]
      rw [List.foldl_cons, List.foldl_cons, same]
      exact ih _ (Nat.le_trans (control_pending d lessens c) small)

end Agree

/-- Depth beyond what can be taken away makes no difference. -/
theorem publishWithin_agree (m n : Nat) :
    Publish.Agree (publishWithin s m) (publishWithin s n) (min m n) := by
  induction m generalizing n with
  | zero =>
      intro d e small
      omega
  | succ m ih =>
      intro d e small
      cases n with
      | zero => omega
      | succ n =>
          have small : (d.record s.handlers e).pending ≤ min m n := by
            have same : (d.record s.handlers e).pending = d.pending := rfl
            omega
          exact answers_agree (ih n) _ small (publishWithin_lessens s n) e _

/-- A published event is noted, and then the observers answer it one after the other; what
    they do publishes events in the same way. -/
theorem tell_eq_answers (visible : (s.handlers == 0) = false) (d : Desk) (e : Event) :
    s.tell d e = (s.react (d.record s.handlers e).events).foldl (answer s.tell e)
      (d.record s.handlers e) := by
  have agree : Publish.Agree (publishWithin s d.pending) s.tell d.pending := by
    intro d' e' small
    unfold Setting.tell
    rw [visible]
    exact publishWithin_agree s d.pending (d'.pending + 1) d' e' (by omega)
  have lessens : Publish.Lessens s.tell := by
    intro d' e'
    unfold Setting.tell
    rw [visible]
    exact publishWithin_lessens s _ d' e'
  have told : s.tell d e = (s.react (d.record s.handlers e).events).foldl
      (answer (publishWithin s d.pending) e) (d.record s.handlers e) := by
    unfold Setting.tell
    rw [visible]
    rfl
  rw [told]
  exact answers_agree agree (d.record s.handlers e) (Nat.le_refl d.pending) lessens e _

end Desk

end Coordinator

end ActionEngine
