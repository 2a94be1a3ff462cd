import ActionEngine.Proofs.Bus.History
import Mathlib.Algebra.Order.BigOperators.Group.List
import Mathlib.Algebra.Order.Ring.Nat

/-!
# The depth of nested calls

Calls are nested up to a bound. A call that does something takes a scripted call away first, so
that the calls within it are fewer than those that were left, and the bound is never reached:
what a handler does, and what is told of it, does not depend on the bound at all.
-/

namespace ActionEngine.Bus

namespace World

/-! ### The scripted calls that are left -/

theorem scripted_eq_sum (w : World) :
    w.scripted = (w.scripts.map fun s => s.calls.length).sum := by
  unfold scripted
  rw [List.sum_eq_foldl, List.foldl_map]

@[simp] theorem noted_scripted (w : World) (target : Target) (event : Event) :
    (w.noted target event).scripted = w.scripted := rfl

/-- A handler without a script left does nothing, and any other one uses up a scripted call. -/
theorem takeScript_or (w : World) (handler : String) :
    w.takeScript handler = ([], w) ∨ (w.takeScript handler).2.scripted < w.scripted := by
  unfold takeScript
  cases found : w.scripts.find? fun s => s.handler == handler && !s.calls.isEmpty with
  | none => exact .inl rfl
  | some s =>
      right
      rw [scripted_eq_sum, scripted_eq_sum, List.map_map]
      apply List.sum_lt_sum
      · intro t _
        rw [Function.comp_apply]
        split
        · rw [List.length_tail]
          exact Nat.sub_le _ 1
        · exact Nat.le_refl _
      · refine ⟨s, List.mem_of_find?_eq_some found, ?_⟩
        obtain ⟨same, left⟩ : (s.handler == handler) = true ∧ s.calls ≠ [] := by
          simpa using List.find?_some found
        have length := List.length_pos_of_ne_nil left
        simp only [Function.comp_apply, if_pos same, List.length_tail]
        omega

/-- The bus by itself adds no scripted calls. -/
theorem scripted_kept (bound : Nat) : KeptByBus fun w => w.scripted ≤ bound where
  reheld _ _ _ few := few
  remarked _ _ few := few
  noted _ _ _ few := few
  pruned _ _ few := few
  scripted w handler few := by
    rcases w.takeScript_or handler with none_left | used
    · rw [none_left]
      exact few
    · exact Nat.le_trans (Nat.le_of_lt used) few
  performed w call command quiet few := by
    unfold scripted at few ⊢
    rw [(perform_frame_of_quiet call quiet w).2]
    exact few

/-! ### Calls that do the same -/

/-- Two ways of calling do the same, and tell the same, as long as few scripted calls are
    left. -/
def Agree (call call' : Call) (story story' : Story) (bound : Nat) : Prop :=
  ∀ w target event, w.scripted ≤ bound →
    call w target event = call' w target event ∧ story w target event = story' w target event

namespace Agree

variable {call call' : Call} {story story' : Story} {bound : Nat}
  (agree : Agree call call' story story' bound)
  (keeps : call'.Keeps fun w => w.scripted ≤ bound) {w : World} (few : w.scripted ≤ bound)
include agree few

theorem called (event : Event) (r : Registration) :
    w.called call event r = w.called call' event r := by
  unfold World.called
  rw [(agree w r.target event few).1]

include keeps

theorem deliver (event : Event) (rs : List Registration) (previous : Option Nat) :
    World.deliver call event rs previous w = World.deliver call' event rs previous w ∧
      deliverStory call story event rs previous w =
        deliverStory call' story' event rs previous w := by
  induction rs generalizing previous w with
  | nil => exact ⟨rfl, rfl⟩
  | cons r rest ih =>
      by_cases alive : w.canCall r.target = true
      · have reheld : (w.rehold previous r.target.object?).scripted ≤ bound := few
        obtain ⟨same, told⟩ := ih ((scripted_kept bound).called keeps reheld event r)
          r.target.object?
        rw [deliver_cons_of_canCall call event rest previous alive,
          deliver_cons_of_canCall call' event rest previous alive,
          deliverStory_cons_of_canCall call story event rest previous alive,
          deliverStory_cons_of_canCall call' story' event rest previous alive,
          agree.called reheld, (agree _ r.target event reheld).2, same, told]
        exact ⟨rfl, rfl⟩
      · obtain ⟨same, told⟩ := ih (w := w.rehold previous none) few none
        rw [deliver_cons_of_not_canCall call event rest previous alive,
          deliver_cons_of_not_canCall call' event rest previous alive,
          deliverStory_cons_of_not_canCall call story event rest previous alive,
          deliverStory_cons_of_not_canCall call' story' event rest previous alive, same, told]
        exact ⟨rfl, rfl⟩

theorem publish (event : Event) :
    w.publish call event = w.publish call' event ∧
      publishStory call story w event = publishStory call' story' w event := by
  have few : (w.announced event).scripted ≤ bound := few
  obtain ⟨same, told⟩ := agree.deliver keeps few event (w.registrations.ofKind event.kind) none
  unfold announced Registrations.count at same
  constructor
  · unfold World.publish
    dsimp only
    rw [same]
  · unfold publishStory
    rw [told]

theorem perform (commands : List Command) :
    World.perform call commands w = World.perform call' commands w ∧
      performStory call story commands w = performStory call' story' commands w := by
  induction commands generalizing w with
  | nil => exact ⟨rfl, rfl⟩
  | cons command rest ih =>
      rcases command.quiet_or with quiet | rfl | ⟨event, rfl⟩
      · obtain ⟨performed, told⟩ := perform_cons_of_quiet call story quiet rest w
        obtain ⟨performed', told'⟩ := perform_cons_of_quiet call' story' quiet rest w
        have alone : World.perform call [command] w = World.perform call' [command] w := by
          cases command with
          | publish event => exact quiet.elim
          | fail => exact quiet.elim
          | _ => rfl
        rw [performed, performed', told, told', alone]
        exact ih ((scripted_kept bound).performed w call' command quiet few)
      · exact ⟨rfl, rfl⟩
      · obtain ⟨same, told⟩ := agree.publish keeps few event
        obtain ⟨same_rest, told_rest⟩ := ih ((scripted_kept bound).publish keeps few event)
        simp only [World.perform, performStory]
        rw [same, told, same_rest, told_rest]
        exact ⟨rfl, rfl⟩

end Agree

/-! ### Depth to spare -/

/-- Without scripted calls no depth is needed. -/
theorem agree_zero (n : Nat) :
    Agree (callWithin 0) (callWithin n) (callStory 0) (callStory n) 0 := by
  intro w target event few
  cases n with
  | zero => exact ⟨rfl, rfl⟩
  | succ n =>
      obtain ⟨called, told⟩ := callWithin_succ n w target event
      have idle := (takeScript_or (w.noted target event) target.label).resolve_right fun used => by
        rw [noted_scripted] at used
        omega
      rw [called, told, idle]
      exact ⟨rfl, rfl⟩

/-- Depth beyond the scripted calls that are left makes no difference. -/
theorem callWithin_agree (m n : Nat) :
    Agree (callWithin m) (callWithin n) (callStory m) (callStory n) (min m n) := by
  induction m generalizing n with
  | zero =>
      rw [Nat.zero_min]
      exact agree_zero n
  | succ m ih =>
      intro w target event few
      cases n with
      | zero =>
          obtain ⟨same, told⟩ := agree_zero (m + 1) w target event (by omega)
          exact ⟨same.symm, told.symm⟩
      | succ n =>
          obtain ⟨called, told⟩ := callWithin_succ m w target event
          obtain ⟨called', told'⟩ := callWithin_succ n w target event
          rw [called, called', told, told']
          rcases takeScript_or (w.noted target event) target.label with idle | used
          · rw [idle]
            exact ⟨rfl, rfl⟩
          · -- This call has used up a scripted call, and needs one depth less.
            have fewer : ((w.noted target event).takeScript target.label).2.scripted ≤ min m n := by
              rw [noted_scripted] at used
              omega
            exact (ih n).perform ((scripted_kept _).callWithin n) fewer _

/-- Whatever depth is allowed for, a call is the script of its handler carried out, with calls
    in it that are allowed the same depth: there is always some left. -/
theorem callWithin_eq_perform {w : World} {depth : Nat} (deep : w.scripted ≤ depth)
    (target : Target) (event : Event) :
    callWithin depth w target event =
        perform (callWithin depth) ((w.noted target event).takeScript target.label).1
          ((w.noted target event).takeScript target.label).2 ∧
      callStory depth w target event =
        performStory (callWithin depth) (callStory depth)
          ((w.noted target event).takeScript target.label).1
          ((w.noted target event).takeScript target.label).2 := by
  obtain ⟨same, told⟩ := callWithin_agree depth (depth + 1) w target event (by omega)
  rw [same, told]
  exact callWithin_succ depth w target event

/-- A command from outside does the same, and its history is the same, at any depth that the
    scripted calls fit in. -/
theorem run_eq_perform {w : World} {depth : Nat} (deep : w.scripted ≤ depth) (command : Command)
    (commands : List Command) :
    w.run command = (perform (callWithin depth) [command] w).1 ∧
      w.history (command :: commands) =
        performStory (callWithin depth) (callStory depth) [command] w ++
          (w.run command).history commands := by
  have few : w.scripted ≤ min (w.scripted + 1) depth := by omega
  obtain ⟨same, told⟩ := (callWithin_agree (w.scripted + 1) depth).perform
    ((scripted_kept _).callWithin depth) few [command]
  constructor
  · unfold run
    rw [same]
  · rw [history, told]

end World

end ActionEngine.Bus
