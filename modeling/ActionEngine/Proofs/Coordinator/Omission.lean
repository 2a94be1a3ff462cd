import ActionEngine.Proofs.Coordinator.Alike

/-!
# Leaving an invocation out

A floor without one of its invocations, and moves without those of that invocation. What all
other moves do and show is the same on both floors, as long as the desks match: an invocation
touches the others through the desk alone.
-/

namespace ActionEngine.Coordinator

/-! ### Moves -/

/-- The same move for the invocation at another place. -/
def Move.toPlace (q : Nat) : Move → Move
  | .pull _ task => .pull q task
  | .searched _ => .searched q
  | .refuse _ fault => .refuse q fault
  | .text _ reply => .text q reply
  | .ending _ => .ending q
  | .fail _ fault => .fail q fault
  | .interrupt _ => .interrupt q
  | .close _ task => .close q task
  | .shut _ fault => .shut q fault
  | m => m

theorem Move.toPlace_place? {m : Move} {p : Nat} (hplace : m.place? = some p) (q : Nat) :
    (m.toPlace q).place? = some q := by
  cases m <;> first | rfl | cases hplace

theorem Move.turn_toPlace (s : Setting) (d : Desk) (m : Move) (q : Nat) (stage : Stage) :
    (m.toPlace q).turn s d stage = m.turn s d stage := by
  cases m <;> cases stage <;> rfl

/-- A move on a floor that lacks the invocation at a place: its own moves are left out, and
    the invocations after it come one place earlier. -/
def Move.around (place : Nat) (m : Move) : Option Move :=
  match m.place? with
  | none => some m
  | some q => if q = place then none else some (m.toPlace (if q < place then q else q - 1))

theorem Move.of_around {m m' : Move} {place q : Nat} (hplace : m.place? = some q)
    (around : m.around place = some m') :
    q ≠ place ∧ m' = m.toPlace (if q < place then q else q - 1) := by
  unfold Move.around at around
  rw [hplace] at around
  by_cases own : q = place
  · simp [own] at around
  · simp only [if_neg own] at around
    cases around
    exact ⟨own, rfl⟩

/-- What the moves show, one after the other. -/
def Floor.trace (s : Setting) : Floor → List Move → List (Move × List Output)
  | _, [] => []
  | f, m :: moves => (m, (f.step s m).2) :: Floor.trace s (f.step s m).1 moves

def withoutPlace (place : Nat) (trace : List (Move × List Output)) : List (Move × List Output) :=
  trace.filterMap fun entry => (entry.1.around place).map fun m => (m, entry.2)

theorem getElem?_eraseIdx_around {stages : List Stage} {place q : Nat} (other : q ≠ place) :
    (stages.eraseIdx place)[if q < place then q else q - 1]? = stages[q]? := by
  rw [List.getElem?_eraseIdx]
  by_cases before : q < place
  · rw [if_pos before, if_pos before]
  · rw [if_neg before, if_neg (by omega), Nat.sub_add_cancel (by omega)]

theorem eraseIdx_set_around {stages : List Stage} {place q : Nat} (other : q ≠ place)
    (stage : Stage) : (stages.set q stage).eraseIdx place =
      (stages.eraseIdx place).set (if q < place then q else q - 1) stage := by
  by_cases before : q < place
  · rw [if_pos before, List.eraseIdx_set_gt before]
  · rw [if_neg before, List.eraseIdx_set_lt (by omega)]

/-! ### Floors -/

namespace Floor

variable {g h : Floor} {m : Move} {place : Nat}

/-- A floor is as another one without the invocation at a place. -/
structure Without (place : Nat) (g h : Floor) : Prop where
  desk : g.desk.Matches h.desk
  stages : h.stages = g.stages.eraseIdx place
  there : place < g.stages.length

namespace Without

theorem added (without : g.Without place h) {segment segment' : Segment}
    (alike : segment.1.Matches segment'.1 ∧ segment.2 = segment'.2) :
    (g.add segment).1.Without place (h.add segment').1 ∧
      (g.add segment).2 = (h.add segment').2 := by
  have shown : segment.2.2 = segment'.2.2 := congrArg Prod.snd alike.2
  refine ⟨⟨alike.1, ?_, ?_⟩, shown⟩
  · simp only [add]
    rw [List.eraseIdx_append_of_lt_length without.there, without.stages, alike.2]
  · simp only [add, List.length_append]
    exact Nat.lt_add_right _ without.there

/-- Every other invocation stands at the same stage on both floors. -/
theorem same (without : g.Without place h) {q : Nat} (other : q ≠ place) :
    h.stages[if q < place then q else q - 1]? = g.stages[q]? := by
  rw [without.stages]
  exact getElem?_eraseIdx_around other

theorem turned (without : g.Without place h) {q : Nat} (other : q ≠ place)
    {segment segment' : Segment}
    (alike : segment.1.Matches segment'.1 ∧ segment.2 = segment'.2) :
    (g.put q segment).1.Without place (h.put (if q < place then q else q - 1) segment').1 ∧
      (g.put q segment).2 = (h.put (if q < place then q else q - 1) segment').2 := by
  have shown : segment.2.2 = segment'.2.2 := congrArg Prod.snd alike.2
  refine ⟨⟨alike.1, ?_, ?_⟩, shown⟩
  · simp only [put]
    rw [eraseIdx_set_around other, without.stages, alike.2]
  · simpa [put] using without.there

/-- A move of another invocation does and shows the same on both floors. -/
theorem step {m' : Move} (without : g.Without place h) (s : Setting)
    (around : m.around place = some m') :
    (g.step s m).1.Without place (h.step s m').1 ∧ (g.step s m).2 = (h.step s m').2 := by
  have does := step_does s g m
  generalize g.step s m = after at does ⊢
  cases does with
  | absent hplace missing =>
      obtain ⟨other, rfl⟩ := Move.of_around hplace around
      rw [step_absent (Move.toPlace_place? hplace _) ((without.same other).trans missing)]
      exact ⟨without, rfl⟩
  | @taken m q stage hplace hold =>
      obtain ⟨other, rfl⟩ := Move.of_around hplace around
      rw [step_eq_turn (Move.toPlace_place? hplace _) ((without.same other).trans hold),
        Move.turn_toPlace]
      exact without.turned other (without.desk.turn m stage)
  | started i task =>
      cases around
      have opened := (without.desk.during (some task)).openSingle (s := s) i task
      exact without.added (opened.imp_left .of_alike)
  | made i =>
      cases around
      exact without.added ⟨without.desk, rfl⟩
  | controlled c task =>
      cases around
      obtain ⟨alike, reply⟩ := (without.desk.during task).control s.tell_oblivious c
      exact ⟨⟨.of_alike alike, without.stages, without.there⟩,
        congrArg (fun r => [Output.replied r]) reply⟩

end Without

theorem place?_of_around_eq_none (h : m.around place = none) : m.place? = some place := by
  unfold Move.around at h
  cases hplace : m.place? with
  | none =>
      rw [hplace] at h
      cases h
  | some q =>
      by_cases own : q = place
      · rw [own]
      · simp [hplace, own] at h

theorem place?_ne_of_around_eq_some {m' : Move} (h : m.around place = some m') :
    m.place? ≠ some place := by
  intro own
  exact (Move.of_around own h).1 rfl

end Floor

end ActionEngine.Coordinator
