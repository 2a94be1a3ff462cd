import ActionEngine.Fault
import Mathlib.Data.List.Forall2

/-!
# Steps

A step works on a state and either gives something back or fails; what it has done to the
state remains done. What a row of steps does is told from what each of them does.
-/

namespace ActionEngine.Steps

variable {σ α β : Type} {step : ExceptT Fault (StateM σ) α}
  {next : α → ExceptT Fault (StateM σ) β} {t t' : σ}

theorem run_bind (step : ExceptT Fault (StateM σ) α) (next : α → ExceptT Fault (StateM σ) β)
    (t : σ) :
    (step >>= next).run t = match step.run t with
      | (.ok a, t') => (next a).run t'
      | (.error fault, t') => (.error fault, t') := by
  change ExceptT.bindCont next (step.run t).1 (step.run t).2 = _
  rcases step.run t with ⟨_ | a, t'⟩ <;> rfl

theorem run_bind_of_ok {a : α} (h : step.run t = (.ok a, t')) :
    (step >>= next).run t = (next a).run t' := by
  rw [run_bind, h]

theorem run_bind_of_error {fault : Fault} (h : step.run t = (.error fault, t')) :
    (step >>= next).run t = (.error fault, t') := by
  rw [run_bind, h]

theorem run_get_bind (next : σ → ExceptT Fault (StateM σ) α) (t : σ) :
    ((get : ExceptT Fault (StateM σ) σ) >>= next).run t = (next t).run t := rfl

theorem run_lift (result : Except Fault α) (t : σ) :
    (liftM result : ExceptT Fault (StateM σ) α).run t = (result, t) := by
  cases result <;> rfl

/-- What a row of steps gives back comes from what its first step gives back. -/
theorem run_bind_ok {b : β} (h : (step >>= next).run t = (.ok b, t')) :
    ∃ a u, step.run t = (.ok a, u) ∧ (next a).run u = (.ok b, t') := by
  rw [run_bind] at h
  rcases ran : step.run t with ⟨_ | a, u⟩
  · rw [ran] at h
    cases h
  · rw [ran] at h
    exact ⟨a, u, rfl, h⟩

theorem run_tryCatch (step : ExceptT Fault (StateM σ) α)
    (handler : Fault → ExceptT Fault (StateM σ) α) (t : σ) :
    (tryCatch step handler).run t = match step.run t with
      | (.ok a, t') => (.ok a, t')
      | (.error fault, t') => (handler fault).run t' := by
  rcases ran : step.run t with ⟨fault | a, t'⟩
  · change step t = (.error fault, t') at ran
    simp only [ExceptT.run, tryCatch, tryCatchThe, MonadExceptOf.tryCatch, ExceptT.tryCatch,
      ExceptT.mk, Bind.bind, StateT.bind, ran]
  · change step t = (.ok a, t') at ran
    simp only [ExceptT.run, tryCatch, tryCatchThe, MonadExceptOf.tryCatch, ExceptT.tryCatch,
      ExceptT.mk, Bind.bind, StateT.bind, ran]
    rfl

theorem run_tryCatch_of_ok {handler : Fault → ExceptT Fault (StateM σ) α} {a : α}
    (h : step.run t = (.ok a, t')) : (tryCatch step handler).run t = (.ok a, t') := by
  rw [run_tryCatch, h]

theorem run_tryCatch_of_error {handler : Fault → ExceptT Fault (StateM σ) α} {fault : Fault}
    (h : step.run t = (.error fault, t')) :
    (tryCatch step handler).run t = (handler fault).run t' := by
  rw [run_tryCatch, h]

/-! ### Faults -/

/-- Whatever the step fails with at a state has a property. -/
def FailsAt (P : Fault → Prop) (step : ExceptT Fault (StateM σ) α) (t : σ) : Prop :=
  ∀ fault t', step.run t = (.error fault, t') → P fault

variable {P : Fault → Prop}

theorem FailsAt.of_ok {a : α} (h : step.run t = (.ok a, t')) : FailsAt P step t := by
  intro fault u failed
  rw [h] at failed
  cases failed

theorem FailsAt.bind (first : FailsAt P step t)
    (later : ∀ a t', step.run t = (.ok a, t') → FailsAt P (next a) t') :
    FailsAt P (step >>= next) t := by
  intro fault u h
  rw [run_bind] at h
  rcases ran : step.run t with ⟨other | a, t'⟩
  · rw [ran] at h
    cases h
    exact first fault _ ran
  · rw [ran] at h
    exact later a t' ran fault u h

/-! ### Two runs -/

/-- Both fail in the same way, or both give something and what they give is related. -/
inductive Matches {ε β : Type} (R : α → β → Prop) : Except ε α → Except ε β → Prop
  | error (fault : ε) : Matches R (.error fault) (.error fault)
  | ok {a : α} {b : β} (related : R a b) : Matches R (.ok a) (.ok b)

namespace Matches

variable {ε α' β' : Type} {R : α → α' → Prop} {S : β → β' → Prop} {x : Except ε α}
  {y : Except ε α'}

theorem bind {f : α → Except ε β} {g : α' → Except ε β'} (first : Matches R x y)
    (later : ∀ a b, R a b → Matches S (f a) (g b)) : Matches S (x >>= f) (y >>= g) := by
  cases first with
  | error fault => exact .error fault
  | ok related => exact later _ _ related

theorem imp {R' : α → α' → Prop} (h : Matches R x y) (imp : ∀ a b, R a b → R' a b) :
    Matches R' x y := by
  cases h with
  | error fault => exact .error fault
  | ok related => exact .ok (imp _ _ related)

theorem refl {R : α → α → Prop} (related : ∀ a, R a a) (x : Except ε α) : Matches R x x := by
  cases x with
  | error fault => exact .error fault
  | ok a => exact .ok (related a)

theorem foldlM {f : β → α → Except ε β} {g : β' → α' → Except ε β'}
    (step : ∀ b b' a a', S b b' → R a a' → Matches S (f b a) (g b' a')) {as : List α}
    {as' : List α'} (related : List.Forall₂ R as as') {b : β} {b' : β'} (start : S b b') :
    Matches S (as.foldlM f b) (as'.foldlM g b') := by
  induction related generalizing b b' with
  | nil => exact .ok start
  | cons first _ ih =>
      rw [List.foldlM_cons, List.foldlM_cons]
      exact (step _ _ _ _ start first).bind fun _ _ => ih

/-- What the first of two results gives may have a property besides. -/
theorem and {P : α → Prop} (h : Matches R x y) (left : ∀ a, x = .ok a → P a) :
    Matches (fun a b => P a ∧ R a b) x y := by
  cases h with
  | error fault => exact .error fault
  | ok related => exact .ok ⟨left _ rfl, related⟩

/-- What stands in for a failure has to be related, too. -/
theorem getD (h : Matches R x y) {a : α} {b : α'} (related : R a b) :
    R (x.toOption.getD a) (y.toOption.getD b) := by
  cases h with
  | error => exact related
  | ok related => exact related

end Matches

/-- Two runs end alike: with the same fault or with related results, and at related states. -/
structure Ends {α' : Type} (R : α → α' → Prop) (T : σ → σ → Prop) (r : Except Fault α × σ)
    (r' : Except Fault α' × σ) : Prop where
  result : Matches R r.1 r'.1
  left : T r.2 r'.2

theorem Ends.bind {α' β' : Type} {R : α → α' → Prop} {S : β → β' → Prop} {T T' : σ → σ → Prop}
    {step' : ExceptT Fault (StateM σ) α'} {next' : α' → ExceptT Fault (StateM σ) β'}
    (first : Ends R T (step.run t) (step'.run t')) (wider : ∀ u u', T u u' → T' u u')
    (later : ∀ a a' u u', R a a' → T u u' → Ends S T' ((next a).run u) ((next' a').run u')) :
    Ends S T' ((step >>= next).run t) ((step' >>= next').run t') := by
  obtain ⟨result, left⟩ := first
  rw [run_bind, run_bind]
  rcases ran : step.run t with ⟨first, u⟩
  rcases ran' : step'.run t' with ⟨first', u'⟩
  rw [ran, ran'] at result left
  cases result with
  | error fault => exact ⟨.error fault, wider u u' left⟩
  | ok related => exact later _ _ u u' related left

theorem Ends.of_eq {T : σ → σ → Prop} {r r' : Except Fault α × σ} (result : r'.1 = r.1)
    (left : T r.2 r'.2) : Ends Eq T r r' :=
  ⟨result ▸ .refl (fun _ => rfl) _, left⟩

theorem Ends.tryCatch {α' : Type} {R : α → α' → Prop} {T T' : σ → σ → Prop}
    {step' : ExceptT Fault (StateM σ) α'} {handler : Fault → ExceptT Fault (StateM σ) α}
    {handler' : Fault → ExceptT Fault (StateM σ) α'}
    (first : Ends R T (step.run t) (step'.run t')) (wider : ∀ u u', T u u' → T' u u')
    (later : ∀ fault u u', T u u' → Ends R T' ((handler fault).run u) ((handler' fault).run u')) :
    Ends R T' ((tryCatch step handler).run t) ((tryCatch step' handler').run t') := by
  obtain ⟨result, left⟩ := first
  rw [run_tryCatch, run_tryCatch]
  rcases ran : step.run t with ⟨first, u⟩
  rcases ran' : step'.run t' with ⟨first', u'⟩
  rw [ran, ran'] at result left
  cases result with
  | error fault => exact later fault u u' left
  | ok related => exact ⟨.ok related, wider u u' left⟩

/-- The step cannot tell related states apart: it gives the same at both, and leaves related
    states behind. -/
def Blind (T : σ → σ → Prop) (step : ExceptT Fault (StateM σ) α) : Prop :=
  ∀ t t', T t t' → Ends Eq T (step.run t) (step.run t')

namespace Blind

variable {T : σ → σ → Prop}

theorem bind (first : Blind T step) (later : ∀ a, Blind T (next a)) : Blind T (step >>= next) :=
  fun t t' related => (first t t' related).bind (fun _ _ => id)
    fun a _ u u' same left => same ▸ later a u u' left

theorem tryCatch {handler : Fault → ExceptT Fault (StateM σ) α} (first : Blind T step)
    (later : ∀ fault, Blind T (handler fault)) : Blind T (tryCatch step handler) :=
  fun t t' related => (first t t' related).tryCatch (fun _ _ => id) later

theorem pure (a : α) : Blind T (Pure.pure a) :=
  fun _ _ related => .of_eq rfl related

/-- What would come behind a fault does not matter. -/
theorem throw_bind (fault : Fault) (next : α → ExceptT Fault (StateM σ) β) :
    Blind T ((throw fault : ExceptT Fault (StateM σ) α) >>= next) :=
  fun _ _ related => .of_eq rfl related

theorem lift (result : Except Fault α) :
    Blind T (liftM result : ExceptT Fault (StateM σ) α) := by
  intro t t' related
  rw [run_lift, run_lift]
  exact .of_eq rfl related

theorem throw (fault : Fault) : Blind T (throw fault : ExceptT Fault (StateM σ) α) :=
  fun _ _ related => .of_eq rfl related

end Blind

end ActionEngine.Steps
