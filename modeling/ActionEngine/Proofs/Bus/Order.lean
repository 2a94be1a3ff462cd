import ActionEngine.Proofs.Bus.History
import Mathlib.Data.List.Basic

/-!
# The order of delivery

A registration that stays in place receives every event of its kind exactly once. It receives
them in the order in which they are published unless it is overtaken: a registration that was
made before it publishes an event of their kind while it is being called for one, so that the
later event comes first.
-/

namespace ActionEngine.Bus

/-! ### Registrations in order -/

/-- Registrations are numbered in the order in which they were made. -/
structure Registrations.Ordered (rs : Registrations) : Prop where
  ascending : rs.entries.Pairwise fun r r' => r.number < r'.number
  below : ∀ r ∈ rs.entries, r.number < rs.next

namespace Registrations.Ordered

variable {rs : Registrations}

theorem empty : Registrations.Ordered {} :=
  ⟨.nil, fun r h => by cases h⟩

theorem add (ordered : rs.Ordered) (kind : Event.Kind) (target : Target) :
    (rs.add kind target).Ordered := by
  constructor
  · apply List.pairwise_append.2
    refine ⟨ordered.ascending, List.pairwise_singleton _ _, ?_⟩
    intro r hr r' hr'
    rw [List.mem_singleton.1 hr']
    exact ordered.below r hr
  · intro r hr
    rcases List.mem_append.1 hr with hr | hr
    · exact Nat.lt_succ_of_lt (ordered.below r hr)
    · rw [List.mem_singleton.1 hr]
      exact Nat.lt_succ_self _

theorem of_sublist {entries : List Registration} (ordered : rs.Ordered)
    (sub : entries.Sublist rs.entries) : Registrations.Ordered { rs with entries } :=
  ⟨ordered.ascending.sublist sub, fun r hr => ordered.below r (sub.subset hr)⟩

theorem remove (ordered : rs.Ordered) (alive : Target → Bool) (kind : Event.Kind)
    (target : Target) : (rs.remove alive kind target).Ordered :=
  ordered.of_sublist (List.eraseP_sublist)

theorem prune (ordered : rs.Ordered) (numbers : List Nat) : (rs.prune numbers).Ordered :=
  ordered.of_sublist List.filter_sublist

theorem clear (ordered : rs.Ordered) : rs.clear.Ordered :=
  ordered.of_sublist (List.nil_sublist _)

theorem ofKind (ordered : rs.Ordered) (kind : Event.Kind) :
    (rs.ofKind kind).Pairwise fun r r' => r.number < r'.number :=
  ordered.ascending.sublist List.filter_sublist

end Registrations.Ordered

namespace World

/-- The bus keeps its registrations in order. -/
theorem ordered_kept : KeptByBus fun w => w.registrations.Ordered where
  reheld _ _ _ ordered := ordered
  remarked _ _ ordered := ordered
  noted _ _ _ ordered := ordered
  scripted w handler ordered := by
    rw [(takeScript_frame w handler).1]
    exact ordered
  pruned _ numbers ordered := ordered.prune numbers
  performed w call command quiet ordered := by
    have resolved (handler : Handler) : (w.resolve handler).1.registrations.Ordered := by
      rw [(resolve_frame w handler).1]
      exact ordered
    cases command with
    | subscribe kind handler => exact (resolved handler).add kind _
    | unsubscribe kind handler => exact (resolved handler).remove _ kind _
    | publish event => exact quiet.elim
    | clear => exact ordered.clear
    | drop listener => exact ordered
    | fail => exact quiet.elim

end World

/-! ### Staying in place, and being overtaken -/

/-- At every moment the registration is there and its handler can be called. -/
def Stays (r : Registration) (h : List Moment) : Prop :=
  ∀ m ∈ h, r ∈ m.world.registrations.entries ∧ m.world.canCall r.target = true

/-- The registration comes before another one for the same kind of events. -/
def Registration.Precedes (r' r : Registration) : Prop :=
  r'.kind = r.kind ∧ r'.number < r.number

/-- An event is published of the kind that the registration is for, while one that precedes it
    is being called. -/
def Moment.Overtakes (r : Registration) : Moment → Prop
  | published _ within event => event.kind = r.kind ∧ ∃ r' ∈ within, r'.Precedes r
  | reached .. => False

instance (r' r : Registration) : Decidable (r'.Precedes r) :=
  inferInstanceAs (Decidable (_ ∧ _))

instance (r : Registration) (m : Moment) : Decidable (m.Overtakes r) :=
  match m with
  | .published _ within event =>
      inferInstanceAs (Decidable (event.kind = r.kind ∧ ∃ r' ∈ within, r'.Precedes r))
  | .reached .. => inferInstanceAs (Decidable False)

instance (r : Registration) (h : List Moment) : Decidable (Stays r h) :=
  inferInstanceAs (Decidable (∀ m ∈ h, r ∈ m.world.registrations.entries ∧
    m.world.canCall r.target = true))

/-- What a registration receives in the course of a history: every event of its kind once, and
    in the order of publishing if it is not overtaken. Events that can be told apart come in
    that order only then. -/
structure Faithful (r : Registration) (h : List Moment) : Prop where
  complete : (received r h).Perm (published r.kind h)
  inOrder : (∀ m ∈ h, ¬m.Overtakes r) → received r h = published r.kind h
  exact : (published r.kind h).Nodup → received r h = published r.kind h →
    ∀ m ∈ h, ¬m.Overtakes r

/-! ### How histories combine -/

section Combine

variable {r r' : Registration} {h h' : List Moment}

theorem received_append (r : Registration) (h h' : List Moment) :
    received r (h ++ h') = received r h ++ received r h' :=
  List.filterMap_append

theorem published_append (kind : Event.Kind) (h h' : List Moment) :
    published kind (h ++ h') = published kind h ++ published kind h' :=
  List.filterMap_append

theorem received_inside (r outer : Registration) (h : List Moment) :
    received r (h.map (Moment.inside outer)) = received r h := by
  simp [received, List.filterMap_map]

theorem published_inside (kind : Event.Kind) (outer : Registration) (h : List Moment) :
    published kind (h.map (Moment.inside outer)) = published kind h := by
  simp [published, List.filterMap_map]

theorem Stays.append (stays : Stays r (h ++ h')) : Stays r h ∧ Stays r h' :=
  ⟨fun m hm => stays m (List.mem_append_left _ hm),
    fun m hm => stays m (List.mem_append_right _ hm)⟩

theorem Stays.tail {m : Moment} (stays : Stays r (m :: h)) : Stays r h :=
  fun m' hm => stays m' (List.mem_cons_of_mem _ hm)

theorem Stays.of_inside {outer : Registration} (stays : Stays r (h.map (Moment.inside outer))) :
    Stays r h := by
  intro m hm
  have there := stays _ (List.mem_map_of_mem hm)
  rwa [Moment.world_inside] at there

theorem Moment.overtakes_inside {outer : Registration} (m : Moment) :
    (m.inside outer).Overtakes r ↔
      m.Overtakes r ∨ outer.Precedes r ∧ (m.published? r.kind).isSome = true := by
  cases m with
  | reached w r' event => simp [Moment.inside, Moment.Overtakes, Moment.published?]
  | published w within event =>
      simp only [Moment.inside, Moment.Overtakes, Moment.published?, List.mem_append,
        List.mem_singleton]
      constructor
      · rintro ⟨kind, r', inner | rfl, precedes⟩
        · exact .inl ⟨kind, r', inner, precedes⟩
        · exact .inr ⟨precedes, by rw [if_pos kind]; rfl⟩
      · rintro (⟨kind, r', inner, precedes⟩ | ⟨precedes, some⟩)
        · exact ⟨kind, r', .inl inner, precedes⟩
        · refine ⟨?_, outer, .inr rfl, precedes⟩
          by_contra other
          rw [if_neg other] at some
          cases some

namespace Faithful

theorem nil : Faithful r [] :=
  ⟨.nil, fun _ => rfl, fun _ _ m hm => by cases hm⟩

theorem append (first : Faithful r h) (second : Faithful r h') : Faithful r (h ++ h') := by
  refine ⟨?_, ?_, ?_⟩
  · rw [received_append, published_append]
    exact first.complete.append second.complete
  · intro free
    rw [received_append, published_append,
      first.inOrder fun m hm => free m (List.mem_append_left _ hm),
      second.inOrder fun m hm => free m (List.mem_append_right _ hm)]
  · intro apart same m hm
    rw [published_append] at apart same
    rw [received_append] at same
    -- Both histories are complete, so that the equation splits between them.
    obtain ⟨same₁, same₂⟩ := List.append_inj same first.complete.length_eq
    rcases List.mem_append.1 hm with hm | hm
    · exact first.exact (List.nodup_append.1 apart).1 same₁ m hm
    · exact second.exact (List.nodup_append.1 apart).2.1 same₂ m hm

/-- A call of a registration that does not precede makes no difference. -/
theorem inside {outer : Registration} (faithful : Faithful r h) (behind : ¬outer.Precedes r) :
    Faithful r (h.map (Moment.inside outer)) := by
  have same (m : Moment) : (m.inside outer).Overtakes r ↔ m.Overtakes r := by
    rw [Moment.overtakes_inside]
    simp [behind]
  refine ⟨?_, ?_, ?_⟩
  · rw [received_inside, published_inside]
    exact faithful.complete
  · intro free
    rw [received_inside, published_inside]
    exact faithful.inOrder fun m hm passed => free _ (List.mem_map_of_mem hm) ((same m).2 passed)
  · intro apart equal m hm
    rw [published_inside] at apart equal
    rw [received_inside] at equal
    obtain ⟨m', hm', rfl⟩ := List.mem_map.1 hm
    rw [same]
    exact faithful.exact apart equal m' hm'

/-- A moment that the registration has no part in. -/
theorem cons {m : Moment} (faithful : Faithful r h) (unpublished : m.published? r.kind = none)
    (unreceived : m.received? r = none) : Faithful r (m :: h) := by
  have alone : Faithful r [m] := by
    have received_nil : received r [m] = [] := by simp [received, unreceived]
    have published_nil : published r.kind [m] = [] := by simp [published, unpublished]
    refine ⟨?_, ?_, ?_⟩
    · rw [received_nil, published_nil]
    · intro _
      rw [received_nil, published_nil]
    · intro _ _ m' hm passed
      rw [List.mem_singleton.1 hm] at passed
      cases m with
      | reached w r' event => exact passed
      | published w within event =>
          have is_published : Moment.published? r.kind (.published w within event) = some event :=
            if_pos passed.1
          rw [unpublished] at is_published
          cases is_published
  exact alone.append faithful

end Faithful

/-- What happens in the delivery of an event before the turn of the registration has come:
    whatever is published of its kind overtakes it. -/
structure Ahead (r : Registration) (h : List Moment) : Prop where
  complete : (received r h).Perm (published r.kind h)
  overtaking : ∀ m ∈ h, (m.published? r.kind).isSome = true → m.Overtakes r

theorem Moment.Overtakes.isSome {m : Moment} (passed : m.Overtakes r) :
    (m.published? r.kind).isSome = true := by
  cases m with
  | reached w r' event => exact passed.elim
  | published w within event =>
      have is_published : Moment.published? r.kind (.published w within event) = some event :=
        if_pos passed.1
      rw [is_published]
      rfl

namespace Ahead

theorem nil : Ahead r [] :=
  ⟨.nil, fun m hm => by cases hm⟩

theorem append (first : Ahead r h) (second : Ahead r h') : Ahead r (h ++ h') := by
  constructor
  · rw [received_append, published_append]
    exact first.complete.append second.complete
  · intro m hm
    rcases List.mem_append.1 hm with hm | hm
    · exact first.overtaking m hm
    · exact second.overtaking m hm

theorem of_precedes {outer : Registration} (faithful : Faithful r h) (precedes : outer.Precedes r) :
    Ahead r (h.map (Moment.inside outer)) := by
  constructor
  · rw [received_inside, published_inside]
    exact faithful.complete
  · intro m hm publishes
    obtain ⟨m', -, rfl⟩ := List.mem_map.1 hm
    rw [Moment.published?_inside] at publishes
    exact (Moment.overtakes_inside m').2 (.inr ⟨precedes, publishes⟩)

theorem reached (ahead : Ahead r h) (w : World) (event : Event) (other : r' ≠ r) :
    Ahead r (.reached w r' event :: h) := by
  have unreceived : Moment.received? r (.reached w r' event) = none := by
    simp [Moment.received?, other]
  constructor
  · have received_eq : received r (.reached w r' event :: h) = received r h :=
      List.filterMap_cons_none unreceived
    rw [received_eq]
    exact ahead.complete
  · intro m hm publishes
    rcases List.mem_cons.1 hm with rfl | hm
    · cases publishes
    · exact ahead.overtaking m hm publishes

theorem published_eq_nil (ahead : Ahead r h) (free : ∀ m ∈ h, ¬m.Overtakes r) :
    published r.kind h = [] := by
  apply List.filterMap_eq_nil_iff.2
  intro m hm
  by_contra publishes
  exact free m hm (ahead.overtaking m hm (Option.isSome_iff_ne_none.2 publishes))

/-- If the first event received is one that was not published ahead, none was. -/
theorem received_eq_nil {event : Event} {received' others : List Event} (ahead : Ahead r h)
    (apart : event ∉ published r.kind h)
    (same : received r h ++ event :: received' = event :: others) : received r h = [] := by
  cases first : received r h with
  | nil => rfl
  | cons e rest =>
      rw [first] at same
      obtain ⟨rfl, -⟩ := List.cons.inj same
      exact absurd (ahead.complete.mem_iff.1 (by rw [first]; exact List.mem_cons_self)) apart

end Ahead

section Delivery

variable {w w' : World} {event : Event}

theorem received_delivery (alive : w'.canCall r.target = true) :
    received r (.published w [] event :: (h ++ .reached w' r event :: h')) =
      received r h ++ event :: received r h' := by
  have turn : Moment.received? r (.reached w' r event) = some event := if_pos ⟨rfl, alive⟩
  unfold received
  rw [List.filterMap_cons_none rfl, List.filterMap_append, List.filterMap_cons_some turn]

theorem published_delivery (kind : event.kind = r.kind) :
    published r.kind (.published w [] event :: (h ++ .reached w' r event :: h')) =
      event :: (published r.kind h ++ published r.kind h') := by
  have first : Moment.published? r.kind (.published w [] event) = some event := if_pos kind
  unfold published
  rw [List.filterMap_cons_some first, List.filterMap_append, List.filterMap_cons_none rfl]

/-- The delivery of an event of the kind, from its publication on: the registration gets its
    turn, and everything behind that is faithful. -/
theorem Ahead.delivered (ahead : Ahead r h) (behind : Faithful r h') (kind : event.kind = r.kind)
    (alive : w'.canCall r.target = true) :
    Faithful r (.published w [] event :: (h ++ .reached w' r event :: h')) := by
  -- What was received is what was published; in the same order, if nothing overtakes; and
  -- nothing overtakes, if it is in the same order and no event was published twice.
  refine ⟨?_, ?_, ?_⟩
  · rw [received_delivery alive, published_delivery kind]
    exact List.perm_middle.trans ((ahead.complete.append behind.complete).cons event)
  · intro free
    -- Nothing that is published ahead could be anything but overtaking.
    have free_ahead : ∀ m ∈ h, ¬m.Overtakes r := fun m hm => free m (by simp [hm])
    have free_behind : ∀ m ∈ h', ¬m.Overtakes r := fun m hm => free m (by simp [hm])
    have none_published := ahead.published_eq_nil free_ahead
    have none_received : received r h = [] := by
      have complete := ahead.complete
      rw [none_published] at complete
      exact complete.eq_nil
    rw [received_delivery alive, published_delivery kind, none_received, none_published,
      behind.inOrder free_behind]
    rfl
  · intro apart same
    rw [published_delivery kind] at apart same
    rw [received_delivery alive] at same
    obtain ⟨not_ahead, apart⟩ := List.nodup_cons.1 apart
    -- What was published ahead was received ahead, and it is not this event.
    have none_received := ahead.received_eq_nil
      (fun published => not_ahead (List.mem_append_left _ published)) same
    have none_published : published r.kind h = [] := by
      have complete := ahead.complete
      rw [none_received] at complete
      exact complete.symm.eq_nil
    rw [none_received, none_published] at same
    rw [none_published] at apart
    intro m hm passed
    rcases List.mem_cons.1 hm with rfl | hm
    · obtain ⟨-, r', inner, -⟩ := passed
      cases inner
    · rcases List.mem_append.1 hm with hm | hm
      · have unpublished := List.filterMap_eq_nil_iff.1 none_published m hm
        have is_published := passed.isSome
        rw [unpublished] at is_published
        cases is_published
      · rcases List.mem_cons.1 hm with rfl | hm
        · exact passed
        · exact behind.exact apart (List.cons.inj same).2 m hm passed

end Delivery

end Combine

/-! ### What the bus makes of it -/

namespace World

/-- Whatever stays in place while a handler is called, its history is faithful. -/
def TellsFaithfully (story : Story) : Prop :=
  ∀ (w : World) (target : Target) (event : Event) (r : Registration),
    w.registrations.Ordered → Stays r (story w target event) → Faithful r (story w target event)

section Faithful

variable {call : Call} {story : Story} (keeps : call.Keeps fun w => w.registrations.Ordered)
  (faithful : TellsFaithfully story) {w : World} {r : Registration}
include keeps faithful

/-- One call in a delivery: its story is faithful, and the rest goes on in order. -/
theorem call_faithful (ordered : w.registrations.Ordered) {event : Event} {r' : Registration}
    {rest : List Registration} {previous : Option Nat} (alive : w.canCall r'.target = true)
    (stays : Stays r (deliverStory call story event (r' :: rest) previous w)) :
    Faithful r (story (w.rehold previous r'.target.object?) r'.target event) ∧
      ((w.rehold previous r'.target.object?).called call event r').registrations.Ordered ∧
      Stays r (deliverStory call story event rest r'.target.object?
        ((w.rehold previous r'.target.object?).called call event r')) := by
  rw [deliverStory_cons_of_canCall call story event rest previous alive] at stays
  obtain ⟨nested, after⟩ := stays.tail.append
  have reheld : (w.rehold previous r'.target.object?).registrations.Ordered := ordered
  exact ⟨faithful _ _ event r reheld nested.of_inside,
    ordered_kept.called keeps reheld event r', after⟩

/-- A registration that is not among those that are called, and that none of them precedes. -/
theorem deliverStory_faithful (ordered : w.registrations.Ordered) (event : Event)
    {rs : List Registration} (previous : Option Nat)
    (behind : ∀ r' ∈ rs, r' ≠ r ∧ ¬r'.Precedes r)
    (stays : Stays r (deliverStory call story event rs previous w)) :
    Faithful r (deliverStory call story event rs previous w) := by
  -- On the registrations that are still to be called.
  induction rs generalizing previous w with
  | nil => exact .nil
  | cons r' rest ih =>
      obtain ⟨other, not_ahead⟩ := behind r' List.mem_cons_self
      have behind : ∀ r'' ∈ rest, r'' ≠ r ∧ ¬r''.Precedes r :=
        fun r'' h => behind r'' (List.mem_cons_of_mem _ h)
      have unreceived : Moment.received? r (.reached w r' event) = none := by
        simp [Moment.received?, other]
      by_cases alive : w.canCall r'.target = true
      · obtain ⟨nested, ordered', after⟩ := call_faithful keeps faithful ordered alive stays
        rw [deliverStory_cons_of_canCall call story event rest previous alive]
        exact ((nested.inside not_ahead).append (ih ordered' _ behind after)).cons rfl unreceived
      · rw [deliverStory_cons_of_not_canCall call story event rest previous alive] at stays ⊢
        exact (ih (w := w.rehold previous none) ordered none behind stays.tail).cons rfl unreceived

/-- A registration that is among those that are called gets its turn. -/
theorem deliverStory_turn (ordered : w.registrations.Ordered) (event : Event)
    {rs : List Registration} (previous : Option Nat)
    (ascending : rs.Pairwise fun r r' => r.number < r'.number)
    (kind : ∀ r' ∈ rs, r'.kind = r.kind) (hr : r ∈ rs)
    (stays : Stays r (deliverStory call story event rs previous w)) :
    ∃ h w' h', deliverStory call story event rs previous w = h ++ .reached w' r event :: h' ∧
      w'.canCall r.target = true ∧ Ahead r h ∧ Faithful r h' := by
  -- On the registrations in front of it, which all have lower numbers.
  induction rs generalizing previous w with
  | nil => cases hr
  | cons r' rest ih =>
      obtain ⟨later, ascending⟩ := List.pairwise_cons.1 ascending
      have kind_rest : ∀ r'' ∈ rest, r''.kind = r.kind :=
        fun r'' h => kind r'' (List.mem_cons_of_mem _ h)
      -- The registration is called now, or what stands in front of it is called first.
      by_cases same : r' = r
      · subst same
        have alive : w.canCall r'.target = true := by
          by_cases alive : w.canCall r'.target = true
          · exact alive
          · rw [deliverStory_cons_of_not_canCall call story event rest previous alive] at stays
            exact (stays _ List.mem_cons_self).2
        obtain ⟨nested, ordered', after⟩ := call_faithful keeps faithful ordered alive stays
        rw [deliverStory_cons_of_canCall call story event rest previous alive]
        have behind : ∀ r'' ∈ rest, r'' ≠ r' ∧ ¬r''.Precedes r' := by
          intro r'' h
          have number := later r'' h
          refine ⟨?_, ?_⟩
          · rintro rfl
            exact Nat.lt_irrefl _ number
          · rintro ⟨-, before⟩
            omega
        have itself : ¬r'.Precedes r' := fun precedes => Nat.lt_irrefl _ precedes.2
        exact ⟨[], w, _, rfl, alive, .nil, (nested.inside itself).append
          (deliverStory_faithful keeps faithful ordered' event _ behind after)⟩
      · have hr : r ∈ rest := (List.mem_cons.1 hr).resolve_left fun h => same h.symm
        -- The one in front precedes, so that what is published in its call overtakes.
        have precedes : r'.Precedes r := ⟨kind r' List.mem_cons_self, later r hr⟩
        by_cases alive : w.canCall r'.target = true
        · obtain ⟨nested, ordered', after⟩ := call_faithful keeps faithful ordered alive stays
          obtain ⟨h, w', h', told, turn, ahead, behind⟩ :=
            ih ordered' _ ascending kind_rest hr after
          have overtaking := (Ahead.of_precedes nested precedes).append ahead
          refine ⟨_, w', h', ?_, turn, overtaking.reached w event same, behind⟩
          rw [deliverStory_cons_of_canCall call story event rest previous alive, told,
            List.cons_append, List.append_assoc]
        · rw [deliverStory_cons_of_not_canCall call story event rest previous alive] at stays ⊢
          obtain ⟨h, w', h', told, turn, ahead, after⟩ :=
            ih (w := w.rehold previous none) ordered none ascending kind_rest hr stays.tail
          refine ⟨_, w', h', ?_, turn, ahead.reached w event same, after⟩
          rw [told, List.cons_append]

theorem publishStory_faithful (ordered : w.registrations.Ordered) (event : Event)
    (stays : Stays r (publishStory call story w event)) :
    Faithful r (publishStory call story w event) := by
  have there := (stays _ List.mem_cons_self).1
  unfold publishStory at stays ⊢
  by_cases kind : event.kind = r.kind
  · have hr : r ∈ w.registrations.ofKind event.kind := by
      simp [Registrations.ofKind, kind]
      exact there
    have kinds : ∀ r' ∈ w.registrations.ofKind event.kind, r'.kind = r.kind := by
      intro r' h
      simp [Registrations.ofKind] at h
      exact h.2.trans kind
    obtain ⟨h, w', h', told, alive, ahead, behind⟩ :=
      deliverStory_turn keeps faithful (w := w.announced event) ordered event none
        (ordered.ofKind _) kinds hr stays.tail
    rw [told]
    exact ahead.delivered behind kind alive
  · have behind : ∀ r' ∈ w.registrations.ofKind event.kind, r' ≠ r ∧ ¬r'.Precedes r := by
      intro r' h
      simp [Registrations.ofKind] at h
      refine ⟨?_, ?_⟩
      · rintro rfl
        exact kind h.2.symm
      · rintro ⟨same, -⟩
        exact kind (h.2.symm.trans same)
    have rest := deliverStory_faithful keeps faithful (w := w.announced event) ordered event none
      behind stays.tail
    exact rest.cons (if_neg kind) rfl

theorem performStory_faithful (ordered : w.registrations.Ordered) {commands : List Command}
    (stays : Stays r (performStory call story commands w)) :
    Faithful r (performStory call story commands w) := by
  induction commands generalizing w with
  | nil => exact .nil
  | cons command rest ih =>
      rcases command.quiet_or with quiet | rfl | ⟨event, rfl⟩
      · rw [(perform_cons_of_quiet call story quiet rest w).2] at stays ⊢
        exact ih (ordered_kept.performed w call command quiet ordered) stays
      · exact .nil
      · obtain ⟨stays, stays'⟩ := Stays.append stays
        exact (publishStory_faithful keeps faithful ordered event stays).append
          (ih (ordered_kept.publish keeps ordered event) stays')

end Faithful

theorem callStory_faithful (depth : Nat) : TellsFaithfully (callStory depth) := by
  induction depth with
  | zero => exact fun w target event r ordered stays => .nil
  | succ depth ih =>
      intro w target event r ordered stays
      rw [(callWithin_succ depth w target event).2] at stays ⊢
      have scripted : ((w.noted target event).takeScript target.label).2.registrations.Ordered :=
        ordered_kept.scripted _ target.label (ordered_kept.noted w target event ordered)
      exact performStory_faithful (ordered_kept.callWithin depth) ih scripted stays

theorem history_faithful {w : World} {r : Registration} (ordered : w.registrations.Ordered)
    {commands : List Command} (stays : Stays r (w.history commands)) :
    Faithful r (w.history commands) := by
  induction commands generalizing w with
  | nil => exact .nil
  | cons command rest ih =>
      obtain ⟨stays, stays'⟩ := Stays.append stays
      exact (performStory_faithful (ordered_kept.callWithin _) (callStory_faithful _) ordered
        stays).append (ih (ordered_kept.run ordered command) stays')

/-- Whatever handlers do while they are called, every registration that stays in place receives
    each event of its kind once; it receives them in the order of publishing unless it is
    overtaken, and events that can be told apart only then. So two registrations that are not
    overtaken receive the same events in the same order. The history that says so tells the
    calls that are made. -/
theorem delivery_follows_publishing (scripts : List Script) (setup commands : List Command) :
    ((runAll { scripts } setup).runAll commands).calls =
        (runAll { scripts } setup).calls ++
          callsOf (history (runAll { scripts } setup) commands) ∧
      (∀ r, Stays r (history (runAll { scripts } setup) commands) →
        Faithful r (history (runAll { scripts } setup) commands)) ∧
      ∀ r r', r.kind = r'.kind → Stays r (history (runAll { scripts } setup) commands) →
        Stays r' (history (runAll { scripts } setup) commands) →
        (∀ m ∈ history (runAll { scripts } setup) commands,
          ¬m.Overtakes r ∧ ¬m.Overtakes r') →
        received r (history (runAll { scripts } setup) commands) =
          received r' (history (runAll { scripts } setup) commands) := by
  have ordered : (runAll { scripts } setup).registrations.Ordered :=
    ordered_kept.runAll Registrations.Ordered.empty setup
  generalize runAll { scripts } setup = w at ordered
  refine ⟨runAll_calls w commands, fun r stays => history_faithful ordered stays, ?_⟩
  intro r r' kind stays stays' free
  rw [(history_faithful ordered stays).inOrder fun m hm => (free m hm).1,
    (history_faithful ordered stays').inOrder fun m hm => (free m hm).2, kind]

/-- Two functions are registered for the flag. -/
def twoFunctions : List Command :=
  [.subscribe .processingChanged (.function "a"), .subscribe .processingChanged (.function "b")]

/-- The flag goes up, and the handler of this name takes it down again when it is called. -/
def flagTakenDown (handler : String) : List Moment :=
  history (runAll { scripts := [⟨handler, [[.publish (.processingChanged false)]]⟩] } twoFunctions)
    [.publish (.processingChanged true)]

theorem last_handler_overtakes_nobody :
    received ⟨0, .processingChanged, .function "a"⟩ (flagTakenDown "b") =
        [.processingChanged true, .processingChanged false] ∧
      received ⟨0, .processingChanged, .function "a"⟩ (flagTakenDown "b") =
        received ⟨1, .processingChanged, .function "b"⟩ (flagTakenDown "b") :=
  ⟨by decide +kernel,
    (delivery_follows_publishing [⟨"b", [[.publish (.processingChanged false)]]⟩] twoFunctions
      [.publish (.processingChanged true)]).2.2 ⟨0, .processingChanged, .function "a"⟩
      ⟨1, .processingChanged, .function "b"⟩ rfl (by decide +kernel) (by decide +kernel)
      (by decide +kernel)⟩

/-- When the first handler takes the flag down, the second one learns of that before it learns
    that the flag went up, though it was there all the time. -/
theorem first_handler_overtakes_second :
    Stays ⟨0, .processingChanged, .function "a"⟩ (flagTakenDown "a") ∧
      Stays ⟨1, .processingChanged, .function "b"⟩ (flagTakenDown "a") ∧
      published .processingChanged (flagTakenDown "a") =
        [.processingChanged true, .processingChanged false] ∧
      received ⟨0, .processingChanged, .function "a"⟩ (flagTakenDown "a") =
        [.processingChanged true, .processingChanged false] ∧
      received ⟨1, .processingChanged, .function "b"⟩ (flagTakenDown "a") =
        [.processingChanged false, .processingChanged true] := by
  decide +kernel

end World

end ActionEngine.Bus
