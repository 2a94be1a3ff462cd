import ActionEngine.Proofs.Coordinator.Advance
import Mathlib.Data.List.Infix

/-!
# What a stream shows

A stream takes chunks from the provider as long as its run is active. It shows one
snapshot for each chunk that is not empty, and a last one if the provider's stream ends
while the run is still active. `Stage.Tells` ties the stage of a stream to what it took
and showed so far, and every turn keeps it.
-/

namespace ActionEngine

/-- The suggestion with chunks of text put in. -/
def Suggestion.grown (blank : Suggestion) (chunks : List String) : Suggestion :=
  { blank with text := String.join chunks }

/-- The snapshots of a suggestion that grows by chunks: one for each prefix of them, and a
    last one if they came to an end. -/
def Suggestion.snapshots (blank : Suggestion) (chunks : List String) (ended : Bool) :
    List Suggestion :=
  chunks.inits.tail.map blank.grown ++ if ended then [(blank.grown chunks).finished] else []

def Event.ready? : Event → Option Suggestion
  | .stateChanged _ (.ready suggestion) => some suggestion
  | _ => none

theorem Event.ready?_eq_none_of_settles {e : Event} (h : e.settles = true) :
    e.ready? = none := by
  cases e with
  | stateChanged previous current => cases current <;> first | rfl | cases h
  | _ => rfl

namespace Suggestion

variable {blank : Suggestion}

theorem grown_nil (empty : blank.text = "") : blank.grown [] = blank := by
  unfold grown
  rw [String.join_nil, ← empty]

theorem withChunk_grown (streaming : blank.streaming = true) (chunks : List String)
    (chunk : String) : (blank.grown chunks).withChunk chunk = blank.grown (chunks ++ [chunk]) := by
  unfold withChunk grown
  rw [String.join_append]
  simp [streaming]

theorem snapshots_concat (chunks : List String) (chunk : String) :
    blank.snapshots (chunks ++ [chunk]) false =
      blank.snapshots chunks false ++ [blank.grown (chunks ++ [chunk])] := by
  have some_prefix : chunks.inits ≠ [] := by
    intro h
    have length := List.length_inits chunks
    rw [h] at length
    cases length
  unfold snapshots
  rw [List.inits_append, List.tail_append_of_ne_nil some_prefix]
  simp

theorem snapshots_ended (chunks : List String) :
    blank.snapshots chunks true =
      blank.snapshots chunks false ++ [(blank.grown chunks).finished] := by
  simp [snapshots]

end Suggestion

namespace Coordinator

/-- What became of a stream: the chunks it took while its run was active, whether the
    provider's stream came to its end meanwhile, the snapshots it yielded and the ready
    suggestions it published. -/
structure Story where
  chunks : List String := []
  ended : Bool := false
  yielded : List Suggestion := []
  published : List Suggestion := []

/-- The story of the stream at a place, in the course of some moves. -/
def Floor.story (s : Setting) (place : Nat) (f : Floor) : List Move → Story
  | [] => {}
  | m :: moves =>
      let g := (f.step s m).1
      let later := Floor.story s place g moves
      if m.place? = some place then
        { chunks := (f.stages[place]?.bind (Stage.chunk? f.desk.view m)).toList ++ later.chunks
          ended := f.stages[place]?.any (Stage.ends f.desk.view m) || later.ended
          yielded := (f.step s m).2.filterMap Output.snapshot? ++ later.yielded
          published := (g.desk.events.drop f.desk.events.length).filterMap Event.ready? ++
            later.published }
      else later

def texts (chunks : List String) : List String :=
  chunks.filter (· ≠ "")

/-- A suggestion without text, for a stream of an invocation. -/
structure Suggestion.Begins (i : Invocation) (blank : Suggestion) : Prop where
  selected : blank.selected = i.selection
  source : blank.source = i.action
  empty : blank.text = ""
  streaming : blank.streaming = true

/-- Where a stream stands that took these chunks of text. -/
def Stage.Stands (i : Invocation) (blank : Suggestion) (chunks : List String) (ended : Bool) :
    Stage → Prop
  | .unopened j => j = i ∧ chunks = [] ∧ ended = false
  | .waitingCitation .. => chunks = [] ∧ ended = false
  | .waitingReply .. => False
  | .waitingChunk _ snapshot _ =>
      snapshot = blank.grown chunks ∧ ended = false ∧
        TextRange.ofValue i.target = .ok blank.target
  | .shown _ snapshot =>
      snapshot = blank.grown chunks ∧ ended = false ∧
        TextRange.ofValue i.target = .ok blank.target
  | .shownLast _ => True
  | .waitingClose _ outputs _ => outputs.filterMap Output.snapshot? = []
  | .over => True

/-- The stage of a stream goes with the chunks of text it took and the snapshots it showed. -/
def Stage.Tells (i : Invocation) (chunks : List String) (ended : Bool)
    (shown : List Suggestion) (stage : Stage) : Prop :=
  ∃ blank : Suggestion, Suggestion.Begins i blank ∧ stage.Stands i blank chunks ended ∧
    (shown = [] ∨ TextRange.ofValue i.target = .ok blank.target) ∧
    shown = blank.snapshots chunks ended

variable {s : Setting} {v v' : View} {m : Move} {old new : Stage} {outputs : List Output}
  {run : Run}

/-! ### Moves that bring nothing -/

theorem Stage.deaf_of_run?_eq_none (h : old.run? = none) : old.Deaf v m := by
  cases old with
  | waitingChunk run snapshot task => cases h
  | _ => exact ⟨rfl, rfl⟩

theorem Stage.deaf_of_fault {fault : Fault} (move : m.fault? = some fault) : old.Deaf v m := by
  cases old with
  | waitingChunk run snapshot task => cases m <;> first | exact ⟨rfl, rfl⟩ | cases move
  | _ => exact ⟨rfl, rfl⟩

theorem Stage.deaf_of_departs (departs : m.Departs) : old.Deaf v m := by
  cases old with
  | waitingChunk run snapshot task => cases m <;> first | exact ⟨rfl, rfl⟩ | exact departs.elim
  | _ => exact ⟨rfl, rfl⟩

theorem Stage.Streams.deaf_of_stale (streams : old.Streams run) (stale : v.active ≠ some run) :
    old.Deaf v m := by
  cases old with
  | waitingChunk r snapshot task =>
      obtain rfl : r = run := streams
      cases m with
      | text place chunk => exact ⟨if_neg stale, rfl⟩
      | ending place => exact ⟨rfl, decide_eq_false stale⟩
      | _ => exact ⟨rfl, rfl⟩
  | _ => exact ⟨rfl, rfl⟩

/-! ### What a turn tells -/

section Tells

variable {i : Invocation} {chunks : List String} {ended : Bool} {shown : List Suggestion}

theorem Stage.Tells.at_end (tells : old.Tells i chunks ended shown) :
    Stage.over.Tells i chunks ended shown := by
  obtain ⟨blank, begins, -, target, shows⟩ := tells
  exact ⟨blank, begins, trivial, target, shows⟩

theorem Stage.Tells.left (tells : old.Tells i chunks ended shown) (after : new.Left run) :
    new.Tells i chunks ended shown := by
  obtain ⟨blank, begins, -, target, shows⟩ := tells
  refine ⟨blank, begins, ?_, target, shows⟩
  cases new with
  | waitingClose r outputs task => exact after.2
  | _ => trivial

theorem Stage.Tells.unstarted (tells : old.Tells i chunks ended shown) (before : old.run? = none)
    (early : old ≠ .over) : chunks = [] ∧ ended = false ∧ shown = [] := by
  obtain ⟨blank, -, stands, -, shows⟩ := tells
  have nothing : chunks = [] ∧ ended = false := by
    cases old with
    | unopened j => exact stands.2
    | waitingCitation j fault task => exact stands
    | waitingReply run j target => cases before
    | waitingChunk run snapshot task => cases before
    | shown run snapshot => cases before
    | shownLast run => cases before
    | waitingClose run outputs task => cases before
    | _ => exact absurd rfl early
  obtain ⟨rfl, rfl⟩ := nothing
  exact ⟨rfl, rfl, shows⟩

theorem Course.tells {place : Nat} (course : Course s v m old v' new outputs)
    (hplace : m.place? = some place) (tells : old.Tells i chunks ended shown) :
    new.Tells i (chunks ++ texts (old.chunk? v m).toList) (ended || old.ends v m)
      (shown ++ outputs.filterMap Output.snapshot?) := by
  -- Most turns bring nothing to the stream; for them only the next stage has to be looked at.
  have deaf_tells : old.Deaf v m → outputs.filterMap Output.snapshot? = [] →
      new.Tells i chunks ended shown →
        new.Tells i (chunks ++ texts (old.chunk? v m).toList) (ended || old.ends v m)
          (shown ++ outputs.filterMap Output.snapshot?) := by
    intro deaf shows tells
    rw [deaf.1, deaf.2, shows]
    simpa [texts] using tells
  cases course with
  | ignored deaf shows => exact deaf_tells deaf shows tells
  | refused before early after shows =>
      refine deaf_tells (Stage.deaf_of_run?_eq_none before) shows ?_
      rcases after with rfl | ⟨j, fault, task, rfl⟩
      · exact tells.at_end
      · obtain ⟨rfl, rfl, rfl⟩ := tells.unstarted before early
        obtain ⟨blank, begins, -, target, shows⟩ := tells
        exact ⟨blank, begins, ⟨rfl, rfl⟩, target, shows⟩
  | @begun j new _ _ task opens starts shows =>
      refine deaf_tells ⟨rfl, rfl⟩ shows ?_
      obtain ⟨rfl, rfl, rfl⟩ := tells.unstarted rfl (by simp)
      -- Before the run begins any suggestion without text would do; the one that counts is
      -- made now.
      obtain ⟨blank, -, ⟨rfl, -, -⟩, -, -⟩ := tells
      cases new with
      | waitingReply r k target =>
          -- A single request begins without a place of its own.
          have nowhere := opens.1
          rw [hplace] at nowhere
          cases nowhere
      | waitingChunk r snapshot t =>
          obtain ⟨-, id, target, accepted, rfl⟩ := opens
          exact ⟨_, ⟨rfl, rfl, rfl, rfl⟩,
            ⟨(Suggestion.grown_nil rfl).symm, rfl, accepted⟩, .inl rfl, rfl⟩
      | _ => exact opens.elim
  | concluded entered finishes =>
      -- No stream stands where a single request waits.
      obtain ⟨blank, -, stands, -, -⟩ := tells
      exact False.elim stands
  | @skipped run snapshot task p current move =>
      subst move
      have taken : Stage.chunk? v (.text p "") (.waitingChunk run snapshot task) = some "" :=
        if_pos current
      rw [taken]
      simpa [texts, Stage.ends] using tells
  | resumed task current =>
      refine deaf_tells ⟨rfl, rfl⟩ rfl ?_
      exact tells
  | @shown run snapshot task _ p chunk current move nonempty entered =>
      subst move
      obtain ⟨blank, begins, ⟨rfl, rfl, accepted⟩, -, rfl⟩ := tells
      have taken : Stage.chunk? v (.text p chunk) (.waitingChunk run (blank.grown chunks) task) =
          some chunk := if_pos current
      have kept : texts [chunk] = [chunk] := by simp [texts, nonempty]
      rw [taken, Option.toList_some, kept, Suggestion.withChunk_grown begins.streaming]
      refine ⟨blank, begins, ⟨rfl, rfl, accepted⟩, .inr accepted, ?_⟩
      exact (Suggestion.snapshots_concat chunks chunk).symm
  | @ended run snapshot task _ _ p current move entered finishes =>
      subst move
      obtain ⟨blank, begins, ⟨rfl, rfl, accepted⟩, -, rfl⟩ := tells
      have comes_to_end : Stage.ends v (.ending p)
          (.waitingChunk run (blank.grown chunks) task) = true := decide_eq_true current
      rw [comes_to_end]
      refine ⟨blank, begins, trivial, .inr accepted, ?_⟩
      have none_taken : chunks ++ texts
          (Stage.chunk? v (.ending p) (.waitingChunk run (blank.grown chunks) task)).toList =
            chunks := List.append_nil chunks
      rw [none_taken]
      exact (Suggestion.snapshots_ended chunks).symm
  | failed streams current move entered finishes after shows =>
      exact deaf_tells (Stage.deaf_of_fault move) shows (tells.left after)
  | left streams departs leaves shows =>
      exact deaf_tells (Stage.deaf_of_departs departs) shows (tells.left leaves.left)
  | dropped streams stale after shows =>
      exact deaf_tells (streams.deaf_of_stale stale) shows (tells.left after)
  | shut p move finishes =>
      have after := tells.at_end
      obtain ⟨blank, -, nothing, -, -⟩ := tells
      exact deaf_tells ⟨rfl, rfl⟩ nothing after
  | unclosed fails shows => exact deaf_tells ⟨rfl, rfl⟩ shows tells.at_end

end Tells

/-! ### What a turn publishes -/

/-- The ready suggestions among the events that the second view has behind those of the
    first. -/
def View.Readies (v v' : View) (suggestions : List Suggestion) : Prop :=
  ∃ published, v'.events = v.events ++ published ∧ published.filterMap Event.ready? = suggestions

namespace View.Readies

variable {w : View} {suggestions : List Suggestion}

theorem of_publishes (h : v.Publishes v' fun e => e.ready? = none) : v.Readies v' [] := by
  obtain ⟨published, hevents, silent⟩ := h
  exact ⟨published, hevents, List.filterMap_eq_nil_iff.2 silent⟩

theorem of_cedes (cedes : v.Cedes v') : v.Readies v' [] :=
  of_publishes (cedes.quiet.mono fun _ h => Event.ready?_eq_none_of_settles h)

theorem trans_nil (first : v.Readies w suggestions) (second : w.Readies v' []) :
    v.Readies v' suggestions := by
  obtain ⟨early, hearly, rfl⟩ := first
  obtain ⟨late, hlate, nothing⟩ := second
  refine ⟨early ++ late, by rw [hlate, hearly, List.append_assoc], ?_⟩
  rw [List.filterMap_append, nothing, List.append_nil]

/-- A snapshot is published for the observers that are there. -/
theorem entered (s : Setting) (v : View) (snapshot : Suggestion) :
    v.Readies (v.entered s (.ready snapshot)) (if s.handlers == 0 then [] else [snapshot]) := by
  refine ⟨_, rfl, ?_⟩
  unfold Setting.heard
  split <;> rfl

theorem of_starts {action : Action} (starts : v.Starts s run action v') : v.Readies v' [] := by
  obtain ⟨w, announced, -, raised⟩ := starts
  -- The announcement is that of a loading action, and the flag is no suggestion.
  have entered : v.Readies (View.entered s
      { v with nextRun := v.nextRun + 1, active := some run } (.loading action)) [] :=
    of_publishes (.entered (v := { v with nextRun := v.nextRun + 1, active := some run }) rfl)
  exact ((entered.trans_nil (of_cedes announced)).trans_nil (of_publishes (.flagged rfl))).trans_nil
    (of_cedes raised)

end View.Readies

/-- A stream publishes as ready what it shows, in the same turn. -/
theorem Course.readies {i : Invocation} {chunks : List String} {ended : Bool}
    {shown : List Suggestion} (course : Course s v m old v' new outputs)
    (tells : old.Tells i chunks ended shown) :
    v.Readies v' (if s.handlers == 0 then [] else outputs.filterMap Output.snapshot?) := by
  have silent : outputs.filterMap Output.snapshot? = [] → v.Readies v' [] →
      v.Readies v' (if s.handlers == 0 then [] else outputs.filterMap Output.snapshot?) := by
    intro shows readies
    rw [shows, ite_self]
    exact readies
  have same : v.Readies v [] := .of_cedes (.refl v)
  cases course with
  | ignored deaf shows => exact silent shows same
  | refused before early after shows => exact silent shows same
  | begun task opens starts shows => exact silent shows (.of_starts starts)
  | concluded entered finishes =>
      obtain ⟨blank, -, stands, -, -⟩ := tells
      exact False.elim stands
  | skipped place current move => exact silent rfl same
  | resumed task current => exact silent rfl same
  | shown place chunk current move nonempty entered =>
      exact (View.Readies.entered s v _).trans_nil (.of_cedes entered)
  | ended place current move entered finishes =>
      exact ((View.Readies.entered s v _).trans_nil (.of_cedes entered)).trans_nil
        (.of_cedes finishes.cedes)
  | @failed old new run fault message w v' outputs streams current move entered finishes _ shows =>
      have failed : v.Readies (v.entered s (.failed message)) [] := .of_publishes (.entered rfl)
      exact silent shows
        ((failed.trans_nil (.of_cedes entered)).trans_nil (.of_cedes finishes.cedes))
  | left streams departs leaves shows => exact silent shows (.of_cedes leaves.cedes)
  | dropped streams stale after shows => exact silent shows same
  | shut place move finishes =>
      obtain ⟨blank, -, nothing, -, -⟩ := tells
      exact silent nothing (.of_cedes finishes.cedes)
  | unclosed fails shows => exact silent shows same

/-! ### The story of a stream -/

namespace Floor

variable {f : Floor}

theorem story_taken (s : Setting) {place : Nat} (hplace : m.place? = some place)
    (hstage : f.stages[place]? = some old) (moves : List Move) :
    f.story s place (m :: moves) =
      { chunks := (old.chunk? f.desk.view m).toList ++ ((f.step s m).1.story s place moves).chunks
        ended := old.ends f.desk.view m || ((f.step s m).1.story s place moves).ended
        yielded := (f.step s m).2.filterMap Output.snapshot? ++
          ((f.step s m).1.story s place moves).yielded
        published := (((f.step s m).1.desk.events.drop f.desk.events.length).filterMap
          Event.ready?) ++ ((f.step s m).1.story s place moves).published } := by
  rw [story, if_pos hplace, hstage]
  rfl

/-- What a stream took and showed so far, and what it will take and show, fit together; and
    it publishes what it shows. -/
theorem story_tells (s : Setting) {place : Nat} {i : Invocation} {chunks : List String}
    {ended : Bool} {shown : List Suggestion} (moves : List Move) (ordered : f.Ordered)
    (hstage : f.stages[place]? = some old) (tells : old.Tells i chunks ended shown) :
    (∃ stage : Stage, stage.Tells i (chunks ++ texts (f.story s place moves).chunks)
        (ended || (f.story s place moves).ended) (shown ++ (f.story s place moves).yielded)) ∧
      (f.story s place moves).published =
        if s.handlers == 0 then [] else (f.story s place moves).yielded := by
  -- On the moves; what was taken and shown so far is carried along, so the chunks in front
  -- of the story grow from step to step.
  induction moves generalizing f old chunks ended shown with
  | nil =>
      refine ⟨⟨old, ?_⟩, ?_⟩
      · simpa [story, texts] using tells
      · simp [story]
  | cons m moves ih =>
      have advances := step_advances s ordered.suits m
      rcases advances.at_place hstage with ⟨hplace, new, hnew, course⟩ | ⟨hplace, stays⟩
      · obtain ⟨later, published⟩ := ih (ordered.step s m) hnew (course.tells hplace tells)
        obtain ⟨events, hevents, ready⟩ := course.readies tells
        have added : (f.step s m).1.desk.events.drop f.desk.events.length = events := by
          change (f.step s m).1.desk.view.events.drop f.desk.view.events.length = events
          rw [hevents, List.drop_left]
        rw [story_taken s hplace hstage, added, ready]
        dsimp only
        rw [published]
        constructor
        · obtain ⟨stage, tells'⟩ := later
          refine ⟨stage, ?_⟩
          unfold texts at tells' ⊢
          -- Both sides are put together from the past, this turn and the later story.
          rw [List.filter_append, ← List.append_assoc, ← Bool.or_assoc, ← List.append_assoc]
          exact tells'
        · split <;> rfl
      · have same : f.story s place (m :: moves) = (f.step s m).1.story s place moves :=
          if_neg hplace
        rw [same]
        exact ih (ordered.step s m) stays tells

/-- Whatever else happens on the floor before and after a stream is made, and whatever the
    observers do, its snapshots are those of one suggestion. The streaming ones carry, one by
    one, the prefixes of the chunks of text that it took while its run was active; a last one
    with the whole text follows exactly if the provider's stream came to its end while the
    run was still active. The ready suggestions it publishes are its snapshots, at every
    moment. -/
theorem stream_shows_prefixes (s : Setting) (before : List Move) (i : Invocation)
    (after : List Move) :
    ∃ blank : Suggestion, blank.selected = i.selection ∧ blank.source = i.action ∧
      blank.text = "" ∧ blank.streaming = true ∧
      let story := ((Floor.run s {} before).step s (.stream i)).1.story s
        (Floor.run s {} before).stages.length after
      (story.yielded = [] ∨ TextRange.ofValue i.target = .ok blank.target) ∧
      story.yielded =
        (texts story.chunks).inits.tail.map (fun chunks =>
          { blank with text := String.join chunks }) ++
        (if story.ended then
          [{ blank with text := String.join (texts story.chunks), streaming := false }]
        else []) ∧
      story.published = if s.handlers == 0 then [] else story.yielded := by
  have ordered := (ordered_run s before).step s (.stream i)
  have made : ((Floor.run s {} before).step s (.stream i)).1.stages[
      (Floor.run s {} before).stages.length]? = some (.unopened i) := by
    change ((Floor.run s {} before).stages ++ [.unopened i])[
      (Floor.run s {} before).stages.length]? = some (.unopened i)
    simp
  have tells : (Stage.unopened i).Tells i [] false [] := by
    refine ⟨⟨"", i.selection, "", i.action, default, true⟩, ⟨rfl, rfl, rfl, rfl⟩, ?_, .inl rfl, rfl⟩
    exact ⟨rfl, rfl, rfl⟩
  obtain ⟨⟨stage, blank, begins, -, target, shows⟩, published⟩ :=
    story_tells s after ordered made tells
  refine ⟨blank, begins.selected, begins.source, begins.empty, begins.streaming, target, ?_,
    published⟩
  rw [List.nil_append, List.nil_append, Bool.false_or] at shows
  exact shows

/-- A stream with an empty chunk, up to its end. -/
example :
    ((({} : Floor).step {} (.stream { action := Builtin.makeConcise, selection := "Some" })).1.story
        {} 0 [.pull 0 0, .text 0 "Cl", .pull 0 0, .text 0 "", .text 0 "ear", .pull 0 0, .ending 0,
          .pull 0 0]).yielded.map (fun snapshot => (snapshot.text, snapshot.streaming)) =
      [("Cl", true), ("Clear", true), ("Clear", false)] := by
  decide

end Floor

end Coordinator

end ActionEngine
