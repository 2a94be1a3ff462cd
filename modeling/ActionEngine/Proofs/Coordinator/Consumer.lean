import ActionEngine.Coordinator.Session
import ActionEngine.Proofs.Coordinator.Uninterrupted

/-!
# Sessions with one invocation

A session that carries out a single request, or consumes one stream, takes what the provider
has in its queue item by item. What it reports is the reply, or one snapshot for every chunk
of text and then the end of the stream or its failure.
-/

namespace ActionEngine.Coordinator.Session

variable {t : Session} {name : String} {run : Run} {snapshot : Suggestion} {i : Invocation}
  {target : TextRange}

/-! ### Moves and rounds -/

theorem move_eq_of_goes {m : Move} {g : Floor} {outputs : List Output}
    (goes : t.floor.Goes t.setting m g outputs) (chores : t.floor.desk.chores = ([], []))
    (name : String) :
    t.move name m = ({ t with floor := g, calls := t.calls ++
        (outputs.filter fun o => isCall o && isSeen t.supply o).map fun o => (name, o) },
      outputs.filter fun o => !isCall o) := by
  have unreacted : g.desk.reactions = [] := congrArg Prod.fst (goes.chores.trans chores)
  have same : { g with desk := { g.desk with reactions := [] } } = g := by
    rw [← unreacted]
  unfold move
  rw [goes.step]
  dsimp only
  rw [same, unreacted, List.map_nil, List.append_nil]

theorem move_of_goes {m : Move} {g : Floor} {outputs : List Output}
    (goes : t.floor.Goes t.setting m g outputs) (chores : t.floor.desk.chores = ([], []))
    (name : String) :
    ∃ calls, t.move name m =
      ({ t with floor := g, calls := calls }, outputs.filter fun o => !isCall o) :=
  ⟨_, move_eq_of_goes goes chores name⟩

theorem rest_of_none (h : t.floor.desk.stopping = []) : t.rest = settle t.queues.length t := by
  have same : { t with floor := { t.floor with desk := { t.floor.desk with stopping := [] } } } =
      t := by
    rw [← h]
  have asked : t.interruptAsked = t := by
    unfold interruptAsked
    dsimp only
    rw [same, h]
    rfl
  unfold rest
  rw [asked]

/-- The first item of the queue goes to the one task that waits. -/
theorem settle_goes {errand : Errand} {item : Item} {rest : List (String × Item)} {g : Floor}
    {outputs : List Output} (goes : t.floor.Goes t.setting (item.move 0) g outputs)
    (chores : t.floor.desk.chores = ([], [])) (tasks : t.tasks = [⟨name, 0, errand, true⟩])
    (queue : t.queues = (name, item) :: rest) (rounds : Nat) :
    ∃ calls, settle (rounds + 1) t =
      settle rounds ({ t with queues := rest, floor := g, calls := calls }.advance 0
        ⟨name, 0, errand, true⟩ (outputs.filter fun o => !isCall o)) := by
  have ready : t.ready? = some (0, ⟨name, 0, errand, true⟩, item) := by
    simp [ready?, tasks, queue]
  obtain ⟨calls, moved⟩ := move_of_goes (t := { t with queues := rest }) goes chores name
  rw [settle, ready]
  dsimp only
  rw [queue, List.eraseP_cons_of_pos (by simp), moved]
  exact ⟨calls, rfl⟩

theorem settle_of_ended {errand : Errand} (rounds : Nat)
    (tasks : t.tasks = [⟨name, 0, errand, false⟩]) : settle rounds t = t := by
  cases rounds with
  | zero => rfl
  | succ rounds =>
      have none : t.ready? = none := by simp [ready?, tasks]
      rw [settle, none]

/-! ### A stream that is consumed -/

/-- The one task of a session consumes a stream that has shown a snapshot. -/
structure Consuming (t : Session) (name : String) (run : Run) (snapshot : Suggestion) : Prop where
  calm : t.setting.Calm
  supply : t.supply = .queued
  holds : t.floor.Holds 0 run (.waitingChunk run snapshot 0)
  chores : t.floor.desk.chores = ([], [])
  tasks : t.tasks = [⟨name, 0, .consume [], true⟩]

/-- A snapshot that is shown is reported, and then the next one is asked for. -/
theorem advance_yielded (calm : t.setting.Calm) (supply : t.supply = .queued)
    (holds : t.floor.Holds 0 run (.shown run snapshot)) (chores : t.floor.desk.chores = ([], []))
    (tasks : t.tasks = [⟨name, 0, .consume [], true⟩]) :
    (t.advance 0 ⟨name, 0, .consume [], true⟩ [.yielded snapshot]).Consuming name run snapshot ∧
      (t.advance 0 ⟨name, 0, .consume [], true⟩ [.yielded snapshot]).queues = t.queues ∧
      (t.advance 0 ⟨name, 0, .consume [], true⟩ [.yielded snapshot]).outcomes =
        t.outcomes ++ [.shown name (.yielded snapshot)] := by
  obtain ⟨g, goes, holds'⟩ := holds.resume_goes (s := t.setting) 0
  -- The report comes first, and then the stream is asked for more.
  let told := (t.report (.shown name (.yielded snapshot))).setTask 0 ⟨name, 0, .consume [], true⟩
  have goes' : told.floor.Goes told.setting (.pull 0 0) g [] := goes
  obtain ⟨calls, moved⟩ := move_of_goes goes' chores name
  have pulled : told.pull 0 ⟨name, 0, .consume [], true⟩ =
      ({ told with floor := g, calls := calls }, []) := by
    unfold pull
    dsimp only
    rw [moved]
    simp [finishSearch, holds'.stands, told, report, setTask, supply]
  have advanced : t.advance 0 ⟨name, 0, .consume [], true⟩ [.yielded snapshot] =
      { told with floor := g, calls := calls } := by
    change (told.pull 0 ⟨name, 0, .consume [], true⟩).1.conclude 0 _
      (told.pull 0 ⟨name, 0, .consume [], true⟩).2 = _
    rw [pulled]
    rfl
  rw [advanced]
  refine ⟨⟨calm, supply, holds', goes.chores.trans chores, ?_⟩, rfl, rfl⟩
  change t.tasks.set 0 _ = _
  rw [tasks]
  rfl

/-- The last snapshot is reported, and then the end of the stream. -/
theorem advance_finished (calm : t.setting.Calm) (supply : t.supply = .queued)
    (rests : t.floor.Rests 0 (.shownLast run) snapshot) (chores : t.floor.desk.chores = ([], []))
    (tasks : t.tasks = [⟨name, 0, .consume [], true⟩]) :
    (t.advance 0 ⟨name, 0, .consume [], true⟩ [.yielded snapshot]).tasks =
        [⟨name, 0, .consume [], false⟩] ∧
      (t.advance 0 ⟨name, 0, .consume [], true⟩ [.yielded snapshot]).outcomes =
        t.outcomes ++ [.shown name (.yielded snapshot), .exhausted name] := by
  obtain ⟨g, goes, rests'⟩ := rests.stop_goes calm 0
  let told := (t.report (.shown name (.yielded snapshot))).setTask 0 ⟨name, 0, .consume [], true⟩
  have goes' : told.floor.Goes told.setting (.pull 0 0) g [.stopped] := goes
  obtain ⟨calls, moved⟩ := move_of_goes goes' chores name
  have pulled : told.pull 0 ⟨name, 0, .consume [], true⟩ =
      ({ told with floor := g, calls := calls }, [.stopped]) := by
    unfold pull
    dsimp only
    rw [moved]
    simp [finishSearch, rests'.stands, told, report, setTask, supply, isCall]
  have advanced : t.advance 0 ⟨name, 0, .consume [], true⟩ [.yielded snapshot] =
      ({ told with floor := g, calls := calls }.report (.exhausted name)).setTask 0
        ⟨name, 0, .consume [], false⟩ := by
    change (told.pull 0 ⟨name, 0, .consume [], true⟩).1.conclude 0 _
      (told.pull 0 ⟨name, 0, .consume [], true⟩).2 = _
    rw [pulled]
    rfl
  rw [advanced]
  constructor
  · change (t.tasks.set 0 _).set 0 _ = _
    rw [tasks]
    rfl
  · change (t.outcomes ++ [_]) ++ [_] = _
    rw [List.append_assoc]
    rfl

namespace Consuming

theorem text_empty (h : t.Consuming name run snapshot) {rest : List (String × Item)}
    (queue : t.queues = (name, .text "") :: rest) (rounds : Nat) :
    ∃ t', settle (rounds + 1) t = settle rounds t' ∧ t'.Consuming name run snapshot ∧
      t'.queues = rest ∧ t'.outcomes = t.outcomes := by
  obtain ⟨g, goes, holds⟩ := h.holds.feed_empty_goes (s := t.setting)
  obtain ⟨calls, round⟩ := settle_goes goes h.chores h.tasks queue rounds
  exact ⟨_, round, ⟨h.calm, h.supply, holds, goes.chores.trans h.chores, h.tasks⟩, rfl, rfl⟩

theorem text (h : t.Consuming name run snapshot) {chunk : String} (nonempty : chunk ≠ "")
    {rest : List (String × Item)} (queue : t.queues = (name, .text chunk) :: rest)
    (rounds : Nat) :
    ∃ t', settle (rounds + 1) t = settle rounds t' ∧
      t'.Consuming name run (snapshot.withChunk chunk) ∧ t'.queues = rest ∧
      t'.outcomes = t.outcomes ++ [.shown name (.yielded (snapshot.withChunk chunk))] := by
  obtain ⟨g, goes, holds⟩ := h.holds.feed_goes h.calm nonempty
  obtain ⟨calls, round⟩ := settle_goes goes h.chores h.tasks queue rounds
  exact ⟨_, round, advance_yielded (t := { t with queues := rest, floor := g, calls := calls })
    h.calm h.supply holds (goes.chores.trans h.chores) h.tasks⟩

theorem ending (h : t.Consuming name run snapshot) {rest : List (String × Item)}
    (queue : t.queues = (name, .ending) :: rest) (rounds : Nat) :
    (settle (rounds + 1) t).outcomes =
      t.outcomes ++ [.shown name (.yielded snapshot.finished), .exhausted name] := by
  obtain ⟨g, goes, rests⟩ := h.holds.end_goes h.calm
  obtain ⟨calls, round⟩ := settle_goes goes h.chores h.tasks queue rounds
  obtain ⟨tasks, outcomes⟩ :=
    advance_finished (t := { t with queues := rest, floor := g, calls := calls }) h.calm h.supply
      rests (goes.chores.trans h.chores) h.tasks
  rw [round]
  exact (congrArg Session.outcomes (settle_of_ended rounds tasks)).trans outcomes

theorem fault (h : t.Consuming name run snapshot) {fault : Fault} {rest : List (String × Item)}
    (queue : t.queues = (name, .fault fault) :: rest) (rounds : Nat) :
    (settle (rounds + 1) t).outcomes = t.outcomes ++
      [.shown name (.raised (.engine (Desk.failure fault).1) (Desk.failure fault).2)] := by
  obtain ⟨g, goes, -⟩ := h.holds.fail_goes h.calm fault
  obtain ⟨calls, round⟩ := settle_goes goes h.chores h.tasks queue rounds
  have ended : t.tasks.set 0 ⟨name, 0, .consume [], false⟩ = [⟨name, 0, .consume [], false⟩] := by
    rw [h.tasks]
    rfl
  rw [round, settle_of_ended rounds ended]
  rfl

/-- A consuming session reports one snapshot for each chunk of text. -/
theorem texts_all {blank : Suggestion} {taken : List String} (streaming : blank.streaming = true)
    (h : t.Consuming name run (blank.grown (texts taken)))
    (told : t.outcomes =
      (blank.snapshots (texts taken) false).map fun s => .shown name (.yielded s))
    (chunks : List String) {rest : List (String × Item)}
    (queue : t.queues = chunks.map (fun chunk => (name, .text chunk)) ++ rest) (rounds : Nat) :
    ∃ t', settle (rounds + chunks.length) t = settle rounds t' ∧
      t'.Consuming name run (blank.grown (texts (taken ++ chunks))) ∧ t'.queues = rest ∧
      t'.outcomes =
        (blank.snapshots (texts (taken ++ chunks)) false).map
          fun s => .shown name (.yielded s) := by
  -- On the chunks in the queue; each of them uses up one round, also an empty one.
  induction chunks generalizing t taken with
  | nil =>
      rw [List.append_nil]
      exact ⟨t, rfl, h, queue, told⟩
  | cons chunk chunks ih =>
      have more : texts (taken ++ chunk :: chunks) = texts ((taken ++ [chunk]) ++ chunks) := by
        rw [List.append_assoc, List.singleton_append]
      by_cases empty : chunk = ""
      · subst empty
        have same : texts (taken ++ [""]) = texts taken := by simp [texts]
        obtain ⟨t₁, round, consuming, queues, outcomes⟩ :=
          h.text_empty queue (rounds + chunks.length)
        rw [← same] at consuming told
        rw [more]
        obtain ⟨t', rounds', rest'⟩ := ih consuming (outcomes.trans told) queues
        exact ⟨t', round.trans rounds', rest'⟩
      · have kept : texts (taken ++ [chunk]) = texts taken ++ [chunk] := by simp [texts, empty]
        obtain ⟨t₁, round, consuming, queues, outcomes⟩ :=
          h.text empty queue (rounds + chunks.length)
        rw [Suggestion.withChunk_grown streaming, ← kept] at consuming outcomes
        have told' : t₁.outcomes = (blank.snapshots (texts (taken ++ [chunk])) false).map
            fun s => .shown name (.yielded s) := by
          rw [outcomes, told, kept, Suggestion.snapshots_concat, List.map_append,
            List.map_singleton]
        rw [more]
        obtain ⟨t', rounds', rest'⟩ := ih consuming told' queues
        exact ⟨t', round.trans rounds', rest'⟩

end Consuming

/-! ### Whole sessions -/

section Whole

variable {s : Setting}

/-- A session whose provider has some items in its queue. -/
def supplied (s : Setting) (name : String) (items : List Item) : Session :=
  { setting := s, queues := items.map fun item => (name, item) }

/-- A session with a stream of which nothing was asked yet. -/
theorem start_consuming (calm : s.Calm) (permitted : i.Permitted)
    (range : TextRange.ofValue i.target = .ok target) (name : String) (items : List Item) :
    ∃ (t : Session) (run : Run) (id : String),
      (((supplied s name items).run (.stream name i)).1.run (.consume name [])).1 = t.rest ∧
      t.Consuming name run ⟨id, i.selection, "", i.action, target, true⟩ ∧
      t.queues = items.map (fun item => (name, item)) ∧ t.outcomes = [] := by
  let made : Session :=
    { supplied s name items with
      floor := { stages := [.unopened i] }
      places := [(name, 0)]
      tasks := [⟨name, 0, .consume [], true⟩] }
  have unopened : made.floor.stages[0]? = some (.unopened i) := rfl
  obtain ⟨g, run, id, goes, holds⟩ := Floor.open_goes calm unopened permitted range 0
  obtain ⟨calls, moved⟩ := move_of_goes (t := made) goes rfl name
  have pulled : made.pull 0 ⟨name, 0, .consume [], true⟩ =
      ({ made with floor := g, calls := calls }, []) := by
    unfold pull
    dsimp only
    rw [moved]
    simp [finishSearch, holds.stands, made, supplied, isCall]
  refine ⟨{ made with floor := g, calls := calls }, run, id, ?_,
    ⟨calm, rfl, holds, goes.chores, rfl⟩, rfl, rfl⟩
  have started : (({ made with tasks := [] } : Session).start name (.consume [])) =
      (made.pull 0 ⟨name, 0, .consume [], true⟩).1.advance 0 ⟨name, 0, .consume [], true⟩
        (made.pull 0 ⟨name, 0, .consume [], true⟩).2 := by
    simp [start, made, isRunning, addTask]
  rw [pulled] at started
  exact congrArg rest started

/-- A stream that is consumed reports one snapshot for each chunk of text. Then it takes the
    last item of the queue. -/
theorem consumed_texts (calm : s.Calm) (permitted : i.Permitted)
    (range : TextRange.ofValue i.target = .ok target) (name : String) (chunks : List String)
    (last : Item) :
    ∃ (t : Session) (run : Run) (blank : Suggestion),
      (((supplied s name (chunks.map .text ++ [last])).run (.stream name i)).1.run
        (.consume name [])).1 = settle 1 t ∧
      t.Consuming name run (blank.grown (texts chunks)) ∧ t.queues = [(name, last)] ∧
      t.outcomes =
        (blank.snapshots (texts chunks) false).map fun s => .shown name (.yielded s) := by
  obtain ⟨t, run, id, whole, consuming, queues, outcomes⟩ :=
    start_consuming calm permitted range name (chunks.map .text ++ [last])
  have rested : t.rest = settle (1 + chunks.length) t := by
    rw [rest_of_none (congrArg Prod.snd consuming.chores), queues]
    simp [Nat.add_comm]
  have queue : t.queues = chunks.map (fun chunk => (name, Item.text chunk)) ++ [(name, last)] := by
    simp [queues]
  have fresh : t.Consuming name run
      (Suggestion.grown ⟨id, i.selection, "", i.action, target, true⟩ (texts [])) := consuming
  obtain ⟨t', round, consuming', queues', outcomes'⟩ :=
    fresh.texts_all rfl outcomes chunks queue 1
  exact ⟨t', run, _, (whole.trans rested).trans round, consuming', queues', outcomes'⟩

theorem consumed_stream (calm : s.Calm) (permitted : i.Permitted)
    (range : TextRange.ofValue i.target = .ok target) (name : String) (chunks : List String) :
    ∃ blank : Suggestion,
      (((supplied s name (chunks.map .text ++ [.ending])).run (.stream name i)).1.run
        (.consume name [])).1.outcomes =
        (blank.snapshots (texts chunks) true).map (fun s => .shown name (.yielded s)) ++
          [.exhausted name] := by
  obtain ⟨t, run, blank, whole, consuming, queues, outcomes⟩ :=
    consumed_texts calm permitted range name chunks .ending
  refine ⟨blank, ?_⟩
  rw [whole, consuming.ending queues 0, outcomes, Suggestion.snapshots_ended, List.map_append,
    List.append_assoc]
  rfl

theorem consumed_failing_stream (calm : s.Calm) (permitted : i.Permitted)
    (range : TextRange.ofValue i.target = .ok target) (name : String) (chunks : List String)
    (fault : Fault) :
    ∃ blank : Suggestion,
      (((supplied s name (chunks.map .text ++ [.fault fault])).run (.stream name i)).1.run
        (.consume name [])).1.outcomes =
        (blank.snapshots (texts chunks) false).map (fun s => .shown name (.yielded s)) ++
          [.shown name (.raised (.engine (Desk.failure fault).1) (Desk.failure fault).2)] := by
  obtain ⟨t, run, blank, whole, consuming, queues, outcomes⟩ :=
    consumed_texts calm permitted range name chunks (.fault fault)
  refine ⟨blank, ?_⟩
  rw [whole, consuming.fault queues 0, outcomes]

/-- A single request reports its reply. -/
theorem executed_single (calm : s.Calm) (permitted : i.Permitted)
    (range : TextRange.ofValue i.target = .ok target) (name reply : String) :
    ∃ id, ((supplied s name [.text reply]).run (.execute name i)).1.outcomes =
      [.shown name (.returned ⟨id, i.selection, reply, i.action, target, false⟩)] := by
  let made : Session :=
    { supplied s name [.text reply] with
      places := [(name, 0)]
      tasks := [⟨name, 0, .single, true⟩] }
  obtain ⟨g, run, goes, holds⟩ := Floor.execute_goes calm made.floor permitted range 0
  obtain ⟨g', id, goes', rests⟩ := holds.reply_goes calm reply
  obtain ⟨calls, moved⟩ := move_of_goes (t := made) goes rfl name
  let asked : Session := { made with floor := g, calls := calls }
  have started : (supplied s name [.text reply]).execute name i = asked := by
    have empty : (supplied s name [.text reply]).floor.stages.length = 0 := rfl
    have named : ((supplied s name [.text reply]).name name).addTask ⟨name, 0, .single, true⟩ =
        (made, 0) := rfl
    have stands : g.stages[0]? = some (.waitingReply run i target) := holds.stands
    unfold execute
    simp only [empty, named, moved, finishSearch, stands]
    rfl
  have answered : ((supplied s name [.text reply]).run (.execute name i)).1 = asked.rest :=
    congrArg rest started
  have replied : asked.floor.Goes asked.setting ((Item.text reply).move 0) g'
      [.returned ⟨id, i.selection, reply, i.action, target, false⟩] := goes'
  obtain ⟨more, round⟩ := settle_goes (t := asked) replied goes.chores rfl rfl 0
  refine ⟨id, ?_⟩
  rw [answered, rest_of_none (congrArg Prod.snd goes.chores)]
  exact congrArg Session.outcomes round

end Whole

end ActionEngine.Coordinator.Session
