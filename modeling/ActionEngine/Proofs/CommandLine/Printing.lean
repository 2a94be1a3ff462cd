import ActionEngine.CommandLine.Program
import ActionEngine.Proofs.Coordinator.Consumer
import ActionEngine.Proofs.Steps

/-!
# What a run prints

Putting the engine together prints nothing, and neither does what is reported or noted on
the side. So the output of a run command is what its action gives: the reply and one line
feed, whether it is streamed or not, and the chunks so far if the stream fails.
-/

namespace ActionEngine.CommandLine

open Coordinator Running Steps

/-! ### Steps that print nothing -/

namespace Running

variable {α β : Type} {step : Running α} {next : α → Running β}

/-- The step leaves the output alone, and what it gives back has a property. -/
def Silent (step : Running α) (P : α → Prop) : Prop :=
  ∀ t, (step.run t).2.output = t.output ∧ ∀ a, (step.run t).1 = .ok a → P a

namespace Silent

variable {P : α → Prop} {Q : β → Prop}

theorem bind (first : step.Silent P) (later : ∀ a, P a → (next a).Silent Q) :
    Silent (step >>= next) Q := by
  intro t
  obtain ⟨kept, gives⟩ := first t
  rw [run_bind]
  rcases h : step.run t with ⟨_ | a, t'⟩
  · rw [h] at kept
    exact ⟨kept, fun b hb => by cases hb⟩
  · rw [h] at kept gives
    obtain ⟨kept', gives'⟩ := later a (gives a rfl) t'
    exact ⟨kept'.trans kept, gives'⟩

theorem imp {P' : α → Prop} (h : step.Silent P) (imp : ∀ a, P a → P' a) : step.Silent P' :=
  fun t => ⟨(h t).1, fun a ha => imp a ((h t).2 a ha)⟩

theorem pure {a : α} (h : P a) : Silent (Pure.pure a) P :=
  fun _ => ⟨rfl, fun _ hb => Except.ok.inj hb ▸ h⟩

theorem attempt (result : Except Fault α) : Silent (Running.attempt result) fun _ => True :=
  fun _ => ⟨rfl, fun _ _ => trivial⟩

theorem get : Silent (MonadStateOf.get : Running Terminal) fun _ => True :=
  fun _ => ⟨rfl, fun _ _ => trivial⟩

theorem remark (host : Host) (log : Log) : Silent (Running.remark host log) fun _ => True :=
  fun _ => ⟨rfl, fun _ _ => trivial⟩

end Silent

end Running

/-- A host's own service is the one that a run works with. -/
theorem chooseService_silent {host : Host} {service : Service}
    (served : host.service = some service) (s : Settings) :
    (chooseService host s).Silent fun chosen => chosen = some service := by
  unfold chooseService
  refine (Silent.attempt _).bind ?_
  intro client _
  rw [served]
  exact .pure rfl

/-- Choosing a service prints nothing, whichever it is. -/
theorem chooseService_prints_nothing (host : Host) (s : Settings) :
    (chooseService host s).Silent fun _ => True := by
  unfold chooseService
  refine (Silent.attempt _).bind fun client _ => ?_
  cases host.service with
  | some service => exact .pure trivial
  | none =>
      refine (Silent.attempt _).bind fun (provider, log) _ => ?_
      exact (Silent.remark host log).bind fun _ _ => .pure trivial

/-- Putting the engine together prints nothing, chooses a service, and reads the custom
    actions of some text, if there is one. -/
theorem buildEngine_silent_of {host : Host} {s : Settings} {P : Option Service → Prop}
    (chosen : (chooseService host s).Silent P) (path : Option String) :
    (buildEngine host s path).Silent fun engine => P engine.service ∧ engine.setting.Calm ∧
      ∃ text, engine.registry.snapshot =
        Registry.Snapshot.build Builtin.actions (Config.parseActions text) := by
  unfold buildEngine
  refine (Silent.attempt _).bind fun path _ => ?_
  refine Silent.get.bind fun t _ => ?_
  refine (Silent.attempt _).bind fun (log, text) _ => ?_
  refine (Silent.remark host log).bind fun _ _ => ?_
  refine (Silent.remark host _).bind fun _ _ => ?_
  refine chosen.bind fun service holds => ?_
  refine (Silent.attempt _).bind fun minimumReply _ => ?_
  refine (Silent.attempt _).bind fun streamBudget _ => ?_
  exact .pure ⟨holds, ⟨fun _ => rfl, rfl⟩, text, rfl⟩

theorem buildEngine_silent {host : Host} {service : Service}
    (served : host.service = some service) (s : Settings) (path : Option String) :
    (buildEngine host s path).Silent fun engine =>
      engine.service = some service ∧ engine.setting.Calm :=
  (buildEngine_silent_of (chooseService_silent served s) path).imp fun _ h => ⟨h.1, h.2.1⟩

/-! ### Steps that always end -/

namespace Running

def Quiet {α : Type} (step : Running α) : Prop :=
  ∀ t, ∃ a t', step.run t = (.ok a, t') ∧ t'.output = t.output

namespace Quiet

variable {α β : Type} {step : Running α} {next : α → Running β}

theorem bind (first : step.Quiet) (later : ∀ a, (next a).Quiet) : Quiet (step >>= next) := by
  intro t
  obtain ⟨a, t', ran, kept⟩ := first t
  obtain ⟨b, t'', ran', kept'⟩ := later a t'
  exact ⟨b, t'', (run_bind_of_ok ran).trans ran', kept'.trans kept⟩

theorem pure (a : α) : Quiet (Pure.pure a) :=
  fun t => ⟨a, t, rfl, rfl⟩

theorem note (call : Call) : Quiet (Running.note call) :=
  fun _ => ⟨(), _, rfl, rfl⟩

theorem complain (message : String) : Quiet (Running.complain message) :=
  fun _ => ⟨(), _, rfl, rfl⟩

theorem remark (host : Host) (log : Log) : Quiet (Running.remark host log) :=
  fun _ => ⟨(), _, rfl, rfl⟩

theorem modify {f : Terminal → Terminal} (h : ∀ t, (f t).output = t.output) :
    Quiet (modify f : Running PUnit) :=
  fun t => ⟨(), f t, rfl, h t⟩

theorem forIn {γ : Type} (xs : List γ) {body : γ → PUnit → Running (ForInStep PUnit)}
    (quiet : ∀ x, (body x ⟨⟩).Quiet) : Quiet (forIn xs PUnit.unit body) := by
  induction xs with
  | nil => exact .pure _
  | cons x xs ih =>
      rw [List.forIn_cons]
      refine (quiet x).bind fun result => ?_
      cases result with
      | done value => exact .pure _
      | yield value => exact ih

end Quiet

end Running

/-! ### The steps of a run command -/

theorem noteRequests_quiet (engine : Engine) (calls : List (String × Output)) :
    (noteRequests engine calls).Quiet := by
  unfold noteRequests
  refine (Quiet.forIn calls fun call => ?_).bind fun _ => .pure ()
  split
  · exact (Quiet.note _).bind fun _ => .pure _
  · exact (Quiet.note _).bind fun _ => .pure _
  · split
    · refine (Quiet.modify ?_).bind fun _ => .pure _
      exact fun _ => rfl
    · exact .pure _
  · exact .pure _

theorem reportFault_quiet (error : EngineError) : (reportFault (.engine error)).Quiet := by
  unfold reportFault
  dsimp only
  split
  · refine (Quiet.complain _).bind fun _ => ?_
    split
    · exact (Quiet.complain _).bind fun _ => .pure 1
    · exact .pure 1
  · exact (Quiet.complain _).bind fun _ => .pure 0

theorem closeService_quiet (engine : Engine) : (closeService engine).Quiet := by
  unfold closeService
  split
  · exact .note _
  · exact .pure _

/-! ### What outcomes show -/

/-- Snapshots add up to the chunks that they carry. -/
theorem printed_snapshots (name : String) (blank : Suggestion) (chunks : List String)
    (rest : List Outcome) :
    printed ((blank.snapshots chunks false).map (fun s => .shown name (.yielded s)) ++ rest) 0 =
      String.join chunks ++ printed rest (String.join chunks).length := by
  induction chunks using List.reverseRecOn generalizing rest with
  | nil => simp [Suggestion.snapshots]
  | append_singleton chunks chunk ih =>
      rw [Suggestion.snapshots_concat, List.map_append, List.append_assoc, ih]
      simp only [List.map_cons, List.map_nil, List.singleton_append, printed, Suggestion.grown]
      have cut : String.join (chunks ++ [chunk]) = String.join chunks ++ chunk := by simp
      rw [cut, String.toList_append, ← String.length_toList, List.drop_left, String.ofList_toList,
        ← String.append_assoc]

theorem faultOf?_snapshots (name : String) (snapshots : List Suggestion) (rest : List Outcome) :
    faultOf? (snapshots.map (fun s => .shown name (.yielded s)) ++ rest) = faultOf? rest := by
  induction snapshots with
  | nil => rfl
  | cons snapshot snapshots ih => exact ih

theorem join_texts (chunks : List String) : String.join (texts chunks) = String.join chunks := by
  induction chunks with
  | nil => rfl
  | cons chunk chunks ih =>
      unfold texts at ih ⊢
      rw [List.filter_cons, String.join_cons, ← ih]
      split
      · rw [String.join_cons]
      · rename_i empty
        rw [decide_eq_true_eq, not_not] at empty
        rw [empty, String.empty_append]

/-! ### A whole run command -/

def RunArguments.invocation (r : RunArguments) (host : Host) (action : Action) : Invocation where
  action := action
  selection := r.text.getD host.input
  context := some
    { selection := some (r.text.getD host.input), paragraph := r.paragraph, title := r.title
      heading := r.heading }

section Run

variable {host : Host} {engine : Engine} {r : RunArguments} {action : Action}

/-- A run of an action notes its requests, prints what it shows, and goes on from there. -/
theorem runAction_known (host : Host) (known : engine.registry.actionFor r.action = .ok action)
    (t : Terminal) :
    let session := invoke engine (r.invocation host action) r.stream
    ∃ t₁ : Terminal, t₁.output = t.output ++ printed session.outcomes 0 ∧
      (runAction host engine r).run t = (match faultOf? session.outcomes with
        | some fault => do
          remark host session.floor.desk.log
          reportFault fault
        | none => do
          print "\n"
          remark host (session.run (.control .accept)).1.floor.desk.log
          return 0 : Running Nat).run t₁ := by
  intro session
  obtain ⟨_, t₁, noted, kept⟩ := noteRequests_quiet engine session.calls t
  refine ⟨{ t₁ with output := t₁.output ++ printed session.outcomes 0 }, ?_, ?_⟩
  · rw [← kept]
  · unfold runAction
    rw [known]
    exact (run_bind_of_ok noted).trans (run_bind_of_ok rfl)

theorem runAction_of_no_fault (known : engine.registry.actionFor r.action = .ok action)
    (ends : faultOf? (invoke engine (r.invocation host action) r.stream).outcomes = none)
    (t : Terminal) :
    ∃ t', (runAction host engine r).run t = (.ok 0, t') ∧ t'.output = t.output ++
      printed (invoke engine (r.invocation host action) r.stream).outcomes 0 ++ "\n" := by
  obtain ⟨t₁, output, ran⟩ := runAction_known host known t
  rw [ends] at ran
  rw [ran, ← output]
  exact ⟨_, rfl, rfl⟩

theorem runAction_of_fault {error : EngineError}
    (known : engine.registry.actionFor r.action = .ok action)
    (fails : faultOf? (invoke engine (r.invocation host action) r.stream).outcomes =
      some (.engine error)) (t : Terminal) :
    ∃ status t', (runAction host engine r).run t = (.ok status, t') ∧ t'.output = t.output ++
      printed (invoke engine (r.invocation host action) r.stream).outcomes 0 := by
  obtain ⟨t₁, output, ran⟩ := runAction_known host known t
  rw [fails] at ran
  rw [ran, ← output]
  exact ((Quiet.remark host _).bind fun _ => reportFault_quiet error) t₁

/-- What a run command prints is what running its action prints. -/
theorem carryOut_run {a : Arguments} {s : Settings} {t t₁ t₂ : Terminal} {status : Nat}
    (store : Settings.Store) (overrides : Fields) (command : a.command = .run r)
    (built : (buildEngine host s a.actionsPath).run t = (.ok engine, t₁))
    (ran : (runAction host engine r).run t₁ = (.ok status, t₂)) :
    ∃ t', (carryOut host a store overrides s).run t = (.ok status, t') ∧
      t'.output = t₂.output := by
  obtain ⟨_, t₃, closed, kept⟩ := closeService_quiet engine t₂
  refine ⟨t₃, ?_, kept⟩
  unfold carryOut
  rw [command]
  -- Leaving the guarded block with a status gives it back as an early return.
  have body : (do
      let status ← runAction host engine r
      closeService engine
      pure (.error status) : Running (Except Nat Nat)).run t₁ = (.ok (.error status), t₃) :=
    (run_bind_of_ok ran).trans (run_bind_of_ok closed)
  exact (run_bind_of_ok built).trans (run_bind_of_ok (run_tryCatch_of_ok body))

/-! ### Single and streamed runs -/

section Invoked

variable {service : Service} {i : Invocation} {target : TextRange}

/-- A service without a fault is printed in full, however it is asked. -/
theorem printed_invoke (served : engine.service = some service) (calm : engine.setting.Calm)
    (permitted : i.Permitted) (range : TextRange.ofValue i.target = .ok target)
    (whole : service.fault = none) (cut : String.join service.chunks = service.reply)
    (stream : Bool) :
    printed (invoke engine i stream).outcomes 0 = service.reply ∧
      faultOf? (invoke engine i stream).outcomes = none := by
  cases stream with
  | false =>
      obtain ⟨id, outcomes⟩ := Session.executed_single calm permitted range runName service.reply
      have invoked : invoke engine i false =
          ((Session.supplied engine.setting runName [.text service.reply]).run
            (.execute runName i)).1 := by
        simp [invoke, served, serviceItems, whole, Session.supplied]
      rw [invoked, outcomes]
      simp [printed, faultOf?]
  | true =>
      obtain ⟨blank, outcomes⟩ :=
        Session.consumed_stream calm permitted range runName service.chunks
      have invoked : invoke engine i true =
          (((Session.supplied engine.setting runName
            (service.chunks.map .text ++ [.ending])).run (.stream runName i)).1.run
              (.consume runName [])).1 := by
        simp [invoke, served, serviceItems, whole, Session.supplied]
      rw [invoked, outcomes, Suggestion.snapshots_ended, List.map_append, List.append_assoc,
        printed_snapshots, faultOf?_snapshots, join_texts, cut]
      simp [printed, faultOf?, Suggestion.finished, Suggestion.grown, join_texts, cut,
        ← String.length_toList]

/-- A stream that fails is printed as far as it came. -/
theorem printed_invoke_of_fault (served : engine.service = some service)
    (calm : engine.setting.Calm) (permitted : i.Permitted)
    (range : TextRange.ofValue i.target = .ok target) {fault : Fault}
    (fails : service.fault = some fault) :
    printed (invoke engine i true).outcomes 0 = String.join service.chunks ∧
      faultOf? (invoke engine i true).outcomes = some (.engine (Desk.failure fault).1) := by
  obtain ⟨blank, outcomes⟩ :=
    Session.consumed_failing_stream calm permitted range runName service.chunks fault
  have invoked : invoke engine i true =
      (((Session.supplied engine.setting runName
        (service.chunks.map .text ++ [.fault fault])).run (.stream runName i)).1.run
          (.consume runName [])).1 := by
    simp [invoke, served, serviceItems, fails, Session.supplied]
  rw [invoked, outcomes, printed_snapshots, faultOf?_snapshots, join_texts]
  simp [printed, faultOf?]

end Invoked

/-- The engine of a run can be put together, and it knows the action, which may run on the
    text. -/
def Prepared (host : Host) (path : Option String) (s : Settings) (t : Terminal)
    (r : RunArguments) : Prop :=
  ∃ engine t' action, (buildEngine host s path).run t = (.ok engine, t') ∧
    engine.registry.actionFor r.action = .ok action ∧ (r.invocation host action).Permitted

/-- A single request and a stream of the same text agree. Whatever the coordinator did before,
    both end with the same suggestion on offer, apart from its id; a range that cannot be read
    ends both alike. A run command prints the reply and one line feed, whether it streams or
    not; if the stream fails, it prints the chunks that came. -/
theorem single_and_streamed_runs_agree {chunks : List String} {reply : String}
    (cut : String.join chunks = reply) :
    (∀ (s : Setting) (f : Floor) (i : Invocation) (task : Nat), s.Calm → i.Permitted →
      match TextRange.ofValue i.target with
      | .ok target => ∃ (suggestion : Suggestion) (id : String),
          (Floor.run s f (Floor.singleRun i f.stages.length task reply)).Rests
            f.stages.length .over suggestion ∧
          (Floor.run s f (Floor.streamRun i f.stages.length task chunks)).Rests
            f.stages.length .over { suggestion with id := id } ∧
          suggestion = ⟨suggestion.id, i.selection, reply, i.action, target, false⟩
      | .error fault =>
          (f.step s (.execute i task)).2 = [.raised fault none] ∧
          (f.step s (.execute i task)).1.desk.view = f.desk.view ∧
          ((f.step s (.stream i)).1.step s (.pull f.stages.length task)).2 =
            [.raised fault none] ∧
          ((f.step s (.stream i)).1.step s (.pull f.stages.length task)).1.desk.view =
            f.desk.view) ∧
    (∀ (host : Host) (a : Arguments) (store : Settings.Store) (overrides : Fields) (s : Settings)
      (t : Terminal) (r : RunArguments) (service : Service), Prepared host a.actionsPath s t r →
      host.service = some service → service.chunks = chunks →
      (service.fault = none → service.reply = reply → ∀ stream : Bool, ∃ t',
        (carryOut host { a with command := .run { r with stream := stream } } store overrides
          s).run t = (.ok 0, t') ∧ t'.output = t.output ++ reply ++ "\n") ∧
      ∀ fault, service.fault = some fault → ∃ status t',
        (carryOut host { a with command := .run { r with stream := true } } store overrides
          s).run t = (.ok status, t') ∧ t'.output = t.output ++ String.join chunks) := by
  constructor
  · intro s f i task calm permitted
    split
    · rename_i target range
      obtain ⟨id, single⟩ := Floor.singleRun_rests calm f permitted range task reply
      obtain ⟨id', streamed⟩ := Floor.streamRun_rests calm f permitted range task chunks
      rw [cut] at streamed
      exact ⟨_, id', single, streamed, rfl⟩
    · rename_i fault range
      exact f.refused_alike permitted range task
  · rintro host a store overrides s t r service ⟨engine, t₁, action, built, known, permitted⟩ served
      rfl
    obtain ⟨kept, gives⟩ := buildEngine_silent served s a.actionsPath t
    rw [built] at kept gives
    obtain ⟨serves, calm⟩ := gives engine rfl
    have range : TextRange.ofValue (r.invocation host action).target = .ok _ := rfl
    constructor
    · intro whole same stream
      subst same
      obtain ⟨prints, ends⟩ := printed_invoke serves calm permitted range whole cut stream
      obtain ⟨t₂, ran, output⟩ :=
        runAction_of_no_fault (r := { r with stream := stream }) known ends t₁
      obtain ⟨t', carried, output'⟩ := carryOut_run store overrides
        (a := { a with command := .run { r with stream := stream } }) rfl built ran
      refine ⟨t', carried, ?_⟩
      rw [output', output, kept]
      exact congrArg (fun text => t.output ++ text ++ "\n") prints
    · intro fault fails
      obtain ⟨prints, ends⟩ := printed_invoke_of_fault serves calm permitted range fails
      obtain ⟨status, t₂, ran, output⟩ :=
        runAction_of_fault (r := { r with stream := true }) known ends t₁
      obtain ⟨t', carried, output'⟩ := carryOut_run store overrides
        (a := { a with command := .run { r with stream := true } }) rfl built ran
      refine ⟨status, t', carried, ?_⟩
      rw [output', output, kept]
      exact congrArg (fun text => t.output ++ text) prints

/-- A reply that comes in three chunks, one of them empty. -/
def clearService : Service where
  reply := "Clear"
  chunks := ["Cl", "", "ear"]

theorem clear_reply_printed_alike :
    String.join clearService.chunks = clearService.reply ∧
      ∀ stream : Bool, ∃ t', (carryOut { service := some clearService }
        { command := .run { action := "rewrite.improve_clarity", text := some "Some", stream } }
        ⟨.ofText "settings.json", .ofText "settings.key"⟩ [] Settings.initial).run {} =
          (.ok 0, t') ∧ t'.output = "Clear\n" := by
  have cut : String.join clearService.chunks = clearService.reply := rfl
  have prepared : Prepared { service := some clearService } none Settings.initial {}
      { action := "rewrite.improve_clarity", text := some "Some" } :=
    ⟨_, _, _, rfl, rfl, ⟨fun _ => by decide, rfl⟩⟩
  exact ⟨cut, ((single_and_streamed_runs_agree cut).2 _ {} _ [] Settings.initial {} _ clearService
    prepared rfl rfl).1 rfl rfl⟩

end Run

end ActionEngine.CommandLine
