import ActionEngine.Proofs.Citation.Url
import ActionEngine.Proofs.CommandLine.Printing
import ActionEngine.Proofs.Coordinator.Refusal

/-!
# Which URLs are opened

An invocation that is routed to the citation manager opens one URL, when it starts, and no
other invocation opens any. The URL tells which text is searched for: the first characters of
the selection, without the blanks around them. A selection is a string here; the citation
manager ends with a fault, and opens nothing, if it is given half of a pair.
-/

namespace ActionEngine.CommandLine

open Coordinator Running Steps

/-- The URLs that some outputs have the citation manager open. -/
def opened (scheme : Value) (outputs : List Output) : List LooseText :=
  outputs.filterMap fun o => o.query?.bind fun query => (citationUrl scheme query).toOption

/-- What is searched for: the first characters of the selection, without blanks around them. -/
def searchText (i : Invocation) : List Char :=
  Text.trim (i.selection.toList.take 100)

/-- The URL that an invocation opens if it is routed to the citation manager. -/
def searchUrlOf (scheme : LooseText) (i : Invocation) : LooseText :=
  Citation.urlOf scheme (Text.utf8Encode (searchText i))

theorem searchUrlOf_searches (scheme : LooseText) (i : Invocation) :
    Citation.Searches (Citation.normalScheme scheme) (searchText i)
      (searchUrlOf scheme i).codes :=
  Citation.urlOf_searches scheme (searchText i)

/-- Invocations that are searched by different texts open different URLs, whatever the
    schemes are. -/
theorem searchUrlOf_inj {scheme scheme' : LooseText} {i j : Invocation}
    (same : searchUrlOf scheme i = searchUrlOf scheme' j) :
    Citation.normalScheme scheme = Citation.normalScheme scheme' ∧
      searchText i = searchText j := by
  have searches := searchUrlOf_searches scheme' j
  rw [← same] at searches
  exact (searchUrlOf_searches scheme i).unique searches

/-- A scheme that is empty stands for the default one, as no scheme does. -/
theorem citationUrl_text (scheme query : LooseText) :
    citationUrl (.text scheme) query = Citation.searchUrl query scheme := by
  unfold citationUrl
  split
  · next absent =>
    have empty : scheme = "" := by simpa [Value.isPresent] using absent
    rw [empty]
  · rfl

/-- The citation manager has a URL for the queries that are strings. -/
theorem exists_citationUrl_iff (scheme query : LooseText) :
    (∃ url, citationUrl (.text scheme) query = .ok url) ↔ ∃ text : String, query = text := by
  rw [← LooseText.exists_trim_eq_whole_iff]
  simp only [citationUrl_text, Citation.searchUrl_eq_ok_iff]
  constructor
  · rintro ⟨url, text, trimmed, -⟩
    exact ⟨text, trimmed⟩
  · rintro ⟨text, trimmed⟩
    exact ⟨_, text, trimmed, rfl⟩

theorem citationUrl_selection (scheme : LooseText) (i : Invocation) :
    citationUrl (.text scheme) (clip citationQueryLimit i.selection) =
      .ok (searchUrlOf scheme i) := by
  rw [citationUrl_text, Citation.searchUrl_eq_ok_iff]
  refine ⟨_, LooseText.trim_whole _, ?_⟩
  rw [String.toList_ofList, clip, String.toList_ofList]
  rfl

theorem citationSearch_at_once (host : Host) (scheme : Value) (query : LooseText) :
    (citationSearch host scheme query).awaited = false := by
  unfold citationSearch
  split <;> rfl

/-! ### The segment that opens a URL -/

def OpensUrls (s : Setting) (host : Host) (scheme : LooseText) : Prop :=
  s.citations = some fun query : String => citationSearch host (.text scheme) query

/-- What an invocation shows that is routed to the citation manager. -/
def routedOutputs (i : Invocation) : List Output :=
  [.citation (clip citationQueryLimit i.selection), .raised (handledExternally i) none]

theorem opened_routedOutputs (scheme : LooseText) (i : Invocation) :
    opened (.text scheme) (routedOutputs i) = [searchUrlOf scheme i] := by
  unfold opened routedOutputs
  simp only [List.filterMap_cons, List.filterMap_nil, Output.query?, Option.bind_some,
    Option.bind_none, citationUrl_selection, Except.toOption]

section Launch

variable {s : Setting} {host : Host} {scheme : LooseText} {i : Invocation}

theorem open_routed (opens : OpensUrls s host scheme) (routed : i.Routed) (d : Desk)
    (task : Nat) :
    ∃ d', d.Alike d' ∧ openSingle s d i task = (d', .over, routedOutputs i) ∧
      openStream s d i task = (d', .over, routedOutputs i) := by
  have remarks := receive_remarks s d i
  have received : (receive s d i).2 =
      ([.citation (clip citationQueryLimit i.selection)], .refused (handledExternally i)) := by
    rw [receive_routed d routed, routeExternally, opens]
    dsimp only
    rw [if_neg (by rw [citationSearch_at_once]; decide)]
  unfold openSingle openStream
  generalize receive s d i = reception at remarks received ⊢
  obtain ⟨d', outputs, result⟩ := reception
  cases received
  exact ⟨d', remarks, rfl, rfl⟩

/-- A routed invocation starts, opens its URL, and is over. -/
theorem launch_goes (opens : OpensUrls s host scheme) {f : Floor} {m : Move} {task : Nat}
    (launches : f.Launches i task m) (routed : i.Routed) :
    ∃ g, f.Goes s m g (routedOutputs i) ∧ g.stages[f.startedAt m]? = some .over := by
  obtain ⟨d', ⟨log, rfl⟩, single, streamed⟩ := open_routed opens routed (f.deskFor task) task
  cases m with
  | execute j t =>
      obtain ⟨rfl, rfl⟩ := launches
      exact ⟨_, ⟨congrArg f.add single, rfl⟩, List.getElem?_concat_length⟩
  | pull p t =>
      obtain ⟨unopened, rfl⟩ := launches
      have moved : f.step s (.pull p t) = f.put p (openStream s (f.deskFor t) i t) :=
        Floor.step_eq_turn rfl unopened
      rw [streamed] at moved
      exact ⟨_, ⟨moved, rfl⟩, Floor.put_stands unopened _⟩
  | _ => exact launches.elim

end Launch

/-! ### Interleavings -/

instance (i : Invocation) : Decidable i.Routed :=
  decidable_of_iff ((i.action.needsSelection = true → i.selection ≠ "") ∧
    i.action.external = true) ⟨fun h => ⟨h.1, h.2⟩, fun h => ⟨h.selected, h.external⟩⟩

def launchedRouted (f : Floor) (m : Move) : Option Invocation :=
  let launched : Option Invocation := match m with
    | .execute i _ => some i
    | .pull place _ => match f.stages[place]? with
      | some (.unopened i) => some i
      | _ => none
    | _ => none
  launched.filter fun i => i.Routed

def routedAlong (s : Setting) : Floor → List Move → List Invocation
  | _, [] => []
  | f, m :: moves => (launchedRouted f m).toList ++ routedAlong s (f.step s m).1 moves

section Interleavings

variable {s : Setting} {host : Host} {scheme : LooseText} {i : Invocation} {f : Floor} {m : Move}

theorem launchedRouted_eq_some :
    launchedRouted f m = some i ↔ i.Routed ∧ ∃ task, f.Launches i task m := by
  unfold launchedRouted
  rw [Option.filter_eq_some_iff, and_comm, decide_eq_true_eq]
  refine and_congr_right fun _ => ?_
  cases m with
  | execute j t =>
      dsimp only
      constructor
      · intro same
        exact ⟨t, Option.some.inj same, rfl⟩
      · rintro ⟨task, rfl, rfl⟩
        rfl
  | pull p t =>
      dsimp only
      constructor
      · intro found
        split at found
        · next unopened =>
          cases found
          exact ⟨t, unopened, rfl⟩
        · cases found
      · rintro ⟨task, unopened, rfl⟩
        rw [unopened]
  | _ =>
      constructor
      · intro wrong
        cases wrong
      · rintro ⟨task, wrong⟩
        exact wrong.elim

/-- A move opens a URL for the routed invocation that it starts, and no other. -/
theorem opened_step (opens : OpensUrls s host scheme) (mute : f.Mute) (m : Move) :
    opened (.text scheme) (f.step s m).2 =
      (launchedRouted f m).toList.map (searchUrlOf scheme) := by
  cases h : launchedRouted f m with
  | some i =>
      obtain ⟨routed, task, launches⟩ := launchedRouted_eq_some.1 h
      obtain ⟨g, goes, -⟩ := launch_goes opens launches routed
      rw [goes.step]
      exact opened_routedOutputs scheme i
  | none =>
      refine List.filterMap_eq_nil_iff.2 ?_
      intro o member
      cases o with
      | citation query =>
          obtain ⟨i, task, launches, consults⟩ := (mute.step s m).2 query member
          rw [launchedRouted_eq_some.2 ⟨consults.routed, task, launches⟩] at h
          cases h
      | _ => rfl

theorem opened_trace (opens : OpensUrls s host scheme) (mute : f.Mute) (moves : List Move) :
    (f.trace s moves).flatMap (fun entry => opened (.text scheme) entry.2) =
      (routedAlong s f moves).map (searchUrlOf scheme) := by
  induction moves generalizing f with
  | nil => rfl
  | cons m moves ih =>
      rw [Floor.trace, List.flatMap_cons, opened_step opens mute m, ih (mute.step s m).1,
        routedAlong, List.map_append]

end Interleavings

/-! ### Sessions -/

section Sessions

variable {s : Setting} {host : Host} {scheme : LooseText} {i : Invocation} {t : Session}
  {name : String}

theorem move_routed {m : Move} {g : Floor} (goes : t.floor.Goes t.setting m g (routedOutputs i))
    (chores : t.floor.desk.chores = ([], [])) (name : String) :
    t.move name m = ({ t with floor := g, calls := t.calls ++
        [(name, .citation (clip citationQueryLimit i.selection))] },
      [.raised (handledExternally i) none]) := by
  have seen (query : String) : Session.isSeen t.supply (.citation query) = true := by
    cases t.supply <;> rfl
  rw [Session.move_eq_of_goes goes chores name]
  simp [routedOutputs, Session.isCall, seen]

/-- A task that is shown a fault has ended, and so has the session if there is no other task. -/
theorem rest_of_raised {errand : Errand} {fault : Fault}
    (chores : t.floor.desk.chores = ([], [])) (tasks : t.tasks = [⟨name, 0, errand, true⟩]) :
    (t.advance 0 ⟨name, 0, errand, true⟩ [.raised fault none]).rest =
      { t with tasks := [⟨name, 0, errand, false⟩]
               outcomes := t.outcomes ++ [.shown name (.raised fault none)] } := by
  let ended : Session :=
    { t with tasks := [⟨name, 0, errand, false⟩]
             outcomes := t.outcomes ++ [.shown name (.raised fault none)] }
  have advanced : t.advance 0 ⟨name, 0, errand, true⟩ [.raised fault none] = ended := by
    cases errand <;> simp [Session.advance, Session.conclude, Session.report, Session.setTask,
      tasks, ended]
  rw [advanced, Session.rest_of_none (t := ended) (congrArg Prod.snd chores)]
  exact Session.settle_of_ended (t := ended) _ rfl

/-- A session with a routed invocation: one call, which is the query, and the signal that the
    invocation was dealt with. -/
structure Dealt (t : Session) (name : String) (i : Invocation) : Prop where
  calls : t.calls = [(name, .citation (clip citationQueryLimit i.selection))]
  outcomes : t.outcomes = [.shown name (.raised (handledExternally i) none)]

theorem executed_routed (opens : OpensUrls s host scheme) (routed : i.Routed) (supply : Supply)
    (queues : List (String × Item)) (name : String) :
    Dealt (({ setting := s, supply, queues } : Session).run (.execute name i)).1 name i := by
  let made : Session :=
    { setting := s, supply, queues, places := [(name, 0)]
      tasks := [⟨name, 0, .single, true⟩] }
  obtain ⟨g, goes, stands⟩ :=
    launch_goes (f := made.floor) (m := .execute i 0) opens ⟨rfl, rfl⟩ routed
  have moved := move_routed (t := made) goes rfl name
  have ended : g.stages[0]? = some .over := stands
  have executed : ({ setting := s, supply, queues } : Session).execute name i =
      (made.move name (.execute i 0)).1.advance 0 ⟨name, 0, .single, true⟩
        [.raised (handledExternally i) none] := by
    have empty : ({ setting := s, supply, queues } : Session).floor.stages.length = 0 := rfl
    have named : (({ setting := s, supply, queues } : Session).name name).addTask
        ⟨name, 0, .single, true⟩ = (made, 0) := rfl
    unfold Session.execute
    cases supply <;> simp only [empty, named, moved, Session.finishSearch, ended]
  have whole : (({ setting := s, supply, queues } : Session).run (.execute name i)).1 =
      (({ setting := s, supply, queues } : Session).execute name i).rest := rfl
  rw [whole, executed, moved, rest_of_raised goes.chores rfl]
  exact ⟨rfl, rfl⟩

theorem consumed_routed (opens : OpensUrls s host scheme) (routed : i.Routed) (supply : Supply)
    (queues : List (String × Item)) (name : String) :
    Dealt ((({ setting := s, supply, queues } : Session).run (.stream name i)).1.run
      (.consume name [])).1 name i := by
  let made : Session :=
    { setting := s, supply, queues, floor := { stages := [.unopened i] }, places := [(name, 0)]
      tasks := [⟨name, 0, .consume [], true⟩] }
  obtain ⟨g, goes, stands⟩ :=
    launch_goes (f := made.floor) (m := .pull 0 0) opens ⟨rfl, rfl⟩ routed
  have moved := move_routed (t := made) goes rfl name
  have ended : g.stages[0]? = some .over := stands
  have pulled : made.pull 0 ⟨name, 0, .consume [], true⟩ = made.move name (.pull 0 0) := by
    unfold Session.pull
    cases supply <;> simp only [moved, Session.finishSearch, ended]
  have started : (({ made with tasks := [] } : Session).start name (.consume [])) =
      (made.pull 0 ⟨name, 0, .consume [], true⟩).1.advance 0 ⟨name, 0, .consume [], true⟩
        (made.pull 0 ⟨name, 0, .consume [], true⟩).2 := by
    simp [Session.start, made, Session.isRunning, Session.addTask]
  have whole : ((({ setting := s, supply, queues } : Session).run (.stream name i)).1.run
      (.consume name [])).1 =
        (({ made with tasks := [] } : Session).start name (.consume [])).rest := rfl
  rw [whole, started, pulled, moved, rest_of_raised goes.chores rfl]
  exact ⟨rfl, rfl⟩

/-- A routed invocation of a run is dealt with alike, whether it streams or not. -/
theorem invoke_routed {engine : Engine} (opens : OpensUrls engine.setting host scheme)
    (routed : i.Routed) (stream : Bool) : Dealt (invoke engine i stream) runName i := by
  cases stream with
  | false => exact executed_routed opens routed _ _ runName
  | true => exact consumed_routed opens routed _ _ runName

theorem faultOf?_invoke_routed {engine : Engine} (opens : OpensUrls engine.setting host scheme)
    (stream : Bool) (routed : i.Routed) :
    faultOf? (invoke engine i stream).outcomes = some (handledExternally i) := by
  rw [(invoke_routed opens routed stream).outcomes]
  rfl

end Sessions

/-! ### Run commands -/

/-- The step always gives a value back, and opens some URLs. -/
def Running.Opens {α : Type} (step : Running α) (a : α) (urls : List LooseText) : Prop :=
  ∀ t, ∃ t', step.run t = (.ok a, t') ∧ t'.urls = t.urls ++ urls

namespace Running.Opens

variable {α β : Type} {step : Running α} {next : α → Running β} {a : α} {b : β}
  {urls later : List LooseText}

theorem bind (first : step.Opens a urls) (second : (next a).Opens b later) :
    Opens (step >>= next) b (urls ++ later) := by
  intro t
  obtain ⟨t', ran, opened⟩ := first t
  obtain ⟨t'', ran', opened'⟩ := second t'
  refine ⟨t'', (run_bind_of_ok ran).trans ran', ?_⟩
  rw [opened', opened, List.append_assoc]

/-- A step that opens no URL can go first. -/
theorem bind_none (first : step.Opens a []) (second : (next a).Opens b later) :
    Opens (step >>= next) b later :=
  first.bind second

theorem pure (a : α) : Opens (Pure.pure a) a [] :=
  fun t => ⟨t, rfl, (List.append_nil _).symm⟩

theorem modify {f : Terminal → Terminal} (h : ∀ t, (f t).urls = t.urls ++ urls) :
    Opens (modify f : Running PUnit) ⟨⟩ urls :=
  fun t => ⟨f t, rfl, h t⟩

theorem note (call : Call) : Opens (Running.note call) ⟨⟩ [] :=
  .modify fun _ => (List.append_nil _).symm

theorem print (text : String) : Opens (Running.print text) ⟨⟩ [] :=
  .modify fun _ => (List.append_nil _).symm

theorem complain (message : String) : Opens (Running.complain message) ⟨⟩ [] :=
  .modify fun _ => (List.append_nil _).symm

theorem remark (host : Host) (log : Log) : Opens (Running.remark host log) ⟨⟩ [] :=
  .modify fun _ => (List.append_nil _).symm

theorem forIn {γ : Type} {urlsOf : γ → List LooseText}
    {body : γ → PUnit → Running (ForInStep PUnit)}
    (each : ∀ x, (body x ⟨⟩).Opens (.yield ⟨⟩) (urlsOf x)) (xs : List γ) :
    Opens (forIn xs PUnit.unit body) ⟨⟩ (xs.flatMap urlsOf) := by
  induction xs with
  | nil => exact .pure _
  | cons x xs ih =>
      rw [List.forIn_cons, List.flatMap_cons]
      exact (each x).bind ih

end Running.Opens

theorem opened_calls (scheme : Value) (calls : List (String × Output)) :
    opened scheme (calls.map Prod.snd) = calls.flatMap fun call => opened scheme [call.2] := by
  induction calls with
  | nil => rfl
  | cons call calls ih =>
      rw [List.map_cons, List.flatMap_cons, ← ih]
      exact List.filterMap_append (l := [call.2])

/-- The URLs that a run notes are those that its calls open. -/
theorem noteRequests_opens (engine : Engine) (calls : List (String × Output)) :
    (noteRequests engine calls).Opens ⟨⟩ (opened engine.scheme (calls.map Prod.snd)) := by
  unfold noteRequests
  rw [opened_calls, ← List.append_nil (List.flatMap _ calls)]
  refine (Opens.forIn (fun call => ?_) calls).bind (.pure _)
  obtain ⟨name, o⟩ := call
  cases o with
  | complete | stream => exact (Opens.note _).bind_none (.pure _)
  | citation query =>
      unfold opened
      simp only [List.filterMap_cons, List.filterMap_nil, Output.query?, Option.bind_some]
      cases citationUrl engine.scheme query with
      | ok url =>
          have recorded : Opens (modify fun t => { t with urls := t.urls ++ [url] }) ⟨⟩ [url] :=
            .modify fun _ => rfl
          exact recorded.bind (.pure _)
      | error fault => exact .pure _
  | _ => exact .pure _

theorem reportFault_handledExternally (i : Invocation) :
    (reportFault (handledExternally i)).Opens 0 [] :=
  (Opens.complain _).bind_none (.pure 0)

section Run

variable {host : Host} {engine : Engine} {r : RunArguments} {action : Action}
  {scheme : LooseText}

theorem runAction_routed (opens : OpensUrls engine.setting host scheme)
    (named : engine.scheme = .text scheme)
    (known : engine.registry.actionFor r.action = .ok action)
    (routed : (r.invocation host action).Routed) :
    (runAction host engine r).Opens 0 [searchUrlOf scheme (r.invocation host action)] := by
  have urls : opened engine.scheme
      ((invoke engine (r.invocation host action) r.stream).calls.map Prod.snd) =
        [searchUrlOf scheme (r.invocation host action)] := by
    rw [(invoke_routed opens routed r.stream).calls, named]
    exact opened_routedOutputs scheme _
  have noted := noteRequests_opens engine (invoke engine (r.invocation host action) r.stream).calls
  rw [urls] at noted
  unfold runAction
  rw [known]
  refine noted.bind ((Opens.print _).bind_none ?_)
  rw [faultOf?_invoke_routed opens]
  · exact (Opens.remark host _).bind_none (reportFault_handledExternally _)
  · exact routed

/-- The engine of a run opens URLs of the scheme that the settings name. -/
theorem buildEngine_opens {settings : Settings} {path : Option String} {t t' : Terminal}
    (chosen : settings.get .citationScheme = .text scheme)
    (built : (buildEngine host settings path).run t = (.ok engine, t')) :
    OpensUrls engine.setting host scheme ∧ engine.scheme = .text scheme := by
  have cites : (buildEngine host settings path).Silent fun engine =>
      OpensUrls engine.setting host scheme ∧ engine.scheme = .text scheme := by
    unfold buildEngine
    refine (Silent.attempt _).bind fun path _ => ?_
    refine Silent.get.bind fun t _ => ?_
    refine (Silent.attempt _).bind fun (log, text) _ => ?_
    refine (Silent.remark host log).bind fun _ _ => ?_
    refine (Silent.remark host _).bind fun _ _ => ?_
    refine (chooseService_prints_nothing host settings).bind fun service _ => ?_
    refine (Silent.attempt _).bind fun minimumReply _ => ?_
    refine (Silent.attempt _).bind fun streamBudget _ => ?_
    rw [chosen]
    exact .pure ⟨rfl, rfl⟩
  exact (cites t).2 engine (congrArg Prod.fst built)

end Run

/-- The citation manager has a URL for every query that can be encoded, and for no other. A
    selection is searched by its first characters, without the blanks around them, and the
    URL tells which these are: two selections that differ there open different URLs, whatever
    the schemes are. An invocation that is routed to the citation manager opens its URL when it
    starts, and is over. In every interleaving the URLs opened are those of the routed
    invocations, one for each, in the order in which they start. A run command opens the URL
    of its one invocation, and ends well. -/
theorem routed_invocation_opens_one_url (host : Host) (scheme : LooseText) :
    (∀ query : LooseText, (∃ url, citationUrl (.text scheme) query = .ok url) ↔
      ∃ bytes, query.utf8 = .ok bytes) ∧
    (∀ i : Invocation, Citation.Searches (Citation.normalScheme scheme) (searchText i)
      (searchUrlOf scheme i).codes) ∧
    (∀ (scheme' : LooseText) (i j : Invocation), searchText i ≠ searchText j →
      searchUrlOf scheme i ≠ searchUrlOf scheme' j) ∧
    (∀ s : Setting, OpensUrls s host scheme →
      (∀ (f : Floor) (m : Move) (i : Invocation) (task : Nat), f.Launches i task m → i.Routed →
        opened (.text scheme) (f.step s m).2 = [searchUrlOf scheme i] ∧
          (f.step s m).1.stages[f.startedAt m]? = some .over) ∧
      ∀ moves : List Move,
        (Floor.trace s {} moves).flatMap (fun entry => opened (.text scheme) entry.2) =
          (routedAlong s {} moves).map (searchUrlOf scheme)) ∧
    ∀ (settings : Settings) (path : Option String) (before start : Terminal) (engine : Engine)
      (r : RunArguments) (action : Action), settings.get .citationScheme = .text scheme →
      (buildEngine host settings path).run before = (.ok engine, start) →
      engine.registry.actionFor r.action = .ok action → (r.invocation host action).Routed →
      ∃ t, (runAction host engine r).run start = (.ok 0, t) ∧
        t.urls = start.urls ++ [searchUrlOf scheme (r.invocation host action)] := by
  refine ⟨?_, searchUrlOf_searches scheme, ?_, ?_, ?_⟩
  · intro query
    rw [exists_citationUrl_iff, LooseText.exists_utf8_eq_ok_iff]
  · intro scheme' i j differ same
    exact differ (searchUrlOf_inj same).2
  · intro s opens
    constructor
    · intro f m i task launches routed
      obtain ⟨g, goes, ended⟩ := launch_goes opens launches routed
      rw [goes.step]
      exact ⟨opened_routedOutputs scheme i, ended⟩
    · intro moves
      exact opened_trace opens (Floor.mute_run s []) moves
  · intro settings path before start engine r action chosen built known routed
    obtain ⟨opens, named⟩ := buildEngine_opens chosen built
    exact runAction_routed opens named known routed start

/-- A run that searches for a text with a letter beyond ASCII, and blanks around it. -/
def cafeRun : RunArguments where
  action := "citations.find_supporting"
  text := some " café & co "

/-- An invocation whose selection is in order, although it is blank. -/
def blankRequest : Invocation where
  action := Builtin.findSupporting
  selection := " \n"

def defaultManager : Setting where
  citations := some fun query : String => citationSearch {} (.text "imbib") query

theorem cafe_search_opens_escaped_url :
    opened (.text "imbib") (Floor.step defaultManager {} (.execute blankRequest 0)).2 =
      [.whole "imbib://"] ∧
    ∃ (engine : Engine) (start t : Terminal),
      (buildEngine { service := some clearService } Settings.initial none).run {} =
        (.ok engine, start) ∧
      (runAction { service := some clearService } engine cafeRun).run start = (.ok 0, t) ∧
      t.urls = [.whole "imbib://search?query=caf%C3%A9%20%26%20co"] := by
  constructor
  · obtain ⟨-, -, -, opens, -⟩ := routed_invocation_opens_one_url {} "imbib"
    have routed : blankRequest.Routed := ⟨fun _ => by decide, rfl⟩
    have bare : searchUrlOf "imbib" blankRequest = "imbib://" := by decide
    rw [((opens defaultManager rfl).1 {} (.execute blankRequest 0) blankRequest 0 ⟨rfl, rfl⟩
      routed).1, bare]
  · obtain ⟨-, -, -, -, ran⟩ :=
      routed_invocation_opens_one_url { service := some clearService } "imbib"
    obtain ⟨t, ended, urls⟩ := ran Settings.initial none {} _ _ cafeRun Builtin.findSupporting
      rfl rfl rfl ⟨fun _ => by decide, rfl⟩
    exact ⟨_, _, t, rfl, ended, urls⟩

/-- Half of a pair is no blank text, and the citation manager has no URL for it: it ends with
    the fault of encoding it, before anything is opened. -/
theorem half_opens_no_url :
    LooseText.trim (.broken "" 0x4ff "") = .broken "" 0x4ff "" ∧
    ∃ fault, fault = .system .unencodable (some
        ("'utf-8' codec can't encode character '\\udcff' in position 0: surrogates not allowed")) ∧
      citationUrl (.text "imbib") (.broken "" 0x4ff "") = .error fault ∧
      citationSearch {} (.text "imbib") (.broken "" 0x4ff "") = { fault := some fault } := by
  refine ⟨by decide, _, rfl, ?_, ?_⟩
  · decide
  · decide

end ActionEngine.CommandLine
