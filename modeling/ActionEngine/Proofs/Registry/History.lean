import ActionEngine.Proofs.Config.Grouping
import ActionEngine.Registry.Store

/-!
# The registry over time

A host changes the text of the source, has it read again, supplies definitions of its own
and keeps snapshots. Whatever it did before, the last reading or supplying alone decides
what the registry holds: nothing of earlier definitions stays, and the baseline is never
lost. The snapshots that the host kept are not touched.
-/

namespace ActionEngine.Registry

/-! ### The ids of a snapshot -/

/-- An action that is put in keeps the place of its id, or brings a new id to the end. -/
theorem Entries.ids_put (entries : Entries) (a : Action) :
    (entries.put a).map (·.1) =
      if a.id ∈ entries.map (·.1) then entries.map (·.1) else entries.map (·.1) ++ [a.id] := by
  induction entries with
  | nil => rfl
  | cons entry rest ih =>
      obtain ⟨id, b⟩ := entry
      rw [Entries.put]
      by_cases same : id = a.id
      · simp [same]
      · have other : ¬a.id = id := fun h => same h.symm
        simp only [beq_iff_eq, if_neg same, List.map_cons, ih, List.mem_cons, other, false_or]
        split
        · rfl
        · rfl

theorem Entries.ids_foldl_put (actions : List Action) :
    (actions.foldl Entries.put []).map (·.1) = (actions.map Action.id).eraseDups := by
  induction actions using List.reverseRecOn with
  | nil => rfl
  | append_singleton actions a ih =>
      rw [List.foldl_append, List.map_append, List.map_singleton, Config.eraseDups_concat]
      simp only [List.foldl_cons, List.foldl_nil]
      rw [Entries.ids_put, ih]
      simp only [List.mem_eraseDups]

namespace Snapshot

/-- The ids of a snapshot are those of the actions that have a category, each where it
    first appears. -/
theorem ids_build (baseline custom : List Action) :
    (build baseline custom).ids = ((normalised (baseline ++ custom)).map Action.id).eraseDups :=
  Entries.ids_foldl_put _

/-- The baseline comes first, in its own order, whatever is added to it. -/
theorem baseline_prefix_ids (baseline custom : List Action) :
    ((normalised baseline).map Action.id).eraseDups <+: (build baseline custom).ids := by
  rw [ids_build, normalised, normalised, List.filterMap_append, List.map_append,
    List.eraseDups_append]
  exact List.prefix_append _ _

end Snapshot

/-! ### Histories -/

/-- What a host may do with a registry. -/
inductive Request where
  /-- Change the text that the source supplies. -/
  | setText (text : Option String)
  | reload
  | applyCustom (custom : List Action)
  /-- Keep the current snapshot. -/
  | keep

namespace Request

def Publishes : Request → Prop
  | reload | applyCustom _ => True
  | setText _ | keep => False

/-- The text in force behind a request; a missing source never supplies any. -/
def supply (source : Option (Option String)) : Request → Option (Option String)
  | setText text => source.map fun _ => text
  | _ => source

/-- The custom actions that a request asks for while the source supplies a text. -/
def custom (source : Option (Option String)) : Request → List Action
  | reload => Config.parseActions (source.getD none)
  | applyCustom custom => custom
  | _ => []

end Request

/-- A registry in the hands of a host: the notices that were delivered and the snapshots
    that the host kept. -/
structure Host where
  registry : Registry
  notices : List Notice := []
  kept : List Snapshot := []

namespace Host

def start (baseline : List Action) (source : Option (Option String)) : Host where
  registry := .initial baseline source

/-- Go on with a registry that has published a snapshot. -/
def receive (h : Host) (published : Registry × Notice) : Host :=
  { h with registry := published.1, notices := h.notices ++ [published.2] }

def perform (h : Host) : Request → Host
  | .setText text =>
    { h with registry := { h.registry with source := h.registry.source.map fun _ => text } }
  | .reload => h.receive h.registry.reload
  | .applyCustom custom => h.receive (h.registry.applyCustom custom)
  | .keep => { h with kept := h.kept ++ [h.registry.snapshot] }

def after (h : Host) (requests : List Request) : Host :=
  requests.foldl perform h

variable (h : Host)

theorem after_cons (request : Request) (requests : List Request) :
    h.after (request :: requests) = (h.perform request).after requests :=
  rfl

theorem perform_baseline (request : Request) :
    (h.perform request).registry.baseline = h.registry.baseline := by
  cases request <;> rfl

theorem perform_source (request : Request) :
    (h.perform request).registry.source = request.supply h.registry.source := by
  cases request <;> rfl

theorem perform_kept (request : Request) : h.kept <+: (h.perform request).kept := by
  cases request with
  | keep => exact List.prefix_append _ _
  | setText text => exact List.prefix_rfl
  | reload => exact List.prefix_rfl
  | applyCustom custom => exact List.prefix_rfl

variable {h}

theorem perform_of_publishes {request : Request} (publishes : request.Publishes) :
    let snapshot := Snapshot.build h.registry.baseline (request.custom h.registry.source)
    (h.perform request).registry.snapshot = snapshot ∧
      (h.perform request).notices =
        h.notices ++ [⟨.actionsReloaded snapshot.size snapshot.customCount, snapshot⟩] := by
  cases request with
  | reload => exact ⟨rfl, rfl⟩
  | applyCustom custom => exact ⟨rfl, rfl⟩
  | setText text => cases publishes
  | keep => cases publishes

theorem perform_of_not_publishes {request : Request} (quiet : ¬request.Publishes) :
    (h.perform request).registry.snapshot = h.registry.snapshot ∧
      (h.perform request).notices = h.notices := by
  cases request with
  | reload => exact absurd trivial quiet
  | applyCustom custom => exact absurd trivial quiet
  | setText text => exact ⟨rfl, rfl⟩
  | keep => exact ⟨rfl, rfl⟩

theorem after_baseline (requests : List Request) :
    (h.after requests).registry.baseline = h.registry.baseline := by
  induction requests generalizing h with
  | nil => rfl
  | cons request requests ih => rw [after_cons, ih, perform_baseline]

theorem after_source (requests : List Request) :
    (h.after requests).registry.source = requests.foldl Request.supply h.registry.source := by
  induction requests generalizing h with
  | nil => rfl
  | cons request requests ih => rw [after_cons, ih, perform_source, List.foldl_cons]

theorem after_kept (requests : List Request) : h.kept <+: (h.after requests).kept := by
  induction requests generalizing h with
  | nil => exact List.prefix_rfl
  | cons request requests ih => exact (h.perform_kept request).trans ih

theorem after_of_not_publishes {requests : List Request}
    (quiet : ∀ request ∈ requests, ¬request.Publishes) :
    (h.after requests).registry.snapshot = h.registry.snapshot ∧
      (h.after requests).notices = h.notices := by
  induction requests generalizing h with
  | nil => exact ⟨rfl, rfl⟩
  | cons request requests ih =>
      obtain ⟨snapshot, notices⟩ := perform_of_not_publishes (h := h) (quiet request (by simp))
      obtain ⟨snapshots, all⟩ := ih (h := h.perform request) fun r hr =>
        quiet r (List.mem_cons_of_mem _ hr)
      exact ⟨snapshots.trans snapshot, all.trans notices⟩

/-- Whatever a host did before, the last request that publishes a snapshot decides alone
    what the registry holds: the baseline with the custom actions of that request, the
    ids of the baseline first. It publishes exactly one event, and the snapshot that the
    event describes is the current one by then. A snapshot that was kept stays as it is,
    whatever follows. -/
theorem last_request_decides (baseline : List Action) (source : Option (Option String))
    (before : List Request) {request : Request} {quiet : List Request}
    (publishes : request.Publishes) (silent : ∀ r ∈ quiet, ¬r.Publishes) :
    let earlier := (start baseline source).after before
    let now := earlier.after (request :: quiet)
    let custom := request.custom (before.foldl Request.supply source)
    now.registry.snapshot = Snapshot.build baseline custom ∧
      ((normalised baseline).map Action.id).eraseDups <+: now.registry.snapshot.ids ∧
      now.notices = earlier.notices ++
        [⟨.actionsReloaded now.registry.snapshot.size now.registry.snapshot.customCount,
          now.registry.snapshot⟩] ∧
      ∀ later, earlier.kept ++ [earlier.registry.snapshot] <+:
        (earlier.after (.keep :: later)).kept := by
  intro earlier now custom
  have base : earlier.registry.baseline = baseline := after_baseline before
  have text : earlier.registry.source = before.foldl Request.supply source := after_source before
  obtain ⟨snapshot, notices⟩ := perform_of_publishes (h := earlier) publishes
  obtain ⟨stays, told⟩ := after_of_not_publishes (h := earlier.perform request) silent
  rw [base, text] at snapshot notices
  have current : now.registry.snapshot = Snapshot.build baseline custom := stays.trans snapshot
  refine ⟨current, ?_, ?_, ?_⟩
  · rw [current]
    exact Snapshot.baseline_prefix_ids baseline custom
  · rw [current]
    exact told.trans notices
  · intro later
    exact after_kept (h := earlier.perform .keep) later

/-- A text that puts an action in the place of a built-in one. -/
def overridingText : String :=
  "rewrite:\n  improve_clarity:\n    title: Mine\n    prompt: p\n"

/-- An action that took a built-in one's place is gone once its text is removed. -/
theorem removed_text_leaves_builtin_actions :
    let before : List Request := [.setText (some overridingText), .reload, .setText none]
    let earlier := (start Builtin.actions (some none)).after before
    Request.reload.Publishes ∧ (∀ r ∈ [Request.keep], ¬r.Publishes) ∧
      earlier.registry.snapshot.customCount = 1 ∧
      (earlier.after [.reload, .keep]).registry.snapshot = Snapshot.build Builtin.actions [] := by
  intro before earlier
  have publishes : Request.reload.Publishes := trivial
  have silent : ∀ r ∈ [Request.keep], ¬r.Publishes := by
    intro r hr
    rw [List.mem_singleton.1 hr]
    exact id
  exact ⟨publishes, silent, by decide +kernel,
    (last_request_decides Builtin.actions (some none) before publishes silent).1⟩

end Host

end ActionEngine.Registry
