import ActionEngine.Action.Builtin
import ActionEngine.Log

/-!
# Snapshots of the registry

A snapshot holds the actions by their ids. Custom actions replace a baseline action
of the same id in its place, or follow in order. Actions whose label names no
category are dropped.
-/

namespace ActionEngine.Registry

/-- Actions by id, in the order in which the ids first appeared. -/
abbrev Entries := List (String × Action)

/-- Put an action in: it takes the place of the one with its id, or goes to the end. -/
def Entries.put : Entries → Action → Entries
  | [], a => [(a.id, a)]
  | (id, b) :: rest, a => if id == a.id then (id, a) :: rest else (id, b) :: Entries.put rest a

/-- The actions under their proper categories; those that have none are left out. -/
def normalised (actions : List Action) : List Action :=
  actions.filterMap Action.normalised?

def merge (baseline custom : List Action) : Entries :=
  (normalised (baseline ++ custom)).foldl Entries.put []

def distinctIds (actions : List Action) : List String :=
  actions.foldl (fun ids a => if ids.contains a.id then ids else ids ++ [a.id]) []

/-- The merged actions at one moment, and how many of them are custom. -/
structure Snapshot where
  entries : Entries
  customCount : Nat
deriving DecidableEq, Repr

namespace Snapshot

/-- The snapshot of a baseline with custom actions. A repeated id counts once. -/
def build (baseline custom : List Action) : Snapshot where
  entries := merge baseline custom
  customCount := (distinctIds (normalised custom)).length

def ids (s : Snapshot) : List String :=
  s.entries.map (·.1)

def actions (s : Snapshot) : List Action :=
  s.entries.map (·.2)

def size (s : Snapshot) : Nat :=
  s.entries.length

def get? (s : Snapshot) (id : String) : Option Action :=
  s.entries.lookup id

def contains (s : Snapshot) (id : String) : Bool :=
  (s.get? id).isSome

def actionsOf (s : Snapshot) (category : Category) : List Action :=
  s.actions.filter fun a => a.category = .known category

/-- The actions of the category that a value names; none if it names none. -/
def actionsFor (s : Snapshot) (v : Value) : List Action :=
  match Category.ofValue? v with
  | some category => s.actionsOf category
  | none => []

/-- The categories that some action has, in their fixed order. -/
def categories (s : Snapshot) : List Category :=
  Category.all.filter fun c => s.actions.any fun a => a.category = .known c

def text (s : Snapshot) : String :=
  "RegistrySnapshot(actions=" ++ toString s.size ++ ", custom=" ++ toString s.customCount ++ ")"

end Snapshot

/-! ### Remarks -/

def logger : String := "inkwell.actions.registry"

def dropRemarks (actions : List Action) : Log :=
  (actions.filter fun a => a.normalised?.isNone).map fun a =>
    ⟨.warning, logger, "Dropping action '" ++ a.name ++ "': category '" ++ a.category.text ++
      "' is not supported"⟩

/-- The remarks on building a snapshot: the custom actions are looked at first. -/
def buildRemarks (baseline custom : List Action) : Log :=
  dropRemarks custom ++ dropRemarks baseline

end ActionEngine.Registry
