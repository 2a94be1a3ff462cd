import ActionEngine.Action.Category

/-!
# Actions

An action is a named editing request: a prompt for the model together with what it
needs and how menus show it. Its identity is its composite id, the category and the
local name with a point between them.
-/

namespace ActionEngine

structure Action where
  category : Category.Label
  name : String
  title : String
  prompt : String := ""
  needsSelection : Bool := true
  external : Bool := false
  icon : Option String := none
deriving DecidableEq, Repr

namespace Action

def id (a : Action) : String :=
  a.category.text ++ "." ++ a.name

def sameIdentity (a b : Action) : Bool :=
  a.id == b.id

/-- Two actions agree in every field; categories are compared by their text. -/
def sameFields (a b : Action) : Bool :=
  a.id == b.id && a.title == b.title && a.prompt == b.prompt &&
    a.needsSelection == b.needsSelection && a.external == b.external && a.icon == b.icon

/-- The action's own icon unless that is empty, otherwise its category's. -/
def effectiveIcon (a : Action) : String :=
  let inherited := match a.category.category? with
    | some c => c.icon
    | none => ""
  match a.icon with
  | some icon => if icon == "" then inherited else icon
  | none => inherited

/-- The action under the category that its label names; none if it names none. -/
def normalised? (a : Action) : Option Action :=
  a.category.category?.map fun c => { a with category := .known c }

end Action

/-- The text around a selection at the moment an action is started. -/
structure DocumentContext where
  selection : Option String := some ""
  paragraph : Option String := none
  title : Option String := none
  heading : Option String := none
  source : Option String := none
deriving DecidableEq, Repr

end ActionEngine
