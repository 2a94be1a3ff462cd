import ActionEngine.Config.Parser

/-!
# Writing action files

Actions are written under the headers of their categories, which come in the order
in which they first appear. A prompt becomes a block; the width is given when every
line of it starts with a blank, since the common indentation would be lost otherwise.
-/

namespace ActionEngine.Config

open ActionEngine.Text

/-- Add an action to the group of its category; a new group goes to the end. -/
def addToGroup (category : Category) (action : Action) :
    List (Category × List Action) → List (Category × List Action)
  | [] => [(category, [action])]
  | (c, actions) :: rest =>
    if c = category then (c, actions ++ [action]) :: rest
    else (c, actions) :: addToGroup category action rest

/-- The actions by category, in order of first appearance; an action whose label
    names no category is left out. -/
def grouped (actions : List Action) : List (Category × List Action) :=
  actions.foldl
    (fun groups action =>
      match action.category.category? with
      | some category => addToGroup category action groups
      | none => groups) []

def atColumn (column : Nat) (line : Line) : Line :=
  List.replicate column ' ' ++ line

def propertyRow (key : String) (value : Line) : Line :=
  atColumn propertyColumn (key.toList ++ ':' :: ' ' :: value)

def inQuotes (value : String) : Line :=
  '"' :: value.toList ++ ['"']

def flagWord (b : Bool) : Line :=
  (if b then "true" else "false").toList

/-- A line of a prompt as it stands in its block. -/
def promptRow (row : Line) : Line :=
  -- Two columns behind the properties, which is where a width of two puts the content.
  if allBlank row then [] else trimRight (atColumn (propertyColumn + 2) row)

/-- Every line that is not blank starts with a blank. -/
def needsWidth (rows : List Line) : Bool :=
  (rows.filter fun row => !allBlank row).all fun row => row.head?.any isBlank

def promptRows (prompt : String) : List Line :=
  if allBlank prompt.toList then [propertyRow "prompt" "\"\"".toList]
  else
    let rows := lines prompt.toList
    propertyRow "prompt" (if needsWidth rows then ['|', '2'] else ['|']) :: rows.map promptRow

/-- The line of an icon; an empty one has none. -/
def iconRows (icon : Option String) : List Line :=
  match icon with
  | none => []
  | some icon => if icon == "" then [] else [propertyRow "icon" (inQuotes icon)]

def actionRows (a : Action) : List Line :=
  atColumn actionColumn (a.name.toList ++ [':']) :: propertyRow "title" (inQuotes a.title) ::
    iconRows a.icon ++ propertyRow "requires_selection" (flagWord a.needsSelection) ::
    propertyRow "opens_external" (flagWord a.external) :: promptRows a.prompt

/-- The lines of a group, with a blank one behind them. -/
def groupRows (group : Category × List Action) : List Line :=
  (group.1.word.toList ++ [':']) :: group.2.flatMap actionRows ++ [[]]

/-- The lines of a header comment, with a blank one behind them. -/
def headerRows (header : Option String) : List Line :=
  match header with
  | none => []
  | some text =>
    if text == "" then []
    else (lines text.toList).map (fun row => trimRight ('#' :: ' ' :: row)) ++ [[]]

/-- The text without the line feeds at its end. -/
def dropNewlines (s : List Char) : List Char :=
  (s.reverse.dropWhile (· == '\n')).reverse

def render (actions : List Action) (header : Option String := none) : String :=
  match headerRows header ++ (grouped actions).flatMap groupRows with
  | [] => ""
  | rows => String.ofList (dropNewlines (unlines rows) ++ ['\n'])

end ActionEngine.Config
