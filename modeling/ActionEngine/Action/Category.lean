import ActionEngine.Text.Letters
import ActionEngine.Value

/-!
# Categories

Actions are grouped in five categories, in a fixed order. A category may be given by
its word; case and the blanks around it do not matter.
-/

namespace ActionEngine

/-- The categories, in the order in which they are listed. -/
inductive Category where
  | rewriting
  | citations
  | explanation
  | structuring
  | review
deriving DecidableEq, Repr

namespace Category

def all : List Category := [.rewriting, .citations, .explanation, .structuring, .review]

def word : Category → String
  | rewriting => "rewrite"
  | citations => "citations"
  | explanation => "explain"
  | structuring => "structure"
  | review => "review"

def title : Category → String
  | rewriting => "Rewrite"
  | citations => "Citations"
  | explanation => "Explain"
  | structuring => "Structure"
  | review => "Review"

/-- The icon of actions that have none of their own. -/
def icon : Category → String
  | rewriting => "arrow.triangle.2.circlepath"
  | citations => "quote.opening"
  | explanation => "lightbulb"
  | structuring => "list.bullet.indent"
  | review => "checkmark.circle"

def ofWord? (s : String) : Option Category :=
  all.find? fun c => c.word == s

/-- The category that a text names, whatever its case and the blanks around it. -/
def ofText? (s : String) : Option Category :=
  ofWord? (Text.keyword s)

/-- The category that a value names; only a whole text can name one. -/
def ofValue? : Value → Option Category
  | .text (.whole s) => ofText? s
  | _ => none

/-- The category of an action as it was given: one of the five, or any other text. -/
inductive Label where
  | known (c : Category)
  | named (s : String)
deriving DecidableEq, Repr

namespace Label

def text : Label → String
  | known c => c.word
  | named s => s

def category? : Label → Option Category
  | known c => some c
  | named s => ofText? s

/-- The label of a text; the exact word of a category stands for the category. -/
def ofText (s : String) : Label :=
  match ofWord? s with
  | some c => .known c
  | none => .named s

end Label

end Category

end ActionEngine
