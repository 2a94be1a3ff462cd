import ActionEngine.Action.Basic

/-!
# Prompt templates

A template is a text with placeholders from a fixed set. It is read once into pieces,
so that a text put in for a placeholder is never read again, and anything that is
not exactly a placeholder stands for itself.
-/

namespace ActionEngine

/-- What a template can refer to. -/
inductive Placeholder where
  | selection
  | paragraph
  | documentTitle
  | sectionHeading
deriving DecidableEq, Repr

namespace Placeholder

def all : List Placeholder := [.selection, .paragraph, .documentTitle, .sectionHeading]

def name : Placeholder → String
  | selection => "selection"
  | paragraph => "paragraph"
  | documentTitle => "document_title"
  | sectionHeading => "section_heading"

def marker (p : Placeholder) : List Char :=
  '\x7b' :: '\x7b' :: p.name.toList ++ ['\x7d', '\x7d']

/-- The text that a placeholder stands for. A missing paragraph falls back to the
    selection, everything else that is missing to the empty text. -/
def value (context : DocumentContext) : Placeholder → String
  | selection => context.selection.getD ""
  | paragraph => context.paragraph.getD (context.selection.getD "")
  | documentTitle => context.title.getD ""
  | sectionHeading => context.heading.getD ""

/-- The placeholder that a text starts with. -/
def at? (s : List Char) : Option Placeholder :=
  all.find? fun p => p.marker.isPrefixOf s

end Placeholder

namespace Template

/-- A piece of a template. -/
inductive Piece where
  | literal (c : Char)
  | hole (p : Placeholder)
deriving DecidableEq, Repr

/-- The pieces of a text of which the first `skipped` characters belong to a
    placeholder that has been read already. -/
def piecesFrom : Nat → List Char → List Piece
  | _, [] => []
  | skipped + 1, _ :: rest => piecesFrom skipped rest
  | 0, c :: rest =>
    match Placeholder.at? (c :: rest) with
    | some p => .hole p :: piecesFrom (p.marker.length - 1) rest
    | none => .literal c :: piecesFrom 0 rest

def pieces (template : List Char) : List Piece :=
  piecesFrom 0 template

def Piece.text (context : DocumentContext) : Piece → List Char
  | literal c => [c]
  | hole p => (p.value context).toList

/-- Put the context's texts in for the placeholders. -/
def resolve (template : String) (context : DocumentContext) : String :=
  String.ofList ((pieces template.toList).flatMap (Piece.text context))

def Piece.hole? : Piece → Option Placeholder
  | literal _ => none
  | hole p => some p

/-- The placeholders that a template uses, in order of first use. -/
def placeholders (template : String) : List Placeholder :=
  ((pieces template.toList).filterMap Piece.hole?).foldl
    (fun seen p => if seen.contains p then seen else seen ++ [p]) []

end Template

end ActionEngine
