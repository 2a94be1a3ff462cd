import ActionEngine.Action.Basic
import ActionEngine.TextRange

/-!
# Suggestions

A suggestion is the selected text, the text proposed for it and where it goes. A
stream yields a row of snapshots of one suggestion: they share its id while the text
grows, and only the last one is not streaming.
-/

namespace ActionEngine

/-- A snapshot of a suggestion. -/
structure Suggestion where
  id : String
  selected : String
  text : String
  source : Action
  target : TextRange
  streaming : Bool
deriving DecidableEq, Repr

namespace Suggestion

/-- The next snapshot, with a chunk of text added. -/
def withChunk (s : Suggestion) (chunk : String) : Suggestion :=
  { s with text := s.text ++ chunk, streaming := true }

def finished (s : Suggestion) : Suggestion :=
  { s with streaming := false }

end Suggestion

end ActionEngine
