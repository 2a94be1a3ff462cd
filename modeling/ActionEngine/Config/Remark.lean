import ActionEngine.Config.Parser
import ActionEngine.Log
import ActionEngine.Text.Quoted

/-!
# Remarks on an action file

What the parser reports while it reads. The remarks on a line depend on the state
before it, and have no effect on the state behind it.
-/

namespace ActionEngine.Config

def logger : String := "inkwell.actions.parser"

def quotedLine (line : Text.Line) : String :=
  String.ofList (Text.quoted line)

def Refusal.message : Refusal → String
  | noCategory name => "action '" ++ String.ofList name ++ "' has no enclosing category"
  | unknownCategory category => "unknown category '" ++ String.ofList category ++ "'"
  | noTitle name => "action '" ++ String.ofList name ++ "' has no title"

namespace Parser

def flushRemarks (p : Parser) : Log :=
  match p.draft with
  | none => []
  | some d =>
    match d.closeBlock.build with
    | .ok _ => []
    | .error refusal => Log.one .warning logger
        ("Skipping action block at line " ++ toString d.number ++ ": " ++ refusal.message)

/-- The remark on a line that has no place where it stands. -/
def ignoredRemark (p : Parser) (t : Token) : Log :=
  Log.one .debug logger ("Ignoring line " ++ toString t.number ++ " in state " ++
    p.phase.name ++ ": " ++ quotedLine t.line)

/-- The remark on a line below the property column that is no header. -/
def malformedRemark (t : Token) : Log :=
  let place := toString t.number ++ ": " ++ quotedLine t.line
  if t.indent == 0 then Log.one .warning logger
    ("Malformed category header on line " ++ place ++ "; its actions will be skipped")
  else if looksLikeHeader t.line then
    Log.one .warning logger ("Skipping malformed action header on line " ++ place)
  else Log.one .debug logger
    ("Stray line " ++ toString t.number ++ " closes the current action: " ++ quotedLine t.line)

/-- The remarks on a line outside a prompt block. -/
def remarksOutside (p : Parser) (t : Token) : Log :=
  match t.shape with
  | .blank => []
  | .comment => []
  | .category key =>
    p.flushRemarks ++
      if (Category.ofText? (String.ofList key)).isSome then []
      else Log.one .warning logger ("Unknown action category '" ++ String.ofList key ++
        "' on line " ++ toString t.number ++ "; its actions will be skipped")
  | .action _ => p.flushRemarks
  | .property key _ =>
    if p.phase = .collectProperty then
      if (Property.ofKey? key).isSome then []
      else Log.one .debug logger ("Ignoring unknown property '" ++ String.ofList key ++
        "' on line " ++ toString t.number)
    else p.ignoredRemark t
  | .text =>
    if t.indent < propertyColumn then p.flushRemarks ++ malformedRemark t
    else p.ignoredRemark t

def remarks (p : Parser) (t : Token) : Log :=
  if p.phase = .collectPrompt then
    -- Inside a block nothing is wrong with any line.
    if continuesBlock t then [] else p.leaveBlock.remarksOutside t
  else p.remarksOutside t

def remarksAll (p : Parser) : List Token → Log
  | [] => []
  | t :: ts => p.remarks t ++ (p.feed t).remarksAll ts

def finishRemarks (p : Parser) : Log :=
  p.flushRemarks ++ Log.one .debug logger
    ("Parsed " ++ toString p.finish.actions.length ++ " action(s), skipped " ++
      toString p.finish.skipped)

/-- The remarks on a whole text; there are none on an empty one. -/
def parseRemarks (text : Option String) : Log :=
  match text with
  | none => []
  | some s =>
    if s == "" then []
    else
      let ts := tokens s.toList
      initial.remarksAll ts ++ (initial.feedAll ts).finishRemarks

end Parser

end ActionEngine.Config
