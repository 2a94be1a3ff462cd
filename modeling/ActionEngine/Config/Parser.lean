import ActionEngine.Action.Basic
import ActionEngine.Config.Token

/-!
# Reading action files

The parser takes one classified line at a time. It knows its phase, the category it
is in and the action it is collecting. A header ends whatever was open; an action
that cannot be built is dropped and counted, and the rest of the file still loads.
A line below the property column that is no header ends the open action, and at
column 0 the category as well. Inside a prompt block every line from the property
column on is content.
-/

namespace ActionEngine.Config

open ActionEngine.Text

/-- Where the parser is in a file. -/
inductive Phase where
  | expectCategory
  | expectAction
  | collectProperty
  | collectPrompt
deriving DecidableEq, Repr

def Phase.name : Phase → String
  | expectCategory => "expect_category"
  | expectAction => "expect_action"
  | collectProperty => "collect_property"
  | collectPrompt => "collect_prompt_block"

/-! ### Prompt blocks -/

/-- An open prompt block: its lines so far, a blank one being empty, and the column
    at which its content starts if the file fixes one. -/
structure Block where
  lines : List Line := []
  column : Option Nat := none
deriving DecidableEq, Repr

def spaces (line : Line) : Nat :=
  (line.takeWhile (· == ' ')).length

/-- The least of some numbers, and 0 if there are none. -/
def least : List Nat → Nat
  | [] => 0
  | n :: rest => rest.foldl min n

def trimRows (rows : List Line) : List Line :=
  ((rows.dropWhile allBlank).reverse.dropWhile allBlank).reverse

namespace Block

/-- The column at which the content starts: the fixed one, or the least indentation. -/
def margin (b : Block) : Nat :=
  b.column.getD (least ((b.lines.filter fun line => !line.isEmpty).map spaces))

/-- The prompt that a block holds: its lines without the margin, and without the
    blank lines at both ends. -/
def prompt (b : Block) : List Char :=
  -- A line that is indented less than the margin loses all its spaces, and no more.
  unlines (trimRows (b.lines.map fun line => line.drop (min (spaces line) b.margin)))

def add (b : Block) (line : Line) : Block :=
  { b with lines := b.lines ++ [line] }

end Block

/-- The block that a value opens, if it is a block indicator: nothing at all, or a
    bar or angle with at most one width and one sign behind it. -/
def indicator? : Line → Option (Option Nat)
  | [] => some none
  | mark :: rest =>
    let width? (c : Char) : Option Nat :=
      if '1' ≤ c && c ≤ '9' then some (c.toNat - 48) else none
    let isSign (c : Char) : Bool := c == '+' || c == '-'
    if mark == '|' || mark == '>' then
      match rest with
      | [] => some none
      | [c] => if isSign c then some none else (width? c).map some
      -- Width and sign may come in either order.
      | [c, d] =>
        if isSign c then (width? d).map some
        else if isSign d then (width? c).map some
        else none
      | _ => none
    else none

/-! ### Actions being collected -/

structure Draft where
  category : Option Line
  name : Line
  number : Nat
  title : Option Line := none
  icon : Option Line := none
  selection : Option Line := none
  external : Option Line := none
  prompt : Option Line := none
  block : Option Block := none
deriving DecidableEq, Repr

/-- Why an action cannot be built. -/
inductive Refusal where
  | noCategory (name : Line)
  | unknownCategory (category : Line)
  | noTitle (name : Line)
deriving DecidableEq, Repr

def yesWords : List String := ["1", "true", "yes", "on"]

/-- What a flag says; a flag that is missing or empty has its default. -/
def flag (default : Bool) : Option Line → Bool
  | none => default
  | some [] => default
  | some value => yesWords.contains (Text.keyword (String.ofList value))

/-- A value without the quotes around it, if it starts and ends with the same one. -/
def unquote (value : Line) : Line :=
  let value := trim value
  match value with
  | [] => value
  | [_] => value
  | c :: rest =>
    if (c == '"' || c == '\'') && rest.getLast? == some c then rest.dropLast else value

namespace Draft

/-- Close the prompt block, if one is open. -/
def closeBlock (d : Draft) : Draft :=
  match d.block with
  | none => d
  | some b => { d with prompt := some b.prompt, block := none }

/-- Add a line to the prompt block, if one is open. -/
def addLine (d : Draft) (line : Line) : Draft :=
  { d with block := d.block.map fun b => b.add line }

def build (d : Draft) : Except Refusal Action :=
  match d.category with
  | none => .error (.noCategory d.name)
  | some key =>
    match Category.ofText? (String.ofList key) with
    | none => .error (.unknownCategory key)
    | some category =>
      -- The title is asked for last: an unknown category is the reason that is reported.
      match d.title with
      | none => .error (.noTitle d.name)
      | some [] => .error (.noTitle d.name)
      | some title => .ok
        { category := .known category
          name := String.ofList d.name
          title := String.ofList title
          prompt := String.ofList (d.prompt.getD [])
          needsSelection := flag true d.selection
          external := flag false d.external
          icon := match d.icon with
            | none => none
            | some [] => none
            | some icon => some (String.ofList icon) }

end Draft

inductive Property where
  | title
  | icon
  | selection
  | external
  | prompt
deriving DecidableEq, Repr

def Property.ofKey? (key : Line) : Option Property :=
  match String.ofList key with
  | "title" => some .title
  | "icon" => some .icon
  | "requires_selection" => some .selection
  | "opens_external" => some .external
  | "prompt" => some .prompt
  | _ => none

/-! ### The parser -/

/-- The state of the parser. It is sound as long as every property and every line of
    a prompt block found the action that it belongs to. -/
structure Parser where
  phase : Phase := .expectCategory
  category : Option Line := none
  draft : Option Draft := none
  actions : List Action := []
  skipped : Nat := 0
  sound : Bool := true
deriving DecidableEq, Repr

namespace Parser

def initial : Parser := {}

/-- End the open action: it joins the actions if it can be built, and is counted as
    skipped if not. -/
def flush (p : Parser) : Parser :=
  match p.draft with
  | none => p
  | some d =>
    match d.closeBlock.build with
    | .ok action => { p with draft := none, actions := p.actions ++ [action] }
    | .error _ => { p with draft := none, skipped := p.skipped + 1 }

/-- Give the open action the value of a property, or open its prompt block. -/
def setProperty (p : Parser) (indent : Nat) (key value : Line) : Parser :=
  match p.draft with
  | none => { p with sound := false }
  | some d =>
    match Property.ofKey? key with
    | none => p
    | some .title => { p with draft := some { d with title := some (unquote value) } }
    | some .icon => { p with draft := some { d with icon := some (unquote value) } }
    | some .selection => { p with draft := some { d with selection := some (unquote value) } }
    | some .external => { p with draft := some { d with external := some (unquote value) } }
    | some .prompt =>
      match indicator? value with
      | some width =>
        -- A width counts from the property, not from column 0.
        let block : Block := { column := width.map (indent + ·) }
        { p with phase := .collectPrompt, draft := some { d with block := some block } }
      | none => { p with draft := some { d with prompt := some (unquote value) } }

/-- A line without its trailing comment ends with a colon. -/
def looksLikeHeader (line : Line) : Bool :=
  (dropComment line).getLast? == some ':'

/-- A line that is no header stands below the property column: it ends the open
    action, and at column 0 the category. One that ends with a colon is counted. -/
def closeMalformed (p : Parser) (t : Token) : Parser :=
  let p := p.flush
  if t.indent == 0 then { p with category := none, phase := .expectCategory }
  else
    -- What follows an action header that cannot be read belongs to no action; its lines
    -- are passed over until the next header.
    let phase := if p.category.isNone then .expectCategory else .expectAction
    { p with phase, skipped := if looksLikeHeader t.line then p.skipped + 1 else p.skipped }

/-- Take a line outside a prompt block. -/
def feedOutside (p : Parser) (t : Token) : Parser :=
  match t.shape with
  | .blank => p
  | .comment => p
  | .category key => { p.flush with category := some key, phase := .expectAction }
  | .action key =>
    let q := p.flush
    -- The category is that of the header above, if there is one. A draft without any is
    -- only refused when it is built.
    { q with draft := some { category := q.category, name := key, number := t.number }
             phase := .collectProperty }
  | .property key value =>
    if p.phase = .collectProperty then p.setProperty t.indent key value else p
  | .text => if t.indent < propertyColumn then p.closeMalformed t else p

/-- The line belongs to an open prompt block: it is blank, stands at the property
    column or behind it, or is a comment. -/
def continuesBlock (t : Token) : Bool :=
  t.shape = .blank || propertyColumn ≤ t.indent || t.shape = .comment

/-- Take a line of an open prompt block; a comment below the property column is no
    content. -/
def feedBlock (p : Parser) (t : Token) : Parser :=
  match p.draft with
  | some d =>
    if d.block.isNone then { p with sound := false }
    else if t.shape = .blank then { p with draft := some (d.addLine []) }
    else if propertyColumn ≤ t.indent then { p with draft := some (d.addLine t.line) }
    else p
  | none => { p with sound := false }

def leaveBlock (p : Parser) : Parser :=
  match p.draft with
  | some d => { p with draft := some d.closeBlock, phase := .collectProperty }
  | none => { p with sound := false }

def feed (p : Parser) (t : Token) : Parser :=
  if p.phase = .collectPrompt then
    -- The line that ends a block is read once more, as one outside of it.
    if continuesBlock t then p.feedBlock t else p.leaveBlock.feedOutside t
  else p.feedOutside t

/-- Take several lines. -/
def feedAll (p : Parser) (ts : List Token) : Parser :=
  ts.foldl feed p

/-- End the document. -/
def finish (p : Parser) : Parser :=
  { p.flush with phase := .expectCategory }

/-- Read a whole text from the start; a missing one reads as the empty one. -/
def parse (text : Option String) : Parser :=
  match text with
  | none => initial
  | some s => (initial.feedAll (tokens s.toList)).finish

end Parser

def parseActions (text : Option String) : List Action :=
  (Parser.parse text).actions

end ActionEngine.Config
