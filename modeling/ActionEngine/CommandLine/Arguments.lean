import ActionEngine.Action.Category
import ActionEngine.CommandLine.Grammar

/-!
# The arguments of the program

The program takes some options and one of four commands with its own arguments. Without
a command it lists the actions.
-/

namespace ActionEngine.CommandLine

/-- What is to be run: an action by its id, on a text that is given or read. -/
structure RunArguments where
  action : String
  text : Option String := none
  stream : Bool := false
  title : Option String := none
  heading : Option String := none
  paragraph : Option String := none
deriving DecidableEq, Repr

inductive Command where
  /-- List the actions, all of them or those of a category. -/
  | list (category : Option String)
  /-- Read a file of actions and report what it holds. -/
  | check (path : Option String)
  /-- Run an action. -/
  | run (r : RunArguments)
  /-- Show the settings in effect. -/
  | settings
deriving DecidableEq, Repr

structure Arguments where
  settingsPath : Option String := none
  actionsPath : Option String := none
  overrides : List String := []
  debug : Bool := false
  command : Command := .list none
deriving DecidableEq, Repr

/-- How the reading of a command line ends, if not with arguments: help for a program or
    one of its commands, or what is wrong. -/
structure Refusal where
  program : String
  ending : Ending
deriving DecidableEq, Repr

def helpOption : NamedOption := { names := ["-h", "--help"], asksHelp := true }

def valueOption (name : String) : NamedOption := { names := [name], takesValue := true }

def bareOption (name : String) : NamedOption := { names := [name] }

def commandNames : List String := ["list", "check", "run", "settings"]

/-- The grammar of the whole command line. -/
def mainGrammar : Grammar where
  options := [helpOption, valueOption "--settings-path", valueOption "--actions-path",
    valueOption "--set", bareOption "--debug"]
  positional := some { label := "command", arity := .rest, choices := commandNames }

def commandGrammar : String → Grammar
  | "list" => { options := [helpOption,
      { valueOption "--category" with choices := Category.all.map Category.word }] }
  | "check" => { options := [helpOption]
                 positional := some { label := "path", arity := .optional } }
  | "run" => { options := [helpOption, valueOption "--text", bareOption "--stream",
      valueOption "--title", valueOption "--heading", valueOption "--paragraph"]
               positional := some { label := "ACTION_ID", arity := .one } }
  | _ => { options := [helpOption] }

def Reading.last? (r : Reading) (key : String) : Option String :=
  r.options.reverse.lookup key

def Reading.all (r : Reading) (key : String) : List String :=
  (r.options.filter fun o => o.1 == key).map (·.2)

def Reading.first? (r : Reading) : Option String :=
  r.positional.bind List.head?

/-- The command that a reading of its arguments stands for. -/
def commandOf (name : String) (r : Reading) : Command :=
  match name with
  | "list" => .list (r.last? "--category")
  | "check" => .check r.first?
  | "run" => .run
    { action := r.first?.getD "", text := r.last? "--text"
      stream := (r.last? "--stream").isSome, title := r.last? "--title"
      heading := r.last? "--heading", paragraph := r.last? "--paragraph" }
  | _ => .settings

def programName : String := "inkwell"

def NamedOption.usage (o : NamedOption) : String :=
  let value : String := if !o.takesValue then ""
    else if o.choices.isEmpty then " VALUE"
    else " " ++ String.intercalate "|" o.choices
  "[" ++ o.names.headD "" ++ value ++ "]"

def Positional.usage (p : Positional) : String :=
  match p.arity with
  | .one => p.label
  | .optional => "[" ++ p.label ++ "]"
  | .rest => String.intercalate "|" p.choices ++ " ..."

def usage (program : String) : String :=
  let g := if program == programName then mainGrammar
    else commandGrammar (String.ofList (program.toList.drop (programName.length + 1)))
  "usage: " ++ String.intercalate " " (program :: g.options.map NamedOption.usage ++
    g.positional.toList.map Positional.usage)

def Arguments.read (arguments : List String) : Except Refusal Arguments := do
  let main ← (mainGrammar.read arguments).mapError fun ending => ⟨programName, ending⟩
  let (command, extra) : Command × List String ← match main.positional with
    | some (name :: rest) => do
      let r ← ((commandGrammar name).read rest).mapError fun ending =>
        ⟨programName ++ " " ++ name, ending⟩
      .ok (commandOf name r, r.extra)
    | _ => .ok (.list none, [])
  -- What nothing took is reported for both grammars together.
  let extra := main.extra ++ extra
  if !extra.isEmpty then
    throw ⟨programName, .wrong ("unrecognized arguments: " ++ String.intercalate " " extra)⟩
  return { settingsPath := main.last? "--settings-path"
           actionsPath := main.last? "--actions-path"
           overrides := main.all "--set", debug := (main.last? "--debug").isSome, command }

end ActionEngine.CommandLine
