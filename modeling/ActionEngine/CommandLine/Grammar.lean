import ActionEngine.Text.DecimalDigit
import ActionEngine.Text.Quoted

/-!
# The grammar of a command line

A command line consists of options and of positional arguments. A long option may be
shortened as long as it stays unambiguous, and its value may follow behind an equals
sign. Behind two dashes everything is positional. A grammar has at most one positional
argument, which may take the rest of the command line.
-/

namespace ActionEngine.CommandLine

/-- An option. The one that asks for help takes no value and ends the reading. -/
structure NamedOption where
  names : List String
  takesValue : Bool := false
  asksHelp : Bool := false
  choices : List String := []
deriving DecidableEq, Repr

/-- How much a positional argument takes. -/
inductive Arity where
  | one
  | optional
  | rest
deriving DecidableEq, Repr

structure Positional where
  label : String
  arity : Arity
  choices : List String := []
deriving DecidableEq, Repr

structure Grammar where
  options : List NamedOption
  positional : Option Positional := none
deriving DecidableEq, Repr

/-- Why a command line is not read to its end. -/
inductive Ending where
  /-- Help was asked for. -/
  | help
  /-- The command line is wrong. -/
  | wrong (message : String)
deriving DecidableEq, Repr

/-- How an argument of the command line looks. -/
inductive Mark where
  /-- An option under one of its names, with the value behind an equals sign. -/
  | option (o : NamedOption) (name : String) (value : Option String)
  /-- A short option with more written behind it. -/
  | cluster (o : NamedOption) (more : String)
  /-- It looks like an option, but there is none of that name. -/
  | unknown
  /-- Two dashes, which are no argument themselves. -/
  | dashes
  /-- Anything else. -/
  | plain
deriving DecidableEq, Repr

/-! ### Looking at an argument -/

def startsWith (s start : String) : Bool :=
  start.toList.isPrefixOf s.toList

/-- The text before the first equals sign, and the one behind it if there is one. -/
def splitValue (s : String) : String × Option String :=
  let isName (c : Char) : Bool := c != '='
  (String.ofList (s.toList.takeWhile isName),
    match s.toList.dropWhile isName with
    | [] => none
    | _ :: value => some (String.ofList value))

/-- The text is a negative number in plain digits. -/
def isNegativeNumber (s : String) : Bool :=
  let isDigit (c : Char) : Bool := (Text.digitValue? c).isSome
  match s.toList with
  | '-' :: body =>
    let body := if body.getLast? == some '\n' then body.dropLast else body
    let rest := body.dropWhile isDigit
    match rest with
    | [] => !body.isEmpty
    | '.' :: fraction => !fraction.isEmpty && fraction.all isDigit
    | _ => false
  | _ => false

namespace Grammar

def names (g : Grammar) : List (String × NamedOption) :=
  g.options.flatMap fun o => o.names.map fun name => (name, o)

/-- The options that a text may stand for: long ones that start with it, or a short one
    with more behind it. -/
def readings (g : Grammar) (s : String) : List Mark :=
  if startsWith s "--" then
    let (start, value) := splitValue s
    (g.names.filter fun n => startsWith n.1 start).map fun n => .option n.2 n.1 value
  else
    let short := String.ofList (s.toList.take 2)
    g.names.filterMap fun n =>
      if n.1 == short then some (.cluster n.2 (String.ofList (s.toList.drop 2)))
      else if startsWith n.1 s then some (.option n.2 n.1 none)
      else none

def readingName : Mark → String
  | .option _ name _ => name
  | _ => ""

/-- Look at an argument. -/
def mark (g : Grammar) (s : String) : Except Ending Mark :=
  if !startsWith s "-" then .ok .plain
  else match g.names.lookup s with
  | some o => .ok (.option o s none)
  | none =>
    if s == "-" then .ok .plain
    else
      let (name, value) := splitValue s
      -- A full name goes before what it may be short for.
      match value, g.names.lookup name with
      | some value, some o => .ok (.option o name (some value))
      | _, _ =>
        match g.readings s with
        | [reading] => .ok reading
        -- A negative number or a text with blanks is an argument, not a misspelt option.
        | [] => .ok (if isNegativeNumber s || s.toList.contains ' ' then .plain else .unknown)
        | several => .error (.wrong ("ambiguous option: " ++ s ++ " could match " ++
            String.intercalate ", " (several.map readingName)))

/-- Look at all arguments: behind two dashes all of them are plain. -/
def marks (g : Grammar) : List String → Except Ending (List (String × Mark))
  | [] => .ok []
  | s :: rest =>
    if s == "--" then .ok ((s, .dashes) :: rest.map fun s => (s, .plain))
    else do
      let m ← g.mark s
      let more ← g.marks rest
      .ok ((s, m) :: more)

end Grammar

/-! ### Reading -/

/-- What was read: the options with their values in order, the arguments that the
    positional one took, and those that nothing took. -/
structure Reading where
  options : List (String × String) := []
  positional : Option (List String) := none
  extra : List String := []
deriving DecidableEq, Repr

def choiceMessage (label value : String) (choices : List String) : String :=
  "argument " ++ label ++ ": invalid choice: " ++ value.quotedText ++ " (choose from " ++
    String.intercalate ", " (choices.map String.quotedText) ++ ")"

/-- Check a value against the choices; no choices mean that there is no limit. -/
def checkChoice (label value : String) (choices : List String) : Except Ending Unit :=
  if choices.isEmpty || choices.contains value then .ok ()
  else .error (.wrong (choiceMessage label value choices))

def NamedOption.label (o : NamedOption) : String :=
  String.intercalate "/" o.names

/-- The last name of an option, under which its values are kept. -/
def NamedOption.key (o : NamedOption) : String :=
  o.names.getLast?.getD ""

def valueRefused (o : NamedOption) (value : String) : Ending :=
  .wrong ("argument " ++ o.label ++ ": ignored explicit argument " ++ value.quotedText)

namespace Positional

/-- How many arguments the positional one takes from the front. -/
def count (p : Positional) (items : List (String × Mark)) : Option Nat :=
  -- Two dashes in front of an argument or right behind it are taken with it.
  let dashes := (items.takeWhile fun i => i.2 = .dashes).length
  let rest := items.drop dashes
  let isPlain : Bool := match rest with
    | (_, .plain) :: _ => true
    | _ => false
  match p.arity with
  | .rest => if isPlain then some items.length else none
  | .one =>
    if isPlain then
      some (dashes + 1 + ((rest.drop 1).takeWhile fun i => i.2 = .dashes).length)
    else none
  | .optional =>
    if isPlain then
      some (dashes + 1 + ((rest.drop 1).takeWhile fun i => i.2 = .dashes).length)
    else some dashes

/-- The arguments that are left of those it took: two dashes are dropped once, except in
    the rest of a command line. -/
def values (p : Positional) (taken : List String) : Except Ending (List String) := do
  let values := if p.arity = .rest then taken else taken.erase "--"
  match values with
  | [] => .ok ()
  | v :: _ => checkChoice p.label v p.choices
  .ok values

end Positional

/-- What is written behind the short option that asks for help, which ends the reading in
    any case: more short options may follow, but no dash, and no equals sign behind one. -/
def clusterEnding (g : Grammar) (o : NamedOption) : List Char → Ending
  | [] => .help
  | '-' :: rest => valueRefused o (String.ofList ('-' :: rest))
  | c :: rest =>
    match g.names.lookup (String.ofList ['-', c]), rest with
    | some o, '=' :: value => valueRefused o (String.ofList value)
    | some o, rest => clusterEnding g o rest
    | none, _ => .help

/-- Take an option with what follows it. -/
def takeOption (o : NamedOption) (value : Option String)
    (rest : List (String × Mark)) (r : Reading) :
    Except Ending (Reading × List (String × Mark)) :=
  let put (v : String) : Reading := { r with options := r.options ++ [(o.key, v)] }
  if o.takesValue then
    match value, rest with
    | some v, rest => do
      checkChoice o.label v o.choices
      .ok (put v, rest)
    | none, (v, .plain) :: rest => do
      checkChoice o.label v o.choices
      .ok (put v, rest)
    | none, _ => .error (.wrong ("argument " ++ o.label ++ ": expected one argument"))
  else
    match value with
    | some v => .error (valueRefused o v)
    | none => if o.asksHelp then .error .help else .ok (put "", rest)

/-- Take the positional argument, if there is one that was not taken yet. Returns how many
    arguments it took. -/
def takePositional (g : Grammar) (items : List (String × Mark)) (r : Reading) :
    Except Ending (Reading × Nat) :=
  match g.positional, r.positional with
  | some p, none =>
    match p.count items with
    | none => .ok (r, 0)
    | some n => do
      let values ← p.values ((items.take n).map (·.1))
      .ok ({ r with positional := some values }, n)
  | _, _ => .ok (r, 0)

def isOption (item : String × Mark) : Bool :=
  match item.2 with
  | .option .. => true
  | .cluster .. => true
  | .unknown => true
  | _ => false

/-- Read on; each round takes at least one argument, so that there need not be more rounds
    than arguments. -/
def readFrom (g : Grammar) : Nat → List (String × Mark) → Reading → Except Ending Reading
  | 0, _, r => .ok r
  | rounds + 1, items, r =>
    match items with
    | (_, .option o _ value) :: rest => do
      let (r, rest) ← takeOption o value rest r
      readFrom g rounds rest r
    | (_, .cluster o more) :: _ => .error (clusterEnding g o more.toList)
    | (s, .unknown) :: rest => readFrom g rounds rest { r with extra := r.extra ++ [s] }
    | items => do
      let (r, n) ← takePositional g items r
      let rest := items.drop n
      -- No option follows, so what the positional argument did not take is left over.
      if !items.any isOption then .ok { r with extra := r.extra ++ rest.map (·.1) }
      else if n != 0 then readFrom g rounds rest r
      else
        let skipped := items.takeWhile fun i => !isOption i
        readFrom g rounds (items.drop skipped.length)
          { r with extra := r.extra ++ skipped.map (·.1) }

def Grammar.read (g : Grammar) (arguments : List String) : Except Ending Reading := do
  let items ← g.marks arguments
  let r ← readFrom g (items.length + 1) items {}
  -- What is missing is only known at the end.
  match g.positional, r.positional with
  | some p, none =>
    if p.arity = .one then
      .error (.wrong ("the following arguments are required: " ++ p.label))
    else .ok r
  | _, _ => .ok r

end ActionEngine.CommandLine
