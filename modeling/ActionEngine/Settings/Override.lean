import ActionEngine.Environment
import ActionEngine.Json.Reader
import ActionEngine.Number.Coercion
import ActionEngine.Settings.Field

/-!
# Overrides

Settings can be overridden on the command line, by entries of the form `NAME=VALUE`,
and by variables of the environment. An entry that cannot be read is an error; a
variable that holds no number where one is needed is reported and passed over.
-/

namespace ActionEngine.Settings

inductive Problem where
  | noValue (entry : String)
  | noName
  | unknownField (name : String)
  | noRecord
  | noSwitch (value : String)
deriving DecidableEq, Repr

def Problem.message : Problem → String
  | noValue entry => "Override '" ++ entry ++ "' must use KEY=VALUE syntax."
  | noName => "Override is missing a field name."
  | unknownField name => "Unknown setting '" ++ name ++ "'."
  | noRecord => "Dict overrides must be valid JSON objects"
  | noSwitch value => "Cannot coerce '" ++ value ++ "' to a boolean."

def Problem.fault (p : Problem) : Fault := .value p.message

def readSwitch (s : String) : Except Fault Value :=
  if Environment.isTrue s then .ok (.bool true)
  else if Environment.falseWords.contains (Text.keyword s) then .ok (.bool false)
  else .error (Problem.noSwitch s).fault

/-- A record whose values are texts. -/
def readRecord (s : String) : Except Fault Value :=
  match Json.parse (if s == "" then "\x7b\x7d" else s) with
  | .ok (.record fields) => .ok (.record (fields.map fun f => (f.1, .text f.2.toText)))
  | .ok _ => .error Problem.noRecord.fault
  | .error f => match f.problem with
    | .longInteger _ => .error (.value f.message)
    | _ => .error Problem.noRecord.fault

/-- The value of a field of some form that a text gives. -/
def Form.read (form : Form) (s : String) : Except Fault Value :=
  match form with
  | .text => .ok (.text s)
  | .optionalText =>
    .ok (if ["none", "null"].contains (Text.keyword s) then .null else .text s)
  | .integer => (Value.text s).toInt.map .int
  | .decimal => (Value.text s).toFloat.map .float
  | .switch => readSwitch s
  | .record => readRecord s

def readEntry (entry : String) : Except Fault (Field × Value) :=
  -- Only the first equals sign separates; the value may hold others.
  let isName (c : Char) : Bool := c != '='
  let name := String.ofList (Text.trim (entry.toList.takeWhile isName))
  match entry.toList.dropWhile isName with
  | [] => .error (Problem.noValue entry).fault
  | _ :: rest =>
    if name == "" then .error Problem.noName.fault
    else match Field.ofName? name with
      | none => .error (Problem.unknownField name).fault
      | some field => do .ok (field, ← field.form.read (String.ofList (Text.trim rest)))

/-- The fields that the entries of a command line set, each at the place of its first
    entry with the value of the last one. -/
def readEntries (entries : List String) : Except Fault Fields :=
  entries.foldlM (fun fields entry => do
    let (field, v) ← readEntry entry
    .ok (Fields.put fields field.name v)) []

/-! ### The environment -/

def logger : String := "inkwell.services.settings"

/-- The variables that set fields, in the order in which they are looked at. -/
def fieldVariables : List (String × Field) :=
  [("INKWELL_API_KEY", .apiKey), ("INKWELL_BASE_URL", .baseUrl), ("INKWELL_MODEL", .model),
   ("INKWELL_ORGANIZATION", .organization), ("INKWELL_ACTIONS_PATH", .actionsPath),
   ("INKWELL_CITATION_SCHEME", .citationScheme), ("INKWELL_DEBUG_LOGGING", .debugLogging),
   ("INKWELL_MAX_RETRIES", .maxRetries), ("INKWELL_MIN_RESPONSE_TOKENS", .minimumReply),
   ("INKWELL_STREAM_MAX_TOKENS", .streamBudget), ("INKWELL_REQUEST_TIMEOUT", .requestTimeout),
   ("INKWELL_TEMPERATURE", .temperature)]

/-- The value that a variable gives to a field, if any. Every text is one, and every text
    that does not switch something on switches it off. -/
def variableValue? (field : Field) (s : String) : Option Value :=
  match field.form with
  | .integer => ((Value.text s).toInt.map Value.int).toOption
  | .decimal => ((Value.text s).toFloat.map Value.float).toOption
  | .switch => some (.bool (Environment.isTrue s))
  | _ => some (.text s)

def environmentFields (e : Environment) : Fields :=
  fieldVariables.filterMap fun v => do
    let s ← e.get? v.1
    let value ← variableValue? v.2 s
    some (.whole v.2.name, value)

def environmentRemarks (e : Environment) : Log :=
  fieldVariables.filterMap fun v => do
    let s ← e.get? v.1
    if (variableValue? v.2 s).isSome then none
    else some ⟨.warning, logger, "Environment override " ++ v.1 ++ "=" ++ s ++ " is not a valid " ++
      if v.2.form = .integer then "integer" else "float"⟩

end ActionEngine.Settings
