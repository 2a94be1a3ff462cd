import ActionEngine.Json.Printer
import ActionEngine.Secret.Vault
import ActionEngine.Settings.Override

/-!
# The settings file

Settings are kept in a file, with the API key in encrypted form only. Loading reads
the file, brings it to its present form if that is needed, and then applies the
overrides of the command line and of the environment, which are never written.
-/

namespace ActionEngine.Settings

open Keeping

/-- Where settings are kept: their own file and the one of the vault's key. -/
structure Store where
  path : Path
  keyPath : Path
deriving DecidableEq, Repr

def version : Int := 1

/-- The field of the file that holds the encrypted key. -/
def cipherField : String := "api_key_ciphertext"

def note (level : Log.Level) (message : String) : Keeping Unit :=
  remark (Log.one level logger message)

/-- Apply overrides: unknown names and null values are passed over. -/
def overridden (s : Settings) (overrides : Fields) : Settings × List LooseText :=
  -- A null means that nothing was said, not that the field is to be emptied.
  let counted := overrides.filter fun f =>
    (Field.ofName? f.1).isSome && !f.2.isNull
  (s.setNamed counted, counted.map (·.1))

/-- Apply overrides from a source, and note which fields they set. -/
def override (source : String) (s : Settings) (overrides : Fields) : Keeping Settings := do
  let (s, names) := s.overridden overrides
  if !names.isEmpty then
    -- The names alone: values may be secret.
    note .debug ("Applying " ++ source ++ " settings overrides: " ++
      (Value.list ((names.mergeSort fun a b => !(b < a)).map .text)).shown)
  return s

namespace Store

/-- The default place of the settings. -/
def defaultPath (e : Environment) : Path :=
  e.userDirectory.child "settings.json"

/-- The store at a path; the vault's key stands beside it. -/
def ofPath (path : Path) : Except Fault Store :=
  (path.withSuffix ".key").map fun keyPath => { path, keyPath }

/-! ### Saving -/

def toRecord (store : Store) (s : Settings) : Keeping Fields := do
  let fields := Fields.drop s.fields Field.apiKey.name
  let key := s.get .apiKey
  -- A settings file without a key holds no cipher field at all.
  let cipher : Fields ← if key.isPresent then
      pure [(cipherField, .text (← Vault.encrypt store.keyPath key))]
    else pure []
  let stamp : Fields := [("version", .int version)]
  return fields ++ cipher ++ stamp

def save (store : Store) (s : Settings) : Keeping Unit := do
  let fields ← store.toRecord s
  -- The whole text is there before the disk is touched.
  match Json.render ⟨true, true, true⟩ (.record fields) with
  | .error refusal => throw refusal.fault
  | .ok body =>
    alter fun d => d.ensureDirectory store.path.parent
    Vault.replaceFile store.path (Text.utf8Encode body.toList)
    note .debug ("Settings saved to " ++ store.path.text)

/-! ### Loading -/

/-- The fields of the file. A file that is missing or is no record has none. -/
def read (store : Store) : Keeping Fields := do
  if !(← look fun d => d.has store.path) then return []
  let text ← look fun d => d.readText store.path
  match Json.parse text with
  | .ok (.record fields) => return fields
  | .ok _ =>
    note .warning ("Settings file " ++ store.path.text ++ " does not contain an object")
    return []
  | .error fault =>
    match fault.problem with
    | .longInteger _ => throw (.value fault.message)
    | _ =>
      note .warning ("Settings file " ++ store.path.text ++ " is not valid JSON: " ++ fault.message)
      return []

/-- The API key of a file, and whether it still stands there in plain form. A key that
    cannot be decrypted counts as missing. -/
def apiKey (store : Store) (cipher plain : Value) : Keeping (Value × Bool) := do
  if cipher.isPresent then
    try
      let key ← Vault.decrypt store.keyPath cipher
      return (.text key, false)
    catch fault =>
      -- Whatever is wrong with the token or with the key. A disk that fails is not passed over.
      if fault.isValueFault then
        note .warning ("Unable to decrypt API key: " ++ fault.text)
        return (.text "", false)
      else throw fault
  else if plain.isPresent then
    note .info "Detected plaintext API key; migrating to encrypted storage."
    return (plain, true)
  else return (.text "", false)

/-- The settings that the fields of a file give, beside its API key. -/
def ofRecord (fields : Fields) (key : Value) : Settings :=
  let s := initial.setNamed (Fields.drop fields Field.apiKey.name)
  if key.isPresent then s.set .apiKey key else s

/-- The fields of a file are not in the present form. A file that holds nothing beside
    the key is left as it is. -/
def isOutdated (fields : Fields) : Bool :=
  let rest := Fields.drop (Fields.drop fields cipherField) Field.apiKey.name
  !rest.isEmpty && !((Fields.get? rest "version").getD .null).equalsInt version

/-- Write settings in the present form. A file that cannot be written stays as it is. -/
def migrate (store : Store) (s : Settings) : Keeping Unit := do
  try store.save s
  catch fault =>
    if fault.isFileFault then note .warning ("Failed to migrate settings payload: " ++ fault.text)
    else throw fault

/-- The settings of the file alone. -/
def loadFile (store : Store) : Keeping Settings := do
  let fields ← store.read
  if fields.isEmpty then return initial
  let field (name : String) : Value := (Fields.get? fields name).getD .null
  let (key, plaintext) ← store.apiKey (field cipherField) (field Field.apiKey.name)
  let s := ofRecord fields key
  if plaintext || isOutdated fields then store.migrate s
  return s

/-- Load the settings: a later layer goes before an earlier one. -/
def load (store : Store) (e : Environment) (overrides : Fields) : Keeping Settings := do
  let s ← store.loadFile
  let s ← override "CLI" s overrides
  -- The environment comes last, so it goes before the command line.
  remark (environmentRemarks e)
  override "environment" s (environmentFields e)

/-- Load the settings, or take the defaults if that is not possible. -/
def loadOrDefault (store : Store) (e : Environment) (overrides : Fields) : Keeping Settings := do
  try store.load e overrides
  catch fault =>
    if fault.isFileFault || fault.isValueFault then
      remark (Log.one .warning "inkwell.app"
        ("Failed to load settings from " ++ store.path.text ++ ": " ++ fault.text))
      return initial
    else throw fault

end Store

end ActionEngine.Settings
