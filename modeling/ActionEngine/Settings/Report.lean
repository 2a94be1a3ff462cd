import ActionEngine.Settings.Store

/-!
# The settings report

The settings in effect, where they are kept and what overrides them. Of the API key
only the first two and the last two characters are shown, and these only if it has
more than four.
-/

namespace ActionEngine.Settings

/-- A secret with most of its characters masked. -/
def redacted (secret : LooseText) : LooseText :=
  let s := Text.trimCodes secret.codes
  let mask (n : Nat) : List Text.Code := List.replicate n (.char '*')
  if s.length ≤ 4 then .ofCodes (mask s.length)
  else .ofCodes (s.take 2 ++ mask (s.length - 4) ++ s.drop (s.length - 2))

def variableNames (e : Environment) : List String :=
  ((e.values.map (·.1)).filter fun name => "INKWELL_".toList.isPrefixOf name.toList).mergeSort
    fun a b => !(b < a)

/-- The report on settings whose API key is given in masked form. -/
def report (s : Settings) (masked : LooseText) (store : Store) (e : Environment)
    (overrides : Fields) : Value :=
  let texts (names : List LooseText) : Value := .list (names.map .text)
  .record
    [("settings", .record (Fields.put s.fields Field.apiKey.name (.text masked))),
     ("meta", .record
       [("path", .text store.path.text), ("secret_backend", .text Vault.scheme),
        ("cli_overrides", texts ((overrides.map (·.1)).mergeSort fun a b => !(b < a))),
        ("environment_variables", texts ((variableNames e).map .whole))])]

end ActionEngine.Settings
