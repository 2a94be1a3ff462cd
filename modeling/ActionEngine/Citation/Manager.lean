import ActionEngine.Citation.Url
import ActionEngine.Log

/-!
# The citation manager

A search is handed to whatever program has registered the scheme. Nothing is waited
for, and a program that cannot be started is only logged.
-/

namespace ActionEngine.Citation

def logger : String := "inkwell.services.citations"

/-- What became of opening a URL: some program took it or none did, or the attempt
    failed. -/
abbrev Opening := Except Fault Bool

def isOpenFault (f : Fault) : Bool :=
  f.isFileFault || match f with
    | .system .browser _ => true
    | _ => false

/-- Hand a URL over: the remarks on what became of it, and the fault if it is none of those
    that opening is known to end with. -/
def handOver (scheme url : LooseText) (opening : Opening) : Log × Option Fault :=
  let opened := Log.one .debug logger ("Opening citation manager: " ++ url.display)
  match opening with
  | .ok true => (opened, none)
  | .ok false => (opened ++ Log.one .warning logger
      ("No handler registered for " ++ (schemeOr scheme).display ++ ":// URLs"), none)
  | .error fault =>
    if isOpenFault fault then
      (opened ++ Log.one .warning logger
        ("Unable to open citation manager via " ++ url.display ++ ": " ++ fault.text), none)
    else (opened, some fault)

end ActionEngine.Citation
