import ActionEngine.Disk.Path
import ActionEngine.Text.Letters

/-!
# The environment

The variables that a process was started with, and the home directory of its user.
-/

namespace ActionEngine

/-- The environment of a process. -/
structure Environment where
  values : List (String × String) := []
  home : Path := {}
deriving DecidableEq, Repr, Inhabited

namespace Environment

def get? (e : Environment) (name : String) : Option String :=
  e.values.lookup name

/-- The value of a variable that is set to something. -/
def nonempty? (e : Environment) (name : String) : Option String :=
  (e.get? name).filter (· != "")

def trueWords : List String := ["1", "true", "yes", "on", "debug"]

def falseWords : List String := ["0", "false", "no", "off", "disabled"]

def isTrue (s : String) : Bool :=
  trueWords.contains (Text.keyword s)

def flag (e : Environment) (name : String) : Bool :=
  (e.get? name).any isTrue

def userDirectory (e : Environment) : Path :=
  e.home.child ".inkwell"

end Environment

end ActionEngine
