import ActionEngine.Environment
import ActionEngine.Log

/-!
# Levels of the journal

A level is a number; some of them have names, and a variable of the environment may
name the level that counts.
-/

namespace ActionEngine.Journal

def levelNames : List (String × Int) :=
  [("CRITICAL", 50), ("FATAL", 50), ("ERROR", 40), ("WARN", 30), ("WARNING", 30), ("INFO", 20),
   ("DEBUG", 10), ("NOTSET", 0)]

/-- How a level is written in a line. -/
def levelName (level : Int) : String :=
  match level with
  | 50 => "CRITICAL"
  | 40 => "ERROR"
  | 30 => "WARNING"
  | 20 => "INFO"
  | 10 => "DEBUG"
  | 0 => "NOTSET"
  | n => "Level " ++ toString n

/-- The level that the environment names, or the default one. -/
def levelFor (e : Environment) (default : Int) : Int :=
  let name := (e.get? "INKWELL_LOG_LEVEL").getD ""
  (levelNames.lookup (String.ofList ((Text.trim name.toList).map Text.upperAscii))).getD default

end ActionEngine.Journal
