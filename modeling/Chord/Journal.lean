/-!
# The journal

Remarks that the program makes about its own work.

**Input.** Nothing.

**Results.** A `Note` has a level and a text; a journal is an array of them, oldest first.
-/

namespace Chord

/-- How much a note matters. -/
inductive Level where
  | error
  | warn
  | info
  | debug
deriving DecidableEq, Repr

/-- The name of a level. -/
def Level.name : Level → String
  | .error => "ERROR"
  | .warn => "WARN"
  | .info => "INFO"
  | .debug => "DEBUG"

/-- A remark. -/
structure Note where
  level : Level
  text : String
deriving DecidableEq, Repr

/-- A note with its level in front. -/
def Note.describe (n : Note) : String :=
  n.level.name ++ " " ++ n.text

end Chord
