/-!
# Execution modes

**Input.** Names.

**Results.** The three ways of running scripts and their names.
-/

namespace Chord

/-- How actions are executed. -/
inductive Mode where
  /-- Statements are evaluated one by one. -/
  | interpreter
  /-- Actions are compiled when they are bound. -/
  | jit
  /-- Actions are compiled and can be bundled into a file. -/
  | aheadOfTime
deriving DecidableEq, Repr, Inhabited

namespace Mode

/-- All modes. -/
def all : List Mode := [.interpreter, .jit, .aheadOfTime]

/-- The name of a mode. -/
def name : Mode → String
  | .interpreter => "interpreter"
  | .jit => "jit"
  | .aheadOfTime => "ahead-of-time"

/-- The mode with a name. -/
def ofName? (name : String) : Option Mode :=
  all.find? (·.name == name)

/-- The mode in which scripts run unless another one is asked for. -/
def standard : Mode := .interpreter

/-- Whether actions run as they are. -/
def isInterpreter : Mode → Bool
  | .interpreter => true
  | _ => false

end Mode

end Chord
