/-!
# Faults

What can go wrong while an action runs.

**Input.** Nothing.

**Results.** A `Fault` names the cause; `Fault.message` is its wording.
-/

namespace Chord

/-- The causes of a failing action. -/
inductive Fault where
  /-- A name that is neither a variable nor a function. -/
  | unknownIdentifier (name : String)
  /-- A function that an existing module does not have. -/
  | unknownFunction (module function : String)
  | unknownModule (name : String)
  /-- A stage of a pipeline that cannot be called. -/
  | invalidStage (stage : String)
  | divisionByZero
  | arityMismatch (function : String) (expected found : Nat)
  | callDepthExceeded (limit : Nat)
  /-- A failure of the desktop. -/
  | host (reason : String)
deriving DecidableEq, Repr

/-- The wording of a fault. -/
def Fault.message : Fault → String
  | .unknownIdentifier name => "unknown identifier '" ++ name ++ "'"
  | .unknownFunction module function => "unknown function '" ++ module ++ "." ++ function ++ "'"
  | .unknownModule name => "unknown module '" ++ name ++ "'"
  | .invalidStage stage => "invalid pipeline stage: " ++ stage
  | .divisionByZero => "division by zero"
  | .arityMismatch function expected found =>
      "'" ++ function ++ "' expects " ++ toString expected ++ " argument(s), found "
        ++ toString found
  | .callDepthExceeded limit => "maximum call depth of " ++ toString limit ++ " exceeded"
  | .host reason => "host error: " ++ reason

end Chord
