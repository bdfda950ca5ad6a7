import Chord.Desk
import Chord.Eval.Scope
import Chord.Hotkey

/-!
# The interpreter's state

**Input.** A host, a registry and bounds.

**Results.** A `Machine` has a desk, the bindings made so far and the number of open calls.
`Machine.bind` stores an action with the scope of its statement.
-/

namespace Chord

/-- An action with the scope in which it was bound. -/
structure Binding where
  /-- The hotkey as it was written. -/
  source : String
  action : Stmt
  scope : Scope

/-- The state of an interpreter. -/
structure Machine (σ : Type) extends Desk σ where
  /-- Actions by canonical hotkey. -/
  bindings : Table Binding := .empty
  /-- How many calls of declared functions are open. -/
  depth : Nat := 0

namespace Machine

variable {σ : Type}

/-- Adds a note to the journal. -/
def note (m : Machine σ) (level : Level) (text : String) : Machine σ :=
  { m with toDesk := m.toDesk.note level text }

/-- Calls a built-in function. -/
def call (b : Builtin σ) (args : List Value) : Act (Machine σ) Value := do
  let m ← get
  let (result, desk) := m.toDesk.call b args
  set { m with toDesk := desk }
  Act.ofExcept result

/-- Binds an action in place of an earlier one and announces the hotkey. -/
def bind (host : Host σ) (hotkey : String) (action : Stmt) (scope : Scope) (m : Machine σ) :
    Machine σ :=
  let key := normalize hotkey
  let remark :=
    if m.bindings.contains key then "rebound " ++ key ++ " (previous action replaced)"
    else "bound " ++ key
  let m := m.note .info remark
  { m with
    host := host.register key m.host
    bindings := m.bindings.insert key ⟨hotkey, action, scope⟩ }

end Machine

end Chord
