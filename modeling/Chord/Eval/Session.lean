import Chord.Eval.Stmt

/-!
# Interpreting scripts

The operations of an interpreter: running programs and the actions that they bind.

**Input.** A program, or a hotkey.

**Results.** `evaluate` runs a program; its value is that of the last statement or of the first
`return`. `invoke` runs a bound action in the scope it was bound in, and `trigger` does so with a
failure turned into null.
-/

namespace Chord
namespace Eval

variable {σ : Type}

/-- Runs the statements of a program. -/
def evaluate (setup : Setup σ) (p : Program) (r : Run σ) : Except Stop Value × Run σ :=
  let r := { r with
    machine := r.machine.note .debug
      ("evaluating " ++ toString p.statements.length ++ " statement(s)") }
  let (result, r) :=
    evalBlock setup (enterFrom setup r.machine.depth) .null p.statements r
  (result.map Flow.value, r)

/-- Runs one statement. -/
def evaluateStatement (setup : Setup σ) (s : Stmt) (r : Run σ) : Except Stop Value × Run σ :=
  let (result, r) := evalStmt setup (enterFrom setup r.machine.depth) s r
  (result.map Flow.value, r)

/-- The value of one expression. -/
def evaluateExpression (setup : Setup σ) (e : Expr) (r : Run σ) : Except Stop Value × Run σ :=
  valueOf setup (enterFrom setup r.machine.depth) e r

end Eval

namespace Machine

open Eval

variable {σ : Type}

/-- Runs the action bound to a hotkey, if there is one. Every run starts from the scope that the
binding captured. -/
def invoke (setup : Setup σ) (hotkey : String) (m : Machine σ) :
    Option (Except Stop Value) × Machine σ :=
  let key := normalize hotkey
  match m.bindings.get? key with
  | none => (none, m.note .warn ("no interpreted binding for " ++ key))
  | some b =>
      let m := m.note .debug ("triggering " ++ key ++ " (bound as " ++ b.source ++ ")")
      let (result, r) := evaluateStatement setup b.action ⟨b.scope, { m with depth := 0 }⟩
      (some result, r.machine)

/-- Runs the action bound to a hotkey. A fault is noted, and the value is null. -/
def trigger (setup : Setup σ) (hotkey : String) (m : Machine σ) :
    Option (Except Stop Value) × Machine σ :=
  match m.invoke setup hotkey with
  | (some (.error (.fault cause)), m) =>
      (some (.ok .null),
        m.note .error ("hotkey " ++ normalize hotkey ++ " failed: " ++ cause.message))
  | outcome => outcome

/-- Removes a binding; tells whether there was one. -/
def unbind (host : Host σ) (hotkey : String) (m : Machine σ) : Bool × Machine σ :=
  let key := normalize hotkey
  if m.bindings.contains key then
    let m := m.note .info ("unbound " ++ key)
    (true, { m with host := host.unregister key m.host, bindings := m.bindings.erase key })
  else (false, m)

/-- Whether a hotkey is bound. -/
def isBound (hotkey : String) (m : Machine σ) : Bool :=
  m.bindings.contains (normalize hotkey)

/-- The canonical hotkeys bound, ascending. -/
def boundKeys (m : Machine σ) : List String :=
  m.bindings.keys

end Machine

end Chord
