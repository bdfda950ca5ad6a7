import Chord.Eval.Expr

/-!
# Evaluating statements

**Input.** A statement, a scope and the state of an interpreter.

**Algorithm.** The recursion follows the statement, with a bound on the repetitions of each loop.
Calls of declared functions are a recursion of their own on the number of calls that may still be
opened, so that every run without loops ends.

**Results.** `evalStmt` gives a `Flow`: the value of the statement, or the value with which the
function or action is left. The scope is part of the state and is kept when a statement fails.
-/

namespace Chord
namespace Eval

/-- How a statement ends. -/
inductive Flow where
  | normal (value : Value)
  /-- The function or action is left with a value. -/
  | left (value : Value)
deriving DecidableEq, Repr

/-- The value, whichever way the statement ended. -/
def Flow.value : Flow → Value
  | .normal v => v
  | .left v => v

variable {σ : Type}

/-- The state of a running statement. -/
structure Run (σ : Type) where
  scope : Scope
  machine : Machine σ

/-- Evaluates something that only reads the scope. -/
def reading {α : Type} (act : Scope → Act (Machine σ) α) : Act (Run σ) α :=
  fun r =>
    let (result, machine) := act r.scope r.machine
    (result, { r with machine })

/-- Changes the scope. -/
def rescope (f : Scope → Scope) : Act (Run σ) Unit :=
  modify fun r => { r with scope := f r.scope }

variable (setup : Setup σ) (enter : Enter σ)

/-- The value of an expression in the current scope. -/
def valueOf (e : Expr) : Act (Run σ) Value :=
  reading fun scope => evalExpr setup.registry enter scope e

/-- The value of an expression that may be missing; then it is null. -/
def valueOf? (e : Option Expr) : Act (Run σ) Value :=
  match e with
  | some e => valueOf setup enter e
  | none => pure .null

/-- The text of a binding's hotkey; anything but a literal is evaluated. -/
def hotkeyOf (hotkey : Expr) : Act (Run σ) String :=
  match hotkey with
  | .hotkey text => pure text
  | .string text => pure text
  | e => do
      let value ← valueOf setup enter e
      return value.asString

mutual

/-- Runs a statement. -/
def evalStmt : Stmt → Act (Run σ) Flow
  | .bind hotkey action _ => do
      let text ← hotkeyOf setup enter hotkey
      modify fun r => { r with machine := r.machine.bind setup.host text action r.scope }
      return .normal .null
  | .block body => evalBlock .null body
  | .expr e => do
      let value ← valueOf setup enter e
      return .normal value
  | .assign name e => do
      let value ← valueOf? setup enter e
      rescope (·.set name value)
      return .normal value
  | .branch condition consequence alternative => do
      let value ← valueOf setup enter condition
      if value.asBool then evalStmt consequence
      else
        match alternative with
        | some alternative => evalStmt alternative
        | none => return .normal .null
  | .loop condition body =>
      Act.repeatUntil
        (do
          let value ← valueOf setup enter condition
          if value.asBool then
            match ← evalStmt body with
            | .left v => return some (.left v)
            | .normal _ => return none
          else return some (.normal .null) : Act (Run σ) (Option Flow))
        setup.limits.loops
  | .leave e => do
      let value ← valueOf? setup enter e
      return .left value
  | .function name params body => do
      rescope (·.define ⟨name, params, body⟩)
      return .normal .null

/-- Runs statements in order. The value is that of the last one. -/
def evalBlock (last : Value) : List Stmt → Act (Run σ) Flow
  | [] => return .normal last
  | s :: rest => do
      match ← evalStmt s with
      | .normal value => evalBlock value rest
      | .left value => return .left value

end

attribute [simp] evalStmt evalBlock

/-- Runs a declared function when `room` more calls may be opened. It works on a copy of the
caller's scope. -/
def enterWith (setup : Setup σ) : Nat → Enter σ
  | 0 => fun _ _ _ => Act.fault (.callDepthExceeded setup.limits.calls)
  | room + 1 => fun f args scope machine =>
      let start : Run σ := ⟨scope.enter f.params args, { machine with depth := machine.depth + 1 }⟩
      let (result, r) := evalStmt setup (enterWith setup room) f.body start
      (result.map Flow.value, { r.machine with depth := r.machine.depth - 1 })

/-- Runs a declared function as far as the bound on open calls allows. -/
def enterFrom (setup : Setup σ) (depth : Nat) : Enter σ :=
  enterWith setup (setup.limits.calls - depth)

end Eval
end Chord
