import Chord.Eval.Machine
import Chord.Value.Arithmetic

/-!
# Evaluating expressions

**Input.** An expression, a scope and the state of an interpreter.

**Algorithm.** The recursion follows the expression. What a call of a declared function does is a
parameter, because its body is no part of the expression.

**Results.** `evalExpr` gives a value or stops. The scope is only read: no expression, whatever
functions it calls, changes the variables of the script.
-/

namespace Chord
namespace Eval

variable {σ : Type}

/-- Something that can be called. -/
inductive Callable (σ : Type) where
  | builtin (b : Builtin σ)
  | user (f : Function)

/-- The number of arguments that something takes. -/
def Callable.arity : Callable σ → Nat
  | .builtin b => b.arity
  | .user f => f.params.length

/-- What an expression names: a declared function, or else a built-in one. -/
def resolve (registry : Registry σ) (scope : Scope) (callee : Expr) : Except Fault (Callable σ) :=
  match callee with
  | .identifier name =>
      match scope.function? name with
      | some f => .ok (.user f)
      | none => (registry.resolve callee).map .builtin
  | _ => (registry.resolve callee).map .builtin

/-- Runs a declared function on arguments in the scope of its caller. -/
abbrev Enter (σ : Type) : Type := Function → List Value → Scope → Act (Machine σ) Value

variable (registry : Registry σ) (enter : Enter σ)

/-- Calls something. The number of arguments is checked first. -/
def call (c : Callable σ) (args : List Value) (scope : Scope) : Act (Machine σ) Value :=
  match c with
  | .builtin b => Machine.call b args
  | .user f =>
      if args.length == f.params.length then enter f args scope
      else Act.fault (.arityMismatch f.name f.params.length args.length)

/-- Calls what an expression names without arguments. -/
def callBare (callee : Expr) (scope : Scope) : Act (Machine σ) Value := do
  let c ← Act.ofExcept (resolve registry scope callee)
  call enter c [] scope

/-- Hands a value to a stage that is a bare name. One without parameters ignores the value. -/
def pipeBare (stage : Expr) (input : Value) (scope : Scope) : Act (Machine σ) Value := do
  let c ← Act.ofExcept (resolve registry scope stage)
  call enter c (if c.arity == 0 then [] else [input]) scope

mutual

/-- The value of an expression. A name that is no variable is called without arguments. -/
def evalExpr (scope : Scope) : Expr → Act (Machine σ) Value
  | .identifier name =>
      match scope.get? name with
      | some value => pure value
      | none => callBare registry enter (.identifier name) scope
  | .number x => pure (.ofNumber x)
  | .string s => pure (.string s)
  | .hotkey text => pure (.string text)
  | .binary left op right =>
      match op with
      | .and => do
          let l ← evalExpr scope left
          if l.asBool then
            let r ← evalExpr scope right
            return .boolean r.asBool
          else return .boolean false
      | .or => do
          let l ← evalExpr scope left
          if l.asBool then return .boolean true
          else
            let r ← evalExpr scope right
            return .boolean r.asBool
      | op => do
          let l ← evalExpr scope left
          let r ← evalExpr scope right
          Act.ofExcept (applyBinOp op l r)
  | .call callee args => do
      let c ← Act.ofExcept (resolve registry scope callee)
      let values ← evalArgs scope args
      call enter c values scope
  | .member object property => callBare registry enter (.member object property) scope
  | .pipeline [] => pure .null
  | .pipeline (first :: rest) => do
      let value ← evalExpr scope first
      evalStages scope value rest

/-- The values of arguments, from left to right. -/
def evalArgs (scope : Scope) : List Expr → Act (Machine σ) (List Value)
  | [] => pure []
  | e :: es => do
      let value ← evalExpr scope e
      let values ← evalArgs scope es
      return value :: values

/-- Hands a value through the stages of a pipeline, as the first argument of each. -/
def evalStages (scope : Scope) (input : Value) : List Expr → Act (Machine σ) Value
  | [] => pure input
  | .call callee args :: rest => do
      let c ← Act.ofExcept (resolve registry scope callee)
      let values ← evalArgs scope args
      let value ← call enter c (input :: values) scope
      evalStages scope value rest
  | .identifier name :: rest => do
      let value ← pipeBare registry enter (.identifier name) input scope
      evalStages scope value rest
  | .member object property :: rest => do
      let value ← pipeBare registry enter (.member object property) input scope
      evalStages scope value rest
  | other :: _ => Act.fault (.invalidStage other.text)

end

attribute [simp] evalExpr evalArgs evalStages

end Eval
end Chord
