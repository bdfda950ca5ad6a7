import Chord.Native.Code
import Chord.Native.Frame
import Chord.Library.Registry

/-!
# Lowering actions

**Input.** A registry and a statement.

**Algorithm.** Names are looked up once, in the whole action, also where it never runs. A name that
some assignment of the action sets is a slot; whether it has a value is known only when it is read,
so such a read carries the call of the function with that name, or the failure, as a fallback.

**Results.** `compile` gives an action or says why there is none: a name that stands for nothing, a
wrong number of arguments, or something that compiled actions cannot do.
-/

namespace Chord

/-- What compiled actions cannot do. -/
inductive Unsupported where
  | binding
  | function (name : String)
  | tooManyArguments (callee : String)
deriving DecidableEq, Repr

/-- The wording of what compiled actions cannot do. -/
def Unsupported.describe : Unsupported → String
  | .binding => "hotkey binding inside an action"
  | .function name => "function declaration '" ++ name ++ "'"
  | .tooManyArguments callee =>
      "call to " ++ callee ++ " with more than " ++ toString Native.maxCallArgs ++ " arguments"

/-- Why an action cannot be compiled. -/
inductive CompileError where
  /-- A name cannot be resolved; the interpreter would fail with this fault. -/
  | resolution (cause : Fault)
  | unsupported (what : Unsupported)
deriving DecidableEq, Repr

/-- The wording of a compile error. -/
def CompileError.message : CompileError → String
  | .resolution cause => cause.message
  | .unsupported what => "unsupported in compiled actions: " ++ what.describe

mutual

/-- The names that assignments of a statement set, functions and bindings inside it aside. -/
def Stmt.assigned : Stmt → List String
  | .assign name _ => [name]
  | .block body => Stmt.assignedAll body
  | .branch _ consequence (some alternative) => consequence.assigned ++ alternative.assigned
  | .branch _ consequence none => consequence.assigned
  | .loop _ body => body.assigned
  | _ => []

/-- The names that assignments of statements set. -/
def Stmt.assignedAll : List Stmt → List String
  | [] => []
  | s :: rest => s.assigned ++ Stmt.assignedAll rest

end

/-- The variables of an action, each once, in the order of their first assignment. -/
def Stmt.letNames (s : Stmt) : List String :=
  s.assigned.eraseDups

namespace Native

/-- Constants and failures collected so far. -/
structure Pools where
  constants : Array Value := #[]
  failures : Array Fault := #[]

/-- A step of lowering. -/
abbrev Lower (α : Type) : Type := StateT Pools (Except CompileError) α

/-- Stops with a name that cannot be resolved. -/
def unresolved {α : Type} (cause : Fault) : Lower α :=
  throw (.resolution cause)

/-- Goes on with a result, or stops with its fault. -/
def resolved {α : Type} : Except Fault α → Lower α
  | .ok a => pure a
  | .error cause => unresolved cause

/-- A constant with a place of its own in the pool. -/
def constant (v : Value) : Lower Code := do
  let pools ← get
  set { pools with constants := pools.constants.push v }
  return .const pools.constants.size

/-- An unconditional failure. -/
def raising (cause : Fault) : Lower Code := do
  let pools ← get
  set { pools with failures := pools.failures.push cause }
  return .raise pools.failures.size

variable {σ : Type}

/-- A call with the right number of arguments, which must not be too many. -/
def lowerCall (b : Builtin σ) (args : List Code) : Lower Code :=
  if args.length != b.arity then unresolved (b.mismatch args.length)
  else if maxCallArgs < args.length then
    throw (.unsupported (.tooManyArguments b.qualifiedName))
  else pure (.call b.id args)

variable (registry : Registry σ) (names : List String)

/-- A call without arguments of what an expression names. -/
def lowerBare (callee : Expr) : Lower Code := do
  let b ← resolved (registry.resolve callee)
  lowerCall b []

/-- What a read of a variable does while it has no value: the call of the function with its name,
or the fault of that call. -/
def fallback (name : String) : Lower Code :=
  match registry.resolve (.identifier name) with
  | .error cause => raising cause
  | .ok b => if b.arity == 0 then pure (.call b.id []) else raising (b.mismatch 0)

/-- A stage that is a bare name. One without parameters ignores the value. -/
def lowerPipeBare (stage : Expr) (input : Code) : Lower Code := do
  let b ← resolved (registry.resolve stage)
  if b.arity == 0 then
    let call ← lowerCall b []
    return .seq input call
  else lowerCall b [input]

mutual

/-- The code of an expression. -/
def lowerExpr : Expr → Lower Code
  | .number x => constant (.ofNumber x)
  | .string s => constant (.string s)
  | .hotkey text => constant (.string text)
  | .identifier name =>
      match names.idxOf? name with
      | some slot => do
          let fallback ← fallback registry name
          return .read slot fallback
      | none => lowerBare registry (.identifier name)
  | .member object property => lowerBare registry (.member object property)
  | .binary left op right => do
      let l ← lowerExpr left
      let r ← lowerExpr right
      match op with
      | .and => return .both l r
      | .or => return .either l r
      | op => return .binary op l r
  | .call callee args => do
      let b ← resolved (registry.resolve callee)
      let codes ← lowerArgs args
      lowerCall b codes
  | .pipeline [] => pure .null
  | .pipeline (first :: rest) => do
      let code ← lowerExpr first
      lowerStages code rest

/-- The code of arguments. -/
def lowerArgs : List Expr → Lower (List Code)
  | [] => pure []
  | e :: es => do
      let code ← lowerExpr e
      let codes ← lowerArgs es
      return code :: codes

/-- The code of the stages after the first one. -/
def lowerStages (input : Code) : List Expr → Lower Code
  | [] => pure input
  | .call callee args :: rest => do
      let b ← resolved (registry.resolve callee)
      let codes ← lowerArgs args
      let code ← lowerCall b (input :: codes)
      lowerStages code rest
  | .identifier name :: rest => do
      let code ← lowerPipeBare registry (.identifier name) input
      lowerStages code rest
  | .member object property :: rest => do
      let code ← lowerPipeBare registry (.member object property) input
      lowerStages code rest
  | other :: _ => unresolved (.invalidStage other.text)

end

/-- The code of an expression that may be missing; then it is null. -/
def lowerExpr? : Option Expr → Lower Code
  | some e => lowerExpr registry names e
  | none => pure .null

mutual

/-- The code of a statement. -/
def lowerStmt : Stmt → Lower Code
  | .bind _ _ _ => throw (.unsupported .binding)
  | .function name _ _ => throw (.unsupported (.function name))
  | .block body => lowerBlock body
  | .expr e => lowerExpr registry names e
  | .assign name e => do
      let value ← lowerExpr? registry names e
      return .write (names.idxOf name) value
  | .branch condition consequence alternative => do
      let c ← lowerExpr registry names condition
      let t ← lowerStmt consequence
      match alternative with
      | some alternative => do
          let e ← lowerStmt alternative
          return .branch c t e
      | none => return .branch c t .null
  | .loop condition body => do
      let c ← lowerExpr registry names condition
      let b ← lowerStmt body
      return .loop c b
  | .leave e => do
      let value ← lowerExpr? registry names e
      return .leave value

/-- The code of statements in order. -/
def lowerBlock : List Stmt → Lower Code
  | [] => pure .null
  | [s] => lowerStmt s
  | s :: next :: rest => do
      let first ← lowerStmt s
      let second ← lowerBlock (next :: rest)
      return .seq first second

end

/-- Compiles a statement. -/
def compile (s : Stmt) : Except CompileError Action := do
  let names := s.letNames
  let (code, pools) ← (lowerStmt registry names s).run {}
  return { code, slots := names.length, constants := pools.constants, failures := pools.failures }

/-- The note about an action that was compiled. -/
def Action.note (a : Action) : Note :=
  ⟨.debug, "lowered action with " ++ toString a.slots ++ " variable(s), "
    ++ toString a.constants.size ++ " constant(s)"⟩

end Native
end Chord
