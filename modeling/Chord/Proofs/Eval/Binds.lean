import Chord.Proofs.Eval.Act

/-!
# What a run binds

The binding statements that a run executes, in order, each with the scope that it finds. The list
is read off the run itself, whatever becomes of the bindings afterwards.

**Input.** An expression, a statement or a program, and a run.

**Algorithm.** The recursion is that of the interpreter, and the acts of the interpreter lead from
the state before one part to the state before the next one. What a declared function binds is a
parameter, as the act of calling it is.

**Results.** `exprBinds` and `stmtBinds` follow the tree. `statementBinds`, `programBinds` and
`Machine.invokeBinds` are the bindings made by the operations of an interpreter.
-/

namespace Chord

/-- The canonical hotkey of a binding. -/
def Binding.key (b : Binding) : String :=
  normalize b.source

/-- The bindings that an act makes, in order, by the state it starts in. -/
abbrev Binds (S : Type) : Type := S → List Binding

namespace Binds

variable {S α : Type}

/-- Nothing is bound. -/
def nothing : Binds S :=
  fun _ => []

/-- What an act binds, and then what the next one binds unless the first one stopped short. -/
def andThen (first : Binds S) (act : Act S α) (next : α → Binds S) : Binds S :=
  fun s =>
    first s ++
      match act s with
      | (.ok a, s) => next a s
      | (.error _, _) => []

/-- What the repetitions of a step bind. -/
def repeated (first : Binds S) (step : Act S (Option α)) : Nat → Binds S
  | 0 => nothing
  | n + 1 => first.andThen step fun ending =>
      match ending with
      | none => repeated first step n
      | some _ => nothing

@[simp] theorem andThen_nothing (first : Binds S) (act : Act S α) :
    first.andThen act (fun _ => nothing) = first := by
  funext s
  unfold andThen
  rcases act s with ⟨e | a, s'⟩ <;> exact List.append_nil _

end Binds

namespace Eval

variable {σ : Type}

/-- What the calls of declared functions bind. -/
abbrev EnterBinds (σ : Type) : Type := Function → List Value → Scope → Binds (Machine σ)

section Expressions

variable (registry : Registry σ) (enter : Enter σ) (entered : EnterBinds σ)

/-- What a call binds. Built-in functions bind nothing. -/
def callBinds (c : Callable σ) (args : List Value) (scope : Scope) : Binds (Machine σ) :=
  match c with
  | .builtin _ => .nothing
  | .user f => if args.length == f.params.length then entered f args scope else .nothing

/-- What is bound by what is done with the thing that an expression names. -/
def resolvedBinds (callee : Expr) (scope : Scope) (next : Callable σ → Binds (Machine σ)) :
    Binds (Machine σ) :=
  match resolve registry scope callee with
  | .ok c => next c
  | .error _ => .nothing

/-- What a call without arguments binds. -/
def callBareBinds (callee : Expr) (scope : Scope) : Binds (Machine σ) :=
  resolvedBinds registry callee scope fun c => callBinds entered c [] scope

/-- What a stage that is a bare name binds. -/
def pipeBareBinds (stage : Expr) (input : Value) (scope : Scope) : Binds (Machine σ) :=
  resolvedBinds registry stage scope fun c =>
    callBinds entered c (if c.arity == 0 then [] else [input]) scope

mutual

/-- What is bound while an expression is evaluated. -/
def exprBinds (scope : Scope) : Expr → Binds (Machine σ)
  | .identifier name =>
      match scope.get? name with
      | some _ => .nothing
      | none => callBareBinds registry entered (.identifier name) scope
  | .number _ => .nothing
  | .string _ => .nothing
  | .hotkey _ => .nothing
  | .binary left op right =>
      (exprBinds scope left).andThen (evalExpr registry enter scope left) fun l =>
        match op with
        | .and => if l.asBool then exprBinds scope right else .nothing
        | .or => if l.asBool then .nothing else exprBinds scope right
        | _ => exprBinds scope right
  | .call callee args =>
      resolvedBinds registry callee scope fun c =>
        (argsBinds scope args).andThen (evalArgs registry enter scope args) fun values =>
          callBinds entered c values scope
  | .member object property => callBareBinds registry entered (.member object property) scope
  | .pipeline [] => .nothing
  | .pipeline (first :: rest) =>
      (exprBinds scope first).andThen (evalExpr registry enter scope first) fun value =>
        stagesBinds scope value rest

/-- What is bound while arguments are evaluated. -/
def argsBinds (scope : Scope) : List Expr → Binds (Machine σ)
  | [] => .nothing
  | e :: es =>
      (exprBinds scope e).andThen (evalExpr registry enter scope e) fun _ => argsBinds scope es

/-- What the stages of a pipeline bind. -/
def stagesBinds (scope : Scope) (input : Value) : List Expr → Binds (Machine σ)
  | [] => .nothing
  | .call callee args :: rest =>
      resolvedBinds registry callee scope fun c =>
        (argsBinds scope args).andThen (evalArgs registry enter scope args) fun values =>
          (callBinds entered c (input :: values) scope).andThen
            (call enter c (input :: values) scope) fun value => stagesBinds scope value rest
  | .identifier name :: rest =>
      (pipeBareBinds registry entered (.identifier name) input scope).andThen
        (pipeBare registry enter (.identifier name) input scope) fun value =>
          stagesBinds scope value rest
  | .member object property :: rest =>
      (pipeBareBinds registry entered (.member object property) input scope).andThen
        (pipeBare registry enter (.member object property) input scope) fun value =>
          stagesBinds scope value rest
  | _ :: _ => .nothing

end

end Expressions

section Statements

variable (setup : Setup σ) (enter : Enter σ) (entered : EnterBinds σ)

/-- What is bound while an expression is evaluated in the current scope. -/
def valueBinds (e : Expr) : Binds (Run σ) :=
  fun r => exprBinds setup.registry enter entered r.scope e r.machine

/-- What is bound while an expression that may be missing is evaluated. -/
def value?Binds (e : Option Expr) : Binds (Run σ) :=
  match e with
  | some e => valueBinds setup enter entered e
  | none => .nothing

/-- What is bound while the hotkey of a binding is evaluated. -/
def hotkeyBinds (hotkey : Expr) : Binds (Run σ) :=
  match hotkey with
  | .hotkey _ => .nothing
  | .string _ => .nothing
  | e => valueBinds setup enter entered e

/-- One repetition of a loop. -/
def repetition (condition : Expr) (body : Stmt) : Act (Run σ) (Option Flow) := do
  let value ← valueOf setup enter condition
  if value.asBool then
    match ← evalStmt setup enter body with
    | .left v => return some (.left v)
    | .normal _ => return none
  else return some (.normal .null)

mutual

/-- What a statement binds. A binding statement binds its action in the scope that it finds. -/
def stmtBinds : Stmt → Binds (Run σ)
  | .bind hotkey action _ =>
      (hotkeyBinds setup enter entered hotkey).andThen (hotkeyOf setup enter hotkey)
        fun text r => [⟨text, action, r.scope⟩]
  | .block body => blockBinds body
  | .expr e => valueBinds setup enter entered e
  | .assign _ e => value?Binds setup enter entered e
  | .branch condition consequence alternative =>
      (valueBinds setup enter entered condition).andThen (valueOf setup enter condition)
        fun value =>
          if value.asBool then stmtBinds consequence
          else
            match alternative with
            | some alternative => stmtBinds alternative
            | none => .nothing
  | .loop condition body =>
      Binds.repeated
        ((valueBinds setup enter entered condition).andThen (valueOf setup enter condition)
          fun value => if value.asBool then stmtBinds body else .nothing)
        (repetition setup enter condition body) setup.limits.loops
  | .leave e => value?Binds setup enter entered e
  | .function _ _ _ => .nothing

/-- What statements in order bind. -/
def blockBinds : List Stmt → Binds (Run σ)
  | [] => .nothing
  | s :: rest =>
      (stmtBinds s).andThen (evalStmt setup enter s) fun flow =>
        match flow with
        | .normal _ => blockBinds rest
        | .left _ => .nothing

end

end Statements

/-- What a declared function binds when `room` more calls may be opened. -/
def enterWithBinds (setup : Setup σ) : Nat → EnterBinds σ
  | 0 => fun _ _ _ => .nothing
  | room + 1 => fun f args scope machine =>
      stmtBinds setup (enterWith setup room) (enterWithBinds setup room) f.body
        ⟨scope.enter f.params args, { machine with depth := machine.depth + 1 }⟩

/-- What a declared function binds as far as the bound on open calls allows. -/
def enterFromBinds (setup : Setup σ) (depth : Nat) : EnterBinds σ :=
  enterWithBinds setup (setup.limits.calls - depth)

/-- The bindings that one statement makes, in order. -/
def statementBinds (setup : Setup σ) (s : Stmt) : Binds (Run σ) :=
  fun r => stmtBinds setup (enterFrom setup r.machine.depth)
    (enterFromBinds setup r.machine.depth) s r

/-- The bindings that a program makes, in order. -/
def programBinds (setup : Setup σ) (p : Program) : Binds (Run σ) :=
  fun r => statementBinds setup (.block p.statements) (r.opened p)

end Eval

namespace Machine

variable {σ : Type}

/-- A machine that has noted a trigger, in the scope of the binding. -/
def triggered (hotkey : String) (b : Binding) (m : Machine σ) : Eval.Run σ where
  scope := b.scope
  machine :=
    { m.note .debug ("triggering " ++ normalize hotkey ++ " (bound as " ++ b.source ++ ")") with
      depth := 0 }

/-- The bindings that the action bound to a hotkey makes when it is triggered, in order. -/
def invokeBinds (setup : Setup σ) (hotkey : String) : Binds (Machine σ) :=
  fun m =>
    match m.bindings.get? (normalize hotkey) with
    | none => []
    | some b => Eval.statementBinds setup b.action (m.triggered hotkey b)

end Machine

end Chord
