import Chord.Eval.Session

/-!
# Equations of acts

An act is a state transformer that may stop short, and the interpreter is a recursion that builds
acts. This module opens acts once, so that later proofs rewrite with equations.

**Input.** Acts on any states, and acts that only read the scope of a run.

**Results.** `Act.bind_apply` says what a sequence of two acts does in a state, and `Keeps.bind`
what it keeps. `reading_bind` and `valueOf_binary` to `valueOf_pipeline` turn the recursion of
`evalExpr`, which carries a scope along, into a recursion of acts on whole runs. Where no function is
declared, every call is a `callBuiltin`.
-/

namespace Chord
namespace Act

variable {S α β : Type}

/-- The second of two acts starts where the first one ended, unless that stopped short. -/
theorem bind_apply (x : Act S α) (f : α → Act S β) (s : S) :
    (x >>= f) s =
      match x s with
      | (.ok a, s) => f a s
      | (.error e, s) => (.error e, s) := by
  show ExceptT.bind x f s = _
  simp only [ExceptT.bind, ExceptT.mk, bind, StateT.bind]
  rcases x s with ⟨e | a, s'⟩ <;> rfl

/-- A sequence whose first act ends with a result. -/
theorem bind_apply_ok {x : Act S α} {f : α → Act S β} {s s' : S} {a : α}
    (h : x s = (.ok a, s')) : (x >>= f) s = f a s' := by
  rw [bind_apply, h]

/-- A sequence that ends with a result did so in both parts. -/
theorem bind_eq_ok {x : Act S α} {f : α → Act S β} {s : S} {b : β}
    (h : ((x >>= f) s).1 = .ok b) : ∃ a s', x s = (.ok a, s') ∧ (f a s').1 = .ok b := by
  rw [bind_apply] at h
  rcases hrun : x s with ⟨e | a, s'⟩
  · rw [hrun] at h
    cases h
  · rw [hrun] at h
    exact ⟨a, s', rfl, h⟩

@[simp] theorem pure_bind_act (a : α) (f : α → Act S β) : (pure a >>= f) = f a :=
  rfl

@[simp] theorem bind_pure_act (x : Act S α) : (x >>= pure) = x := by
  funext s
  rw [bind_apply]
  rcases x s with ⟨e | a, s'⟩ <;> rfl

theorem bind_assoc_act {γ : Type} (x : Act S α) (f : α → Act S β) (g : β → Act S γ) :
    (x >>= f >>= g) = (x >>= fun a => f a >>= g) := by
  funext s
  rw [bind_apply, bind_apply, bind_apply]
  rcases x s with ⟨e | a, s'⟩
  · rfl
  · show _ = (f a >>= g) s'
    rw [bind_apply]

end Act

/-! ## Runs that keep a property -/

/-- A run that may stop short keeps a property of its states, however it ends. -/
def Keeps {ε S α : Type} (P : S → Prop) (x : ExceptT ε (StateM S) α) : Prop :=
  ∀ s, P s → P (x s).2

namespace Keeps

variable {ε S α β : Type} {P : S → Prop}

theorem pure (a : α) : Keeps P (Pure.pure a : ExceptT ε (StateM S) α) :=
  fun _ hs => hs

theorem bind {x : ExceptT ε (StateM S) α} {f : α → ExceptT ε (StateM S) β} (hx : Keeps P x)
    (hf : ∀ a, Keeps P (f a)) : Keeps P (x >>= f) := by
  intro s hs
  have hmiddle := hx s hs
  show P (ExceptT.bind x f s).2
  simp only [ExceptT.bind, ExceptT.mk, Bind.bind, StateT.bind]
  rcases hrun : x s with ⟨e | a, s'⟩
  · rw [hrun] at hmiddle
    exact hmiddle
  · rw [hrun] at hmiddle
    exact hf a s' hmiddle

/-- What every step of a loop keeps, the loop keeps. -/
theorem repeatUntil {step : Act S (Option α)} (hstep : Keeps P step) :
    (n : Nat) → Keeps P (Act.repeatUntil step n : Act S α)
  | 0 => fun _ hs => hs
  | n + 1 => by
      intro s hs
      have hmiddle := hstep s hs
      unfold Act.repeatUntil
      rcases hrun : step s with ⟨e | ending, s'⟩
      · rw [hrun] at hmiddle
        exact hmiddle
      · rw [hrun] at hmiddle
        cases ending with
        | none => exact repeatUntil hstep n s' hmiddle
        | some a => exact hmiddle

end Keeps

/-- Two acts do the same in all states with a property. -/
def Act.EqOn {S α : Type} (P : S → Prop) (x y : Act S α) : Prop :=
  ∀ s, P s → x s = y s

namespace Act.EqOn

variable {S α β : Type} {P : S → Prop} {x y z : Act S α}

theorem refl (x : Act S α) : EqOn P x x :=
  fun _ _ => rfl

theorem of_eq (h : x = y) : EqOn P x y :=
  fun s _ => congrFun h s

theorem symm (h : EqOn P x y) : EqOn P y x :=
  fun s hs => (h s hs).symm

theorem trans (h : EqOn P x y) (h' : EqOn P y z) : EqOn P x z :=
  fun s hs => (h s hs).trans (h' s hs)

theorem bind_left (h : EqOn P x y) (f : α → Act S β) : EqOn P (x >>= f) (y >>= f) := by
  intro s hs
  rw [bind_apply, bind_apply, h s hs]

/-- What comes after an act need only be the same where the act leads. -/
theorem bind_right {f g : α → Act S β} (hkeeps : Keeps P x)
    (h : ∀ a s, (x s).1 = .ok a → EqOn P (f a) (g a)) : EqOn P (x >>= f) (x >>= g) := by
  intro s hs
  have hafter := hkeeps s hs
  rw [bind_apply, bind_apply]
  rcases hrun : x s with ⟨e | a, s'⟩
  · rfl
  · rw [hrun] at hafter
    exact h a s (by rw [hrun]) s' hafter

end Act.EqOn

namespace Eval

variable {σ α β : Type}

@[simp] theorem reading_ofExcept (r : Except Fault α) :
    reading (fun _ => (Act.ofExcept r : Act (Machine σ) α)) = Act.ofExcept r := by
  cases r <;> rfl

/-- Reading the scope twice in a row is reading it once. -/
theorem reading_bind (x : Scope → Act (Machine σ) α) (f : α → Scope → Act (Machine σ) β) :
    reading (fun scope => x scope >>= fun a => f a scope) =
      (reading x >>= fun a => reading (f a)) := by
  funext r
  rw [Act.bind_apply]
  simp only [reading, Act.bind_apply]
  rcases x r.scope r.machine with ⟨e | a, m⟩ <;> rfl

/-- A run that has noted the start of a program. -/
def Run.opened (r : Run σ) (p : Program) : Run σ :=
  { r with
    machine := r.machine.note .debug
      ("evaluating " ++ toString p.statements.length ++ " statement(s)") }

/-- A program runs as the block of its statements. -/
theorem evaluate_eq_evaluateStatement (setup : Setup σ) (p : Program) (r : Run σ) :
    evaluate setup p r = evaluateStatement setup (.block p.statements) (r.opened p) := by
  unfold evaluate evaluateStatement
  simp only [evalStmt]
  rfl

section Expressions

variable (setup : Setup σ) (enter : Enter σ)

/-- The values of arguments in the current scope. -/
def valuesOf (es : List Expr) : Act (Run σ) (List Value) :=
  reading fun scope => evalArgs setup.registry enter scope es

/-- The value of a variable, or what an act gives if it has none. -/
def variableOr (name : String) (act : Act (Run σ) Value) : Act (Run σ) Value :=
  fun r =>
    match r.scope.get? name with
    | some v => (.ok v, r)
    | none => act r

/-- What the stages of a pipeline make of a value in the current scope. -/
def pipedThrough (stages : List Expr) (input : Value) : Act (Run σ) Value :=
  reading fun scope => evalStages setup.registry enter scope input stages

/-- A name is a variable, or else the call of a function without arguments. -/
theorem valueOf_identifier (name : String) :
    valueOf setup enter (.identifier name) =
      variableOr name (reading (callBare setup.registry enter (.identifier name))) := by
  funext r
  unfold valueOf variableOr reading
  simp only [evalExpr]
  cases r.scope.get? name <;> rfl

theorem valueOf_and (left right : Expr) :
    valueOf setup enter (.binary left .and right) = (do
      let l ← valueOf setup enter left
      if l.asBool then
        let r ← valueOf setup enter right
        return .boolean r.asBool
      else return .boolean false) := by
  unfold valueOf
  simp only [evalExpr]
  rw [reading_bind]
  congr 1
  funext l
  cases l.asBool with
  | false => rfl
  | true =>
      simp only [if_true]
      rw [reading_bind]
      rfl

theorem valueOf_or (left right : Expr) :
    valueOf setup enter (.binary left .or right) = (do
      let l ← valueOf setup enter left
      if l.asBool then return .boolean true
      else
        let r ← valueOf setup enter right
        return .boolean r.asBool) := by
  unfold valueOf
  simp only [evalExpr]
  rw [reading_bind]
  congr 1
  funext l
  cases l.asBool with
  | true => rfl
  | false =>
      simp only [Bool.false_eq_true, if_false]
      rw [reading_bind]
      rfl

theorem valueOf_binary {op : BinOp} (h : op.isShortCircuit = false) (left right : Expr) :
    valueOf setup enter (.binary left op right) = (do
      let l ← valueOf setup enter left
      let r ← valueOf setup enter right
      Act.ofExcept (applyBinOp op l r)) := by
  unfold valueOf
  have hstep : ∀ scope, evalExpr setup.registry enter scope (.binary left op right) = (do
      let l ← evalExpr setup.registry enter scope left
      let r ← evalExpr setup.registry enter scope right
      Act.ofExcept (applyBinOp op l r)) := by
    intro scope
    cases op with
    | and => cases h
    | or => cases h
    | _ => simp only [evalExpr]
  simp only [hstep]
  rw [reading_bind]
  congr 1
  funext l
  rw [reading_bind]
  congr 1
  funext r
  rw [reading_ofExcept]

theorem valuesOf_cons (e : Expr) (es : List Expr) :
    valuesOf setup enter (e :: es) = (do
      let value ← valueOf setup enter e
      let values ← valuesOf setup enter es
      return value :: values) := by
  unfold valuesOf valueOf
  simp only [evalArgs]
  rw [reading_bind]
  congr 1
  funext value
  rw [reading_bind]
  rfl

@[simp] theorem valuesOf_nil : valuesOf setup enter [] = pure [] := by
  unfold valuesOf
  simp only [evalArgs]
  rfl

theorem valueOf_pipeline (first : Expr) (rest : List Expr) :
    valueOf setup enter (.pipeline (first :: rest)) =
      (valueOf setup enter first >>= pipedThrough setup enter rest) := by
  unfold valueOf pipedThrough
  simp only [evalExpr]
  rw [reading_bind]

@[simp] theorem pipedThrough_nil (input : Value) :
    pipedThrough setup enter [] input = pure input := by
  unfold pipedThrough
  simp only [evalStages]
  rfl

end Expressions

/-! ## Scopes without functions

Where a script has declared no functions, every call is the call of a built-in one. -/

/-- Calls a built-in function in a run. -/
def callBuiltin (b : Builtin σ) (args : List Value) : Act (Run σ) Value :=
  reading fun _ => Machine.call b args

/-- A built-in function called in a run depends on the host alone. -/
theorem callBuiltin_apply (b : Builtin σ) (args : List Value) (r : Run σ) :
    callBuiltin b args r =
      Act.ofExcept (b.call args r.machine.host).result
        { r with machine :=
          { r.machine with toDesk := (r.machine.toDesk.call b args).2 } } := by
  have hcall : Machine.call b args r.machine =
      Act.ofExcept (b.call args r.machine.host).result
        { r.machine with toDesk := (r.machine.toDesk.call b args).2 } :=
    rfl
  unfold callBuiltin reading
  simp only [hcall]
  cases (b.call args r.machine.host).result <;> rfl

/-- With the right number of arguments the body of a function runs. -/
theorem call_eq_body {b : Builtin σ} {args : List Value} (h : args.length = b.arity) (state : σ) :
    b.call args state = b.body args state := by
  unfold Builtin.call
  rw [if_pos (by simpa using h)]

/-- A call with a wrong number of arguments fails before anything happens. -/
theorem callBuiltin_mismatch {b : Builtin σ} {args : List Value} (h : args.length ≠ b.arity)
    (r : Run σ) : callBuiltin b args r = Act.fault (b.mismatch args.length) r := by
  have hcall : b.call args r.machine.host =
      { result := .error (b.mismatch args.length), state := r.machine.host } := by
    unfold Builtin.call
    rw [if_neg (by simpa using h)]
  rw [callBuiltin_apply, hcall]
  unfold Desk.call
  rw [hcall]
  simp [Act.ofExcept, Desk.noteAll]

section Builtins

variable {setup : Setup σ} {enter : Enter σ} {r : Run σ}
  (hf : ∀ name, r.scope.function? name = none)
include hf

/-- Without declared functions an expression names what the registry says. -/
theorem resolve_of_no_function (callee : Expr) :
    resolve setup.registry r.scope callee = (setup.registry.resolve callee).map .builtin := by
  cases callee with
  | identifier name => simp only [resolve, hf name]
  | _ => rfl

/-- What follows the look-up of a name, whether it stands for something or not. -/
theorem reading_resolve (callee : Expr) (k : Callable σ → Scope → Act (Machine σ) α) :
    reading (fun scope => Act.ofExcept (resolve setup.registry scope callee) >>= fun c =>
        k c scope) r =
      (Act.ofExcept (setup.registry.resolve callee) >>= fun b => reading (k (.builtin b))) r := by
  rw [reading_bind (fun scope => Act.ofExcept (resolve setup.registry scope callee)) k,
    Act.bind_apply]
  simp only [reading, resolve_of_no_function hf]
  cases setup.registry.resolve callee <;> rfl

theorem reading_callBare (callee : Expr) :
    reading (callBare setup.registry enter callee) r =
      (Act.ofExcept (setup.registry.resolve callee) >>= fun b => callBuiltin b []) r :=
  reading_resolve hf callee fun c scope => call enter c [] scope

theorem reading_pipeBare (stage : Expr) (input : Value) :
    reading (pipeBare setup.registry enter stage input) r =
      (Act.ofExcept (setup.registry.resolve stage) >>= fun b =>
        callBuiltin b (if b.arity == 0 then [] else [input])) r :=
  reading_resolve hf stage fun c scope =>
    call enter c (if c.arity == 0 then [] else [input]) scope

theorem valueOf_call_apply (callee : Expr) (args : List Expr) :
    valueOf setup enter (.call callee args) r =
      (Act.ofExcept (setup.registry.resolve callee) >>= fun b =>
        valuesOf setup enter args >>= callBuiltin b) r := by
  have hcall : ∀ b : Builtin σ,
      (reading fun scope => do
        let values ← evalArgs setup.registry enter scope args
        call enter (.builtin b) values scope) =
        (valuesOf setup enter args >>= callBuiltin b) :=
    fun b => reading_bind (fun scope => evalArgs setup.registry enter scope args)
      (fun values scope => call enter (.builtin b) values scope)
  unfold valueOf
  simp only [evalExpr]
  rw [reading_resolve hf callee fun c scope => do
    let values ← evalArgs setup.registry enter scope args
    call enter c values scope]
  simp only [hcall]

theorem pipedThrough_call_apply (callee : Expr) (args rest : List Expr) (input : Value) :
    pipedThrough setup enter (.call callee args :: rest) input r =
      (Act.ofExcept (setup.registry.resolve callee) >>= fun b =>
        valuesOf setup enter args >>= fun values =>
          callBuiltin b (input :: values) >>= pipedThrough setup enter rest) r := by
  have hrest : ∀ (b : Builtin σ) (values : List Value),
      (reading fun scope => do
        let value ← call enter (.builtin b) (input :: values) scope
        evalStages setup.registry enter scope value rest) =
        (callBuiltin b (input :: values) >>= pipedThrough setup enter rest) :=
    fun b values =>
      reading_bind (call enter (.builtin b) (input :: values))
        (fun value scope => evalStages setup.registry enter scope value rest)
  have hcall : ∀ b : Builtin σ,
      (reading fun scope => do
        let values ← evalArgs setup.registry enter scope args
        let value ← call enter (.builtin b) (input :: values) scope
        evalStages setup.registry enter scope value rest) =
        (valuesOf setup enter args >>= fun values =>
          callBuiltin b (input :: values) >>= pipedThrough setup enter rest) := by
    intro b
    rw [reading_bind (fun scope => evalArgs setup.registry enter scope args)
      (fun values scope => do
        let value ← call enter (.builtin b) (input :: values) scope
        evalStages setup.registry enter scope value rest)]
    simp only [hrest]
    rfl
  unfold pipedThrough
  simp only [evalStages]
  rw [reading_resolve hf callee fun c scope => do
    let values ← evalArgs setup.registry enter scope args
    let value ← call enter c (input :: values) scope
    evalStages setup.registry enter scope value rest]
  simp only [hcall]
  rfl

end Builtins

/-- A stage that is a name hands its result to the stages after it. -/
theorem pipedThrough_identifier (setup : Setup σ) (enter : Enter σ) (name : String)
    (rest : List Expr) (input : Value) :
    pipedThrough setup enter (.identifier name :: rest) input =
      (reading (pipeBare setup.registry enter (.identifier name) input) >>=
        pipedThrough setup enter rest) := by
  unfold pipedThrough
  simp only [evalStages]
  rw [reading_bind]

theorem pipedThrough_member (setup : Setup σ) (enter : Enter σ) (object property : Expr)
    (rest : List Expr) (input : Value) :
    pipedThrough setup enter (.member object property :: rest) input =
      (reading (pipeBare setup.registry enter (.member object property) input) >>=
        pipedThrough setup enter rest) := by
  unfold pipedThrough
  simp only [evalStages]
  rw [reading_bind]

end Eval
end Chord
