import Chord.Proofs.Eval.Binds
import Chord.Proofs.Script.Renumbering

/-!
# Runs in parallel

What a run does cannot depend on the journal, on the lines of bindings or on the bindings made so
far. Each of these is a statement about several runs that start from different states. And a run
touches the host and the bindings in two steps only: it calls a built-in function, or it binds a
hotkey.

**Input.** A family of runs, with another numbering of the lines for each of them, and a relation of
what they have bound so far, the state of the host and their bindings. Every built-in function and
every new binding keep it: this is an `Ensemble`.

**Results.** `evalStmt_parallel` and its companions: if all runs of the family start from one scope
up to its lines and from one state of the host, then they end with the same result, again in one
scope and in one state of the host, and the relation still holds with the bindings that each run
made. A family of a single run has what every run keeps.
-/

namespace Chord

/-- All acts of a family end with the same result, and with the bindings that they make, the states
are related as before. -/
def Act.Parallel {I S α : Type} (R : (I → List Binding) → (I → S) → Prop) (x : I → Act S α)
    (binds : I → Binds S) : Prop :=
  ∀ made s, R made s → ∃ result, (∀ i, (x i (s i)).1 = result) ∧
    R (fun i => made i ++ binds i (s i)) fun i => (x i (s i)).2

namespace Act

variable {I S α β : Type} {R : (I → List Binding) → (I → S) → Prop}

/-- Acts that stay in their states and bind nothing. -/
theorem Parallel.const {x : I → Act S α} {result : Except Stop α}
    (hx : ∀ i s, x i s = (result, s)) : Parallel R x fun _ => .nothing := by
  intro made s hs
  have hmade : (fun i => made i ++ Binds.nothing (s i)) = made :=
    funext fun i => List.append_nil (made i)
  simp only [hx, hmade]
  exact ⟨result, fun _ => rfl, hs⟩

theorem Parallel.pure (a : α) : Parallel R (fun _ => (Pure.pure a : Act S α)) fun _ => .nothing :=
  .const fun _ _ => rfl

theorem Parallel.fault (cause : Fault) :
    Parallel R (fun _ => (Act.fault cause : Act S α)) fun _ => .nothing :=
  .const fun _ _ => rfl

theorem Parallel.ofExcept (r : Except Fault α) :
    Parallel R (fun _ => (Act.ofExcept r : Act S α)) fun _ => .nothing := by
  cases r with
  | ok a => exact .pure a
  | error cause => exact .fault cause

theorem Parallel.bind {x : I → Act S α} {f : I → α → Act S β} {b : I → Binds S}
    {c : I → α → Binds S} (hx : Parallel R x b)
    (hf : ∀ a, Parallel R (fun i => f i a) fun i => c i a) :
    Parallel R (fun i => x i >>= f i) fun i => (b i).andThen (x i) (c i) := by
  intro made s hs
  obtain ⟨result, hresult, hstates⟩ := hx made s hs
  have hrun : ∀ i, x i (s i) = (result, (x i (s i)).2) := fun i => Prod.ext (hresult i) rfl
  cases result with
  | error cause =>
      have hstop : ∀ i, (x i >>= f i) (s i) = (.error cause, (x i (s i)).2) := by
        intro i
        rw [bind_apply, hrun i]
      have hmade : ∀ i, (b i).andThen (x i) (c i) (s i) = b i (s i) := by
        intro i
        rw [Binds.andThen, hrun i]
        exact List.append_nil _
      simp only [hstop, hmade]
      exact ⟨_, fun _ => rfl, hstates⟩
  | ok a =>
      have hnext : ∀ i, (x i >>= f i) (s i) = f i a (x i (s i)).2 :=
        fun i => bind_apply_ok (hrun i)
      have hmade : ∀ i, (b i).andThen (x i) (c i) (s i) =
          b i (s i) ++ c i a (x i (s i)).2 := by
        intro i
        rw [Binds.andThen, hrun i]
      simp only [hnext, hmade, ← List.append_assoc]
      exact hf a _ _ hstates

/-- Only the first of two acts binds anything. -/
theorem Parallel.bind_nothing {x : I → Act S α} {f : I → α → Act S β} {b : I → Binds S}
    (hx : Parallel R x b) (hf : ∀ a, Parallel R (fun i => f i a) fun _ => .nothing) :
    Parallel R (fun i => x i >>= f i) b := by
  have hbind := hx.bind (c := fun _ _ => .nothing) hf
  simpa only [Binds.andThen_nothing] using hbind

/-- One more repetition is a step and what is left to repeat. -/
theorem repeatUntil_succ (step : Act S (Option α)) (n : Nat) :
    (repeatUntil step (n + 1) : Act S α) = step >>= fun ending =>
      match ending with
      | none => repeatUntil step n
      | some a => Pure.pure a := by
  funext s
  rw [bind_apply, repeatUntil]
  rcases step s with ⟨e | ending, s'⟩
  · rfl
  · cases ending <;> rfl

theorem Parallel.repeatUntil {step : I → Act S (Option α)} {b : I → Binds S}
    (hstep : Parallel R step b) : (n : Nat) →
      Parallel R (fun i => (Act.repeatUntil (step i) n : Act S α)) fun i =>
        (b i).repeated (step i) n
  | 0 => .const fun _ _ => rfl
  | n + 1 => by
      simp only [repeatUntil_succ, Binds.repeated]
      refine hstep.bind fun ending => ?_
      cases ending with
      | none => exact Parallel.repeatUntil hstep n
      | some a => exact .pure a

end Act

variable {σ : Type}

/-- Every function of a registry keeps a property of the state of the host. -/
def Registry.Keeps (registry : Registry σ) (P : σ → Prop) : Prop :=
  ∀ ⦃id b⦄, registry.get? id = some b → ∀ args state, P state → P (b.call args state).state

/-- What runs of a family have in common: each run numbers the lines in its own way, and what they
have bound so far, the state of the host and their bindings are in a relation that every built-in
function and every new binding keep. -/
structure Ensemble (setup : Setup σ) (I : Type) where
  lines : I → Nat → Nat
  Related : (I → List Binding) → σ → (I → Table Binding) → Prop
  call : ∀ made tables, setup.registry.Keeps (Related made · tables)
  bind : ∀ {made state tables}, Related made state tables → ∀ b : Binding,
    Related (fun i => made i ++ [b.renumbered (lines i)])
      (setup.host.register (normalize b.source) state)
      fun i => (tables i).insert (normalize b.source) (b.renumbered (lines i))

namespace Ensemble

variable {I : Type} {setup : Setup σ}

/-- Machines with one state of the host, one number of open calls and related bindings. Their
journals may differ. -/
structure Machines (c : Ensemble setup I) (depth : Nat) (made : I → List Binding)
    (m : I → Machine σ) : Prop where
  host : ∃ state, (∀ i, (m i).host = state) ∧ c.Related made state fun i => (m i).bindings
  depth : ∀ i, (m i).depth = depth

/-- Runs in one scope on such machines. -/
structure Runs (c : Ensemble setup I) (depth : Nat) (made : I → List Binding)
    (r : I → Eval.Run σ) : Prop where
  scope : ∃ scope : Scope, ∀ i, (r i).scope = scope.renumbered (c.lines i)
  machines : c.Machines depth made fun i => (r i).machine

variable {c : Ensemble setup I} {depth : Nat} {made : I → List Binding} {m : I → Machine σ}

/-- All machines of a family bind one action. -/
theorem Machines.bind (h : c.Machines depth made m) (b : Binding) :
    c.Machines depth (fun i => made i ++ [b.renumbered (c.lines i)]) fun i =>
      (m i).bind setup.host b.source (b.action.renumbered (c.lines i))
        (b.scope.renumbered (c.lines i)) := by
  obtain ⟨state, hstate, hrelated⟩ := h.host
  refine ⟨⟨setup.host.register (normalize b.source) state, fun i => ?_, c.bind hrelated b⟩,
    h.depth⟩
  show setup.host.register (normalize b.source) (m i).host = _
  rw [hstate i]

end Ensemble

namespace Eval

open Ensemble

variable {I : Type}

/-- Something callable with other line numbers. -/
def Callable.renumbered (f : Nat → Nat) : Callable σ → Callable σ
  | .builtin b => .builtin b
  | .user g => .user (g.renumbered f)

theorem Callable.arity_renumbered (f : Nat → Nat) (callable : Callable σ) :
    (callable.renumbered f).arity = callable.arity := by
  cases callable <;> rfl

theorem resolve_renumbered (registry : Registry σ) (f : Nat → Nat) (scope : Scope)
    (callee : Expr) : resolve registry (scope.renumbered f) callee =
      (resolve registry scope callee).map (Callable.renumbered f) := by
  have hbuiltin : ∀ e : Except Fault (Builtin σ),
      e.map .builtin = (e.map Callable.builtin).map (Callable.renumbered f) := by
    intro e
    cases e <;> rfl
  cases callee with
  | identifier name =>
      simp only [resolve, Scope.function?_renumbered]
      cases scope.function? name with
      | some g => rfl
      | none => exact hbuiltin _
  | _ =>
      simp only [resolve]
      exact hbuiltin _

/-- A built-in function that can be called is one of the registry. -/
def Callable.Known (registry : Registry σ) : Callable σ → Prop
  | .builtin b => registry.get? b.id = some b
  | .user _ => True

theorem known_of_resolve {registry : Registry σ} {scope : Scope} {callee : Expr} {c : Callable σ}
    (h : resolve registry scope callee = .ok c) : c.Known registry := by
  have hbuiltin : (registry.resolve callee).map .builtin = .ok c → c.Known registry := by
    intro h
    cases hresolve : registry.resolve callee with
    | error cause =>
        rw [hresolve] at h
        cases h
    | ok b =>
        rw [hresolve] at h
        cases h
        exact Registry.get?_id_of_resolve hresolve
  cases callee with
  | identifier name =>
      simp only [resolve] at h
      split at h
      · cases h
        trivial
      · exact hbuiltin h
  | _ => exact hbuiltin h

variable {setup : Setup σ}

/-- Calls of one declared function in one scope, up to the lines of both. -/
def EntersParallel (c : Ensemble setup I) (depth : Nat) (enter : Enter σ)
    (entered : EnterBinds σ) : Prop :=
  ∀ (g : Function) (args : List Value) (scope : Scope),
    Act.Parallel (c.Machines depth)
      (fun i => enter (g.renumbered (c.lines i)) args (scope.renumbered (c.lines i)))
      fun i => entered (g.renumbered (c.lines i)) args (scope.renumbered (c.lines i))

variable {c : Ensemble setup I} {depth : Nat} {enter : Enter σ} {entered : EnterBinds σ}

section Expressions

theorem builtin_parallel {b : Builtin σ} (hb : setup.registry.get? b.id = some b)
    (args : List Value) :
    Act.Parallel (c.Machines depth) (fun _ => Machine.call b args) fun _ => .nothing := by
  intro made m hm
  obtain ⟨state, hstate, hrelated⟩ := hm.host
  have hcall : ∀ i, Machine.call b args (m i) = ((b.call args state).result.mapError .fault,
      { m i with toDesk := ((m i).toDesk.call b args).2 }) := by
    intro i
    have hresult : ((m i).toDesk.call b args).1 = (b.call args state).result := by
      show (b.call args (m i).host).result = _
      rw [hstate i]
    show Act.ofExcept ((m i).toDesk.call b args).1 _ = _
    rw [hresult]
    cases (b.call args state).result <;> rfl
  have hmade : (fun i => made i ++ Binds.nothing (m i)) = made :=
    funext fun i => List.append_nil (made i)
  simp only [hcall, hmade]
  refine ⟨_, fun _ => rfl, ⟨(b.call args state).state, fun i => ?_, ?_⟩, hm.depth⟩
  · show (b.call args (m i).host).state = _
    rw [hstate i]
  · exact c.call made _ hb args state hrelated

theorem call_parallel (henter : EntersParallel c depth enter entered) {callable : Callable σ}
    (hknown : callable.Known setup.registry) (args : List Value) (scope : Scope) :
    Act.Parallel (c.Machines depth)
      (fun i => call enter (callable.renumbered (c.lines i)) args (scope.renumbered (c.lines i)))
      fun i =>
        callBinds entered (callable.renumbered (c.lines i)) args
          (scope.renumbered (c.lines i)) := by
  cases callable with
  | builtin b => exact builtin_parallel hknown args
  | user g =>
      have hname : ∀ f, (g.renumbered f).name = g.name := fun _ => rfl
      have hparams : ∀ f, (g.renumbered f).params = g.params := fun _ => rfl
      simp only [Callable.renumbered, call, callBinds, hname, hparams]
      by_cases harity : (args.length == g.params.length) = true
      · simp only [harity, if_true]
        exact henter g args scope
      · simp only [harity, if_false, Bool.false_eq_true]
        exact .fault _

/-- What all runs do with the thing that an expression names, they do alike. It need only be looked
at for things that can be named. -/
theorem resolve_parallel {α : Type} (callee : Expr) (scope : Scope)
    {f : I → Callable σ → Act (Machine σ) α} {b : I → Callable σ → Binds (Machine σ)}
    (hf : ∀ callable : Callable σ, callable.Known setup.registry →
      Act.Parallel (c.Machines depth) (fun i => f i (callable.renumbered (c.lines i)))
        fun i => b i (callable.renumbered (c.lines i))) :
    Act.Parallel (c.Machines depth)
      (fun i =>
        Act.ofExcept (resolve setup.registry (scope.renumbered (c.lines i)) callee) >>= f i)
      fun i => resolvedBinds setup.registry callee (scope.renumbered (c.lines i)) (b i) := by
  simp only [resolvedBinds, resolve_renumbered]
  cases hresolve : resolve setup.registry scope callee with
  | ok callable => exact hf callable (known_of_resolve hresolve)
  | error cause => exact .fault cause

theorem callBare_parallel (henter : EntersParallel c depth enter entered) (callee : Expr)
    (scope : Scope) :
    Act.Parallel (c.Machines depth)
      (fun i => callBare setup.registry enter callee (scope.renumbered (c.lines i)))
      fun i => callBareBinds setup.registry entered callee (scope.renumbered (c.lines i)) :=
  resolve_parallel callee scope fun _ hknown => call_parallel henter hknown [] scope

theorem pipeBare_parallel (henter : EntersParallel c depth enter entered) (stage : Expr)
    (input : Value) (scope : Scope) :
    Act.Parallel (c.Machines depth)
      (fun i => pipeBare setup.registry enter stage input (scope.renumbered (c.lines i)))
      fun i => pipeBareBinds setup.registry entered stage input (scope.renumbered (c.lines i)) := by
  refine resolve_parallel stage scope fun callable hknown => ?_
  simp only [Callable.arity_renumbered]
  exact call_parallel henter hknown _ scope

mutual

theorem evalExpr_parallel (henter : EntersParallel c depth enter entered) (scope : Scope) :
    (e : Expr) → Act.Parallel (c.Machines depth)
      (fun i => evalExpr setup.registry enter (scope.renumbered (c.lines i)) e)
      fun i => exprBinds setup.registry enter entered (scope.renumbered (c.lines i)) e
  | .identifier name => by
      have hvalue : ∀ f, (scope.renumbered f).get? name = scope.get? name := fun _ => rfl
      simp only [evalExpr, exprBinds, hvalue]
      cases scope.get? name with
      | some value => exact .pure value
      | none => exact callBare_parallel henter _ scope
  | .number x => by
      simp only [evalExpr, exprBinds]
      exact .pure _
  | .string s => by
      simp only [evalExpr, exprBinds]
      exact .pure _
  | .hotkey text => by
      simp only [evalExpr, exprBinds]
      exact .pure _
  | .binary left op right => by
      have hl := evalExpr_parallel henter scope left
      have hr := evalExpr_parallel henter scope right
      cases op with
      | and =>
          simp only [evalExpr, exprBinds]
          refine hl.bind fun l => ?_
          cases l.asBool with
          | true => exact hr.bind_nothing fun r => .pure _
          | false => exact .pure _
      | or =>
          simp only [evalExpr, exprBinds]
          refine hl.bind fun l => ?_
          cases l.asBool with
          | true => exact .pure _
          | false => exact hr.bind_nothing fun r => .pure _
      | _ =>
          simp only [evalExpr, exprBinds]
          exact hl.bind fun l => hr.bind_nothing fun r => .ofExcept _
  | .call callee args => by
      simp only [evalExpr, exprBinds]
      refine resolve_parallel callee scope fun callable hknown => ?_
      refine (evalArgs_parallel henter scope args).bind fun values => ?_
      exact call_parallel henter hknown values scope
  | .member object property => by
      simp only [evalExpr, exprBinds]
      exact callBare_parallel henter _ scope
  | .pipeline [] => by
      simp only [evalExpr, exprBinds]
      exact .pure _
  | .pipeline (first :: rest) => by
      simp only [evalExpr, exprBinds]
      refine (evalExpr_parallel henter scope first).bind fun value => ?_
      exact evalStages_parallel henter scope value rest

theorem evalArgs_parallel (henter : EntersParallel c depth enter entered) (scope : Scope) :
    (es : List Expr) → Act.Parallel (c.Machines depth)
      (fun i => evalArgs setup.registry enter (scope.renumbered (c.lines i)) es)
      fun i => argsBinds setup.registry enter entered (scope.renumbered (c.lines i)) es
  | [] => by
      simp only [evalArgs, argsBinds]
      exact .pure _
  | e :: es => by
      simp only [evalArgs, argsBinds]
      refine (evalExpr_parallel henter scope e).bind fun value => ?_
      exact (evalArgs_parallel henter scope es).bind_nothing fun values => .pure _

theorem evalStages_parallel (henter : EntersParallel c depth enter entered) (scope : Scope) :
    (input : Value) → (stages : List Expr) → Act.Parallel (c.Machines depth)
      (fun i => evalStages setup.registry enter (scope.renumbered (c.lines i)) input stages)
      fun i => stagesBinds setup.registry enter entered (scope.renumbered (c.lines i)) input stages
  | _, [] => by
      simp only [evalStages, stagesBinds]
      exact .pure _
  | input, .call callee args :: rest => by
      simp only [evalStages, stagesBinds]
      refine resolve_parallel callee scope fun callable hknown => ?_
      refine (evalArgs_parallel henter scope args).bind fun values => ?_
      refine (call_parallel henter hknown _ scope).bind fun value => ?_
      exact evalStages_parallel henter scope value rest
  | input, .identifier name :: rest => by
      simp only [evalStages, stagesBinds]
      refine (pipeBare_parallel henter _ input scope).bind fun value => ?_
      exact evalStages_parallel henter scope value rest
  | input, .member object property :: rest => by
      simp only [evalStages, stagesBinds]
      refine (pipeBare_parallel henter _ input scope).bind fun value => ?_
      exact evalStages_parallel henter scope value rest
  | _, .number _ :: _ => by
      simp only [evalStages, stagesBinds]
      exact .fault _
  | _, .string _ :: _ => by
      simp only [evalStages, stagesBinds]
      exact .fault _
  | _, .hotkey _ :: _ => by
      simp only [evalStages, stagesBinds]
      exact .fault _
  | _, .binary _ _ _ :: _ => by
      simp only [evalStages, stagesBinds]
      exact .fault _
  | _, .pipeline _ :: _ => by
      simp only [evalStages, stagesBinds]
      exact .fault _

end

end Expressions

section Statements

theorem valueOf_parallel (henter : EntersParallel c depth enter entered) (e : Expr) :
    Act.Parallel (c.Runs depth) (fun _ => valueOf setup enter e)
      fun _ => valueBinds setup enter entered e := by
  intro made r hr
  obtain ⟨scope, hscope⟩ := hr.scope
  obtain ⟨result, hresult, hmachines⟩ := evalExpr_parallel henter scope e made _ hr.machines
  simp only [← hscope] at hresult hmachines
  exact ⟨result, hresult, ⟨scope, hscope⟩, hmachines⟩

theorem valueOf?_parallel (henter : EntersParallel c depth enter entered) (e : Option Expr) :
    Act.Parallel (c.Runs depth) (fun _ => valueOf? setup enter e)
      fun _ => value?Binds setup enter entered e := by
  cases e with
  | none => exact .pure _
  | some e => exact valueOf_parallel henter e

theorem hotkeyOf_parallel (henter : EntersParallel c depth enter entered) (hotkey : Expr) :
    Act.Parallel (c.Runs depth) (fun _ => hotkeyOf setup enter hotkey)
      fun _ => hotkeyBinds setup enter entered hotkey := by
  cases hotkey with
  | hotkey text => exact .pure text
  | string text => exact .pure text
  | _ => exact (valueOf_parallel henter _).bind_nothing fun value => .pure _

/-- All runs store one action in the scope that they share. -/
theorem bind_parallel (text : String) (action : Stmt) :
    Act.Parallel (c.Runs depth)
      (fun i => (modify fun r =>
        { r with
          machine := r.machine.bind setup.host text (action.renumbered (c.lines i)) r.scope }
        : Act (Run σ) Unit))
      fun i r => [⟨text, action.renumbered (c.lines i), r.scope⟩] := by
  intro made r hr
  obtain ⟨scope, hscope⟩ := hr.scope
  have hmachines := hr.machines.bind ⟨text, action, scope⟩
  simp only [Binding.renumbered, ← hscope] at hmachines
  exact ⟨.ok (), fun _ => rfl, ⟨scope, hscope⟩, hmachines⟩

/-- All runs change the scope that they share in one way. -/
theorem rescope_parallel {f : I → Scope → Scope} {g : Scope → Scope}
    (h : ∀ i scope, f i (scope.renumbered (c.lines i)) = (g scope).renumbered (c.lines i)) :
    Act.Parallel (c.Runs depth) (fun i => (rescope (f i) : Act (Run σ) Unit))
      fun _ => .nothing := by
  intro made r hr
  obtain ⟨scope, hscope⟩ := hr.scope
  have hmade : (fun i => made i ++ Binds.nothing (r i)) = made :=
    funext fun i => List.append_nil (made i)
  rw [hmade]
  refine ⟨.ok (), fun _ => rfl, ⟨g scope, fun i => ?_⟩, hr.machines⟩
  show f i (r i).scope = _
  rw [hscope i, h]

mutual

theorem evalStmt_parallel (henter : EntersParallel c depth enter entered) : (s : Stmt) →
    Act.Parallel (c.Runs depth) (fun i => evalStmt setup enter (s.renumbered (c.lines i)))
      fun i => stmtBinds setup enter entered (s.renumbered (c.lines i))
  | .bind hotkey action line => by
      simp only [Stmt.renumbered, evalStmt, stmtBinds]
      refine (hotkeyOf_parallel henter hotkey).bind fun text => ?_
      exact (bind_parallel text action).bind_nothing fun _ => .pure _
  | .block body => by
      simp only [Stmt.renumbered, evalStmt, stmtBinds]
      exact evalBlock_parallel henter .null body
  | .expr e => by
      simp only [Stmt.renumbered, evalStmt, stmtBinds]
      exact (valueOf_parallel henter e).bind_nothing fun value => .pure _
  | .assign name e => by
      simp only [Stmt.renumbered, evalStmt, stmtBinds]
      refine (valueOf?_parallel henter e).bind_nothing fun value => ?_
      exact (rescope_parallel (g := (·.set name value)) fun _ _ => rfl).bind_nothing fun _ =>
        .pure _
  | .branch condition consequence none => by
      simp only [Stmt.renumbered, evalStmt, stmtBinds]
      refine (valueOf_parallel henter condition).bind fun value => ?_
      cases value.asBool with
      | true => exact evalStmt_parallel henter consequence
      | false => exact .pure _
  | .branch condition consequence (some alternative) => by
      simp only [Stmt.renumbered, evalStmt, stmtBinds]
      refine (valueOf_parallel henter condition).bind fun value => ?_
      cases value.asBool with
      | true => exact evalStmt_parallel henter consequence
      | false => exact evalStmt_parallel henter alternative
  | .loop condition body => by
      simp only [Stmt.renumbered, evalStmt, stmtBinds]
      refine Act.Parallel.repeatUntil ?_ setup.limits.loops
      refine (valueOf_parallel henter condition).bind fun value => ?_
      cases value.asBool with
      | true =>
          refine (evalStmt_parallel henter body).bind_nothing fun flow => ?_
          cases flow <;> exact .pure _
      | false => exact .pure _
  | .leave e => by
      simp only [Stmt.renumbered, evalStmt, stmtBinds]
      exact (valueOf?_parallel henter e).bind_nothing fun value => .pure _
  | .function name params body => by
      simp only [Stmt.renumbered, evalStmt, stmtBinds]
      refine (rescope_parallel (g := (·.define ⟨name, params, body⟩)) ?_).bind_nothing fun _ =>
        .pure _
      exact fun i scope => (Scope.renumbered_define _ scope ⟨name, params, body⟩).symm

theorem evalBlock_parallel (henter : EntersParallel c depth enter entered) :
    (last : Value) → (body : List Stmt) → Act.Parallel (c.Runs depth)
      (fun i => evalBlock setup enter last (body.map fun s => s.renumbered (c.lines i)))
      fun i => blockBinds setup enter entered (body.map fun s => s.renumbered (c.lines i))
  | _, [] => by
      simp only [List.map_nil, evalBlock, blockBinds]
      exact .pure _
  | _, s :: rest => by
      simp only [List.map_cons, evalBlock, blockBinds]
      refine (evalStmt_parallel henter s).bind fun flow => ?_
      cases flow with
      | normal value => exact evalBlock_parallel henter value rest
      | left value => exact .pure _

end

/-- Calls of declared functions run in parallel. Inside, one more call is open. -/
theorem enterWith_parallel (c : Ensemble setup I) : (room depth : Nat) →
    EntersParallel c depth (enterWith setup room) (enterWithBinds setup room)
  | 0, _ => fun _ _ _ => .fault _
  | room + 1, depth => by
      intro g args scope made m hm
      have hstart : c.Runs (depth + 1) made fun i =>
          (⟨(scope.renumbered (c.lines i)).enter g.params args,
            { m i with depth := (m i).depth + 1 }⟩ : Run σ) := by
        refine ⟨⟨scope.enter g.params args, fun i => ?_⟩, hm.host, fun i => ?_⟩
        · exact (Scope.renumbered_enter _ scope g.params args).symm
        · exact congrArg (· + 1) (hm.depth i)
      obtain ⟨result, hresult, hend⟩ :=
        evalStmt_parallel (enterWith_parallel c room (depth + 1)) g.body made _ hstart
      refine ⟨result.map Flow.value, fun i => congrArg (Except.map Flow.value) (hresult i),
        hend.machines.host, fun i => ?_⟩
      exact congrArg (· - 1) (hend.machines.depth i)

theorem enterFrom_parallel (c : Ensemble setup I) (depth : Nat) :
    EntersParallel c depth (enterFrom setup depth) (enterFromBinds setup depth) :=
  enterWith_parallel c _ depth

/-- **One statement in parallel**: the same result everywhere. -/
theorem evaluateStatement_parallel (c : Ensemble setup I) (depth : Nat) (s : Stmt) :
    Act.Parallel (c.Runs depth) (fun i => evaluateStatement setup (s.renumbered (c.lines i)))
      fun i => statementBinds setup (s.renumbered (c.lines i)) := by
  intro made r hr
  obtain ⟨result, hresult, hend⟩ := evalStmt_parallel (enterFrom_parallel c depth) s made r hr
  have hevaluate : ∀ i, evaluateStatement setup (s.renumbered (c.lines i)) (r i) =
      ((evalStmt setup (enterFrom setup depth) (s.renumbered (c.lines i)) (r i)).1.map Flow.value,
        (evalStmt setup (enterFrom setup depth) (s.renumbered (c.lines i)) (r i)).2) := by
    intro i
    rw [evaluateStatement, hr.machines.depth i]
    rfl
  have hmade : ∀ i, statementBinds setup (s.renumbered (c.lines i)) (r i) =
      stmtBinds setup (enterFrom setup depth) (enterFromBinds setup depth)
        (s.renumbered (c.lines i)) (r i) := by
    intro i
    rw [statementBinds, hr.machines.depth i]
  simp only [hevaluate, hmade]
  exact ⟨result.map Flow.value, fun i => congrArg (Except.map Flow.value) (hresult i), hend⟩

end Statements

end Eval
end Chord
