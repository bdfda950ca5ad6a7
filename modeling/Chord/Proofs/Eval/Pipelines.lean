import Chord.Host.Desktop
import Chord.Library.Standard
import Chord.Proofs.Eval.Act

/-!
# Pipelines are nested calls

A pipeline hands the value of each stage to the next one as its first argument. It finds out what a
stage calls only when the value has reached it, while a nested call looks up its function before its
arguments are evaluated. The two orders cannot be told apart where every look-up succeeds, because
evaluating an expression leaves the scope alone.

**Input.** A scope, an expression and the stages that its value is handed through.

**Algorithm.** The stages are taken off the front: a pipeline is the pipeline whose first stage is
the call of the second one on the first (`evalExpr_fed` is one step of that).

**Results.** `evaluateExpression_nested`: a pipeline and the call it stands for have the same result
and leave the same state.
-/

namespace Chord

/-- The call of a stage with an expression in front of its arguments. -/
def Expr.fed (input : Expr) : Expr → Expr
  | .call callee args => .call callee (input :: args)
  | stage => .call stage [input]

namespace Eval

variable {σ : Type}

/-- A stage of which it is known what it calls. One that is a bare name takes an argument. -/
def TakesInput (registry : Registry σ) (scope : Scope) : Expr → Prop
  | .call callee _ => ∃ c, resolve registry scope callee = .ok c
  | .identifier name => ∃ c, resolve registry scope (.identifier name) = .ok c ∧ c.arity ≠ 0
  | .member object property =>
      ∃ c, resolve registry scope (.member object property) = .ok c ∧ c.arity ≠ 0
  | _ => False

section Stages

variable {registry : Registry σ} {enter : Enter σ} {scope : Scope}

theorem ofExcept_bind {S α β : Type} {r : Except Fault α} {a : α} (h : r = .ok a)
    (f : α → Act S β) : (Act.ofExcept r >>= f) = f a := by
  rw [h]
  rfl

/-- A stage hands its value to the stages behind it. -/
theorem evalStages_cons (input : Value) (stage : Expr) (rest : List Expr) :
    evalStages registry enter scope input (stage :: rest) =
      (evalStages registry enter scope input [stage] >>= fun value =>
        evalStages registry enter scope value rest) := by
  cases stage with
  | call callee args =>
      simp only [evalStages, Act.bind_assoc_act, Act.pure_bind_act]
  | identifier name =>
      simp only [evalStages, Act.bind_assoc_act, Act.pure_bind_act]
  | member object property =>
      simp only [evalStages, Act.bind_assoc_act, Act.pure_bind_act]
  | _ =>
      simp only [evalStages]
      rfl

/-- A call on arguments with an expression in front of them. -/
theorem evalExpr_call_cons {callee : Expr} {c : Callable σ}
    (hc : resolve registry scope callee = .ok c) (input : Expr) (args : List Expr) :
    evalExpr registry enter scope (.call callee (input :: args)) = (do
      let value ← evalExpr registry enter scope input
      let values ← evalArgs registry enter scope args
      call enter c (value :: values) scope) := by
  simp only [evalExpr, evalArgs, ofExcept_bind hc, Act.bind_assoc_act, Act.pure_bind_act]

/-- A call on one argument. -/
theorem evalExpr_call_singleton {callee : Expr} {c : Callable σ}
    (hc : resolve registry scope callee = .ok c) (input : Expr) :
    evalExpr registry enter scope (.call callee [input]) = (do
      let value ← evalExpr registry enter scope input
      call enter c [value] scope) := by
  simp only [evalExpr_call_cons hc, evalArgs, Act.pure_bind_act]

/-- A bare name that takes an argument is called on what it is handed. -/
theorem pipeBare_eq {stage : Expr} {c : Callable σ} (hc : resolve registry scope stage = .ok c)
    (harity : c.arity ≠ 0) (input : Value) :
    pipeBare registry enter stage input scope = call enter c [input] scope := by
  have hne : (c.arity == 0) = false := by simpa using harity
  simp only [pipeBare, ofExcept_bind hc, hne, Bool.false_eq_true, if_false]

/-- The call of a stage on an expression is what the stage makes of its value. -/
theorem evalExpr_fed {stage : Expr} (h : TakesInput registry scope stage) (input : Expr) :
    evalExpr registry enter scope (input.fed stage) =
      (evalExpr registry enter scope input >>= fun value =>
        evalStages registry enter scope value [stage]) := by
  cases stage with
  | call callee args =>
      obtain ⟨c, hc⟩ := h
      simp only [Expr.fed, evalExpr_call_cons hc, evalStages, ofExcept_bind hc, Act.bind_pure_act]
  | identifier name =>
      obtain ⟨c, hc, harity⟩ := h
      simp only [Expr.fed, evalExpr_call_singleton hc, evalStages, pipeBare_eq hc harity,
        Act.bind_pure_act]
  | member object property =>
      obtain ⟨c, hc, harity⟩ := h
      simp only [Expr.fed, evalExpr_call_singleton hc, evalStages, pipeBare_eq hc harity,
        Act.bind_pure_act]
  | _ => exact h.elim

/-- A pipeline is evaluated like the nested call of its stages. -/
theorem evalExpr_pipeline_eq_fed (first : Expr) (stages : List Expr)
    (h : ∀ stage ∈ stages, TakesInput registry scope stage) :
    evalExpr registry enter scope (.pipeline (first :: stages)) =
      evalExpr registry enter scope (stages.foldl Expr.fed first) := by
  induction stages generalizing first with
  | nil => simp only [List.foldl_nil, evalExpr, evalStages, Act.bind_pure_act]
  | cons stage rest ih =>
      have hstage := h stage List.mem_cons_self
      have hrest : ∀ later ∈ rest, TakesInput registry scope later :=
        fun later hlater => h later (List.mem_cons_of_mem stage hlater)
      calc evalExpr registry enter scope (.pipeline (first :: stage :: rest))
        _ = (evalExpr registry enter scope first >>= fun value =>
              evalStages registry enter scope value (stage :: rest)) := by
            simp only [evalExpr]
        _ = (evalExpr registry enter scope (first.fed stage) >>= fun value =>
              evalStages registry enter scope value rest) := by
            rw [evalExpr_fed hstage, Act.bind_assoc_act]
            simp only [← evalStages_cons]
        _ = evalExpr registry enter scope (.pipeline (first.fed stage :: rest)) := by
            simp only [evalExpr]
        _ = evalExpr registry enter scope ((stage :: rest).foldl Expr.fed first) :=
            ih (first.fed stage) hrest

end Stages

/-- **A pipeline is a nested call.** In every state a pipeline whose stages can all be called gives
the result that the nested call gives, a fault or a stop included, and leaves the same host, the
same bindings and the same scope. -/
theorem evaluateExpression_nested (setup : Setup σ) (r : Run σ) (first : Expr)
    {stages : List Expr} (h : ∀ stage ∈ stages, TakesInput setup.registry r.scope stage) :
    evaluateExpression setup (.pipeline (first :: stages)) r =
      evaluateExpression setup (stages.foldl Expr.fed first) r := by
  unfold evaluateExpression valueOf reading
  simp only [evalExpr_pipeline_eq_fed first stages h]

/-- A declared function, a function of a module with more arguments and a bare global one. -/
def doubledAndSent : List Expr := [
  .identifier "twice",
  .call (.member (.identifier "text") (.identifier "contains")) [.string "aa"],
  .identifier "send"]

theorem doubledAndSent_nested :
    let setup : Setup Desktop := ⟨Desktop.host, .standard Desktop.host, ⟨256, 10⟩⟩
    let twice : Function :=
      ⟨"twice", ["x"], .leave (some (.binary (.identifier "x") .add (.identifier "x")))⟩
    let r : Run Desktop := ⟨Scope.empty.define twice, { host := .fresh "" [] }⟩
    let nested : Expr :=
      .call (.identifier "send") [
        .call (.member (.identifier "text") (.identifier "contains")) [
          .call (.identifier "twice") [.string "a"], .string "aa"]]
    evaluateExpression setup (.pipeline (.string "a" :: doubledAndSent)) r =
        evaluateExpression setup nested r ∧
      (evaluateExpression setup nested r).2.machine.host.sent = ["true"] := by
  intro setup twice r nested
  have htakes : ∀ stage ∈ doubledAndSent, TakesInput setup.registry r.scope stage := by
    intro stage hstage
    simp only [doubledAndSent, List.mem_cons, List.not_mem_nil, or_false] at hstage
    rcases hstage with rfl | rfl | rfl
    · exact ⟨.user twice, rfl, by decide⟩
    · exact ⟨_, rfl⟩
    · exact ⟨_, rfl, by decide⟩
  exact ⟨evaluateExpression_nested setup r (.string "a") htakes, by decide +kernel⟩

end Eval
end Chord
