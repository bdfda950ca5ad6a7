import Chord.Proofs.Eval.Parallel

/-!
# What the interpreter keeps

A run calls built-in functions and binds hotkeys, and it does nothing else to the host and to the
bindings. What these two steps keep is therefore kept by every run, however it ends.

**Input.** A property of what has been bound so far, of a state of the host and of bindings, that
every built-in function and every new binding keep: it is `Upheld`.

**Algorithm.** A single run is a family of runs in parallel, with the property for their relation.

**Results.** `evaluate_keeps`, `Machine.invoke_keeps` and their companions say of the operations of
an interpreter that the property holds again, with the bindings that the operation makes.
-/

namespace Chord

variable {σ : Type}

/-- Every built-in function and every new binding keep a property of what has been bound so far, of
the state of the host and of the bindings. -/
structure Upheld (setup : Setup σ) (P : List Binding → σ → Table Binding → Prop) : Prop where
  call : ∀ made bindings, setup.registry.Keeps (P made · bindings)
  bind : ∀ {made state bindings}, P made state bindings → ∀ b : Binding,
    P (made ++ [b]) (setup.host.register b.key state) (bindings.insert b.key b)

/-- A property of what has been bound so far, of the state of the host and of the bindings, said of
a machine. -/
def Machine.Has (P : List Binding → σ → Table Binding → Prop) (made : List Binding)
    (m : Machine σ) : Prop :=
  P made m.host m.bindings

variable {setup : Setup σ} {P : List Binding → σ → Table Binding → Prop}

/-- A family of one run. -/
def Upheld.ensemble (hP : Upheld setup P) : Ensemble setup Unit where
  lines _ := fun line => line
  Related made state tables := P (made ()) state (tables ())
  call made tables := hP.call (made ()) (tables ())
  bind h b := by
    rw [Binding.renumbered_id]
    exact hP.bind h b

namespace Eval

/-- A property of what has been bound so far, of the state of the host and of the bindings, said of
a run. -/
def Run.Has (P : List Binding → σ → Table Binding → Prop) (made : List Binding) (r : Run σ) :
    Prop :=
  r.machine.Has P made

/-- What holds in a family of one run. -/
theorem Run.Has.parallel {α : Type} (hP : Upheld setup P) {r : Run σ} {made : List Binding}
    (hr : r.Has P made) {x : Act (Run σ) α} {b : Binds (Run σ)}
    (hx : Act.Parallel (hP.ensemble.Runs r.machine.depth) (fun _ => x) fun _ => b) :
    (x r).2.Has P (made ++ b r) := by
  have hstart : hP.ensemble.Runs r.machine.depth (fun _ => made) fun _ => r :=
    ⟨⟨r.scope, fun _ => (Scope.renumbered_id r.scope).symm⟩, ⟨r.machine.host, fun _ => rfl, hr⟩,
      fun _ => rfl⟩
  obtain ⟨-, -, hend⟩ := hx _ _ hstart
  obtain ⟨state, hstate, hrelated⟩ := hend.machines.host
  obtain rfl := hstate ()
  exact hrelated

/-- A statement keeps what is upheld. -/
theorem evaluateStatement_keeps (hP : Upheld setup P) (s : Stmt) {r : Run σ}
    (made : List Binding) (hr : r.Has P made) :
    (evaluateStatement setup s r).2.Has P (made ++ statementBinds setup s r) := by
  have hparallel := evaluateStatement_parallel hP.ensemble r.machine.depth s
  have hline : ∀ i, s.renumbered (hP.ensemble.lines i) = s := fun _ => Stmt.renumbered_id s
  simp only [hline] at hparallel
  exact hr.parallel hP hparallel

/-- A program keeps what is upheld. -/
theorem evaluate_keeps (hP : Upheld setup P) (p : Program) {r : Run σ} (made : List Binding)
    (hr : r.Has P made) :
    (evaluate setup p r).2.Has P (made ++ programBinds setup p r) := by
  rw [evaluate_eq_evaluateStatement]
  exact evaluateStatement_keeps hP (.block p.statements) (r := r.opened p) made hr

/-- An expression keeps what is upheld. -/
theorem evaluateExpression_keeps (hP : Upheld setup P) (e : Expr) {r : Run σ}
    (made : List Binding) (hr : r.Has P made) :
    (evaluateExpression setup e r).2.Has P
      (made ++ valueBinds setup (enterFrom setup r.machine.depth)
        (enterFromBinds setup r.machine.depth) e r) :=
  hr.parallel hP (x := valueOf setup (enterFrom setup r.machine.depth) e)
    (valueOf_parallel (enterFrom_parallel hP.ensemble r.machine.depth) e)

end Eval

namespace Machine

open Eval

variable {m : Machine σ}

/-- A bound action keeps what is upheld. -/
theorem invoke_keeps (hP : Upheld setup P) (hotkey : String) (made : List Binding)
    (hm : m.Has P made) :
    (m.invoke setup hotkey).2.Has P (made ++ m.invokeBinds setup hotkey) := by
  cases hbound : m.bindings.get? (normalize hotkey) with
  | none =>
      simp only [invoke, invokeBinds, hbound, List.append_nil]
      exact hm
  | some b =>
      simp only [invoke, invokeBinds, hbound]
      exact evaluateStatement_keeps hP b.action (r := ⟨b.scope, _⟩) made hm

theorem trigger_keeps (hP : Upheld setup P) (hotkey : String) (made : List Binding)
    (hm : m.Has P made) :
    (m.trigger setup hotkey).2.Has P (made ++ m.invokeBinds setup hotkey) := by
  have hinvoke := invoke_keeps hP hotkey made hm
  unfold trigger
  split
  · rename_i hrun
    rw [hrun] at hinvoke
    exact hinvoke
  · exact hinvoke

end Machine

end Chord
