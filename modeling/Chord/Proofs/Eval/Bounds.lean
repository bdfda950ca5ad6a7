import Chord.Proofs.Eval.Act

/-!
# Wider bounds

A run is given up when a loop repeats too often or when too many calls are open. Such an end is the
only thing that wider bounds can change.

**Input.** A set of ends that count as giving up, and two setups of which the second has the wider
bounds.

**Results.** `evaluate_widened`: a program that was not given up does the same under the wider
bounds. `evaluate_loops_unique`: complete runs under any two bounds on repetitions are one run.
-/

namespace Chord

/-- The second act does what the first one does, unless that was given up. -/
def Act.Widened {S α : Type} (given : Stop → Prop) (x y : Act S α) : Prop :=
  ∀ s, (∃ e, given e ∧ (x s).1 = .error e) ∨ y s = x s

namespace Act

variable {S α β : Type} {given : Stop → Prop}

theorem Widened.refl (x : Act S α) : Widened given x x :=
  fun _ => Or.inr rfl

theorem Widened.bind {x y : Act S α} {f g : α → Act S β} (hxy : Widened given x y)
    (hfg : ∀ a, Widened given (f a) (g a)) : Widened given (x >>= f) (y >>= g) := by
  intro s
  rw [bind_apply, bind_apply]
  rcases hxy s with ⟨e, he, hx⟩ | hx
  · left
    rcases hrun : x s with ⟨result, s'⟩
    rw [hrun] at hx
    obtain rfl : result = .error e := hx
    exact ⟨e, he, rfl⟩
  · rw [hx]
    rcases x s with ⟨e | a, s'⟩
    · exact Or.inr rfl
    · exact hfg a s'

theorem Widened.repeatUntil {step step' : Act S (Option α)} (hstep : Widened given step step') :
    ∀ {n n' : Nat}, n ≤ n' → (given .unfinished ∨ n = n') →
      Widened (α := α) given (Act.repeatUntil step n) (Act.repeatUntil step' n')
  | 0, n', _, hn => by
      intro s
      rcases hn with hgiven | rfl
      · exact Or.inl ⟨.unfinished, hgiven, rfl⟩
      · exact Or.inr rfl
  | n + 1, 0, hle, _ => by omega
  | n + 1, n' + 1, hle, hn => by
      intro s
      have hrest : Widened (α := α) given (Act.repeatUntil step n) (Act.repeatUntil step' n') :=
        Widened.repeatUntil hstep (by omega) (hn.imp id (by omega))
      unfold Act.repeatUntil
      rcases hstep s with ⟨e, he, hx⟩ | hx
      · left
        rcases hrun : step s with ⟨result, s'⟩
        rw [hrun] at hx
        obtain rfl : result = .error e := hx
        exact ⟨e, he, rfl⟩
      · rw [hx]
        rcases step s with ⟨e | ending, s'⟩
        · exact Or.inr rfl
        · cases ending with
          | none => exact hrest s'
          | some a => exact Or.inr rfl

end Act

/-- The second setup differs from the first one only in bounds that are wider; a bound that differs
counts as giving up. -/
structure Setup.Widened {σ : Type} (given : Stop → Prop) (s t : Setup σ) : Prop where
  host : s.host = t.host
  registry : s.registry = t.registry
  loops : s.limits.loops ≤ t.limits.loops
  calls : s.limits.calls ≤ t.limits.calls
  unfinished : given .unfinished ∨ s.limits.loops = t.limits.loops
  exceeded : given (.fault (.callDepthExceeded s.limits.calls)) ∨ s.limits.calls = t.limits.calls

namespace Eval

variable {σ α : Type} {given : Stop → Prop}

theorem reading_widened {x y : Scope → Act (Machine σ) α}
    (h : ∀ scope, Act.Widened given (x scope) (y scope)) :
    Act.Widened given (reading x) (reading y) := by
  intro r
  unfold reading
  rcases h r.scope r.machine with ⟨e, he, hx⟩ | hx
  · exact Or.inl ⟨e, he, hx⟩
  · rw [hx]
    exact Or.inr rfl

/-- Calls of declared functions that differ only in being given up. -/
def EntersWidened (given : Stop → Prop) (enter enter' : Enter σ) : Prop :=
  ∀ (f : Function) (args : List Value) (scope : Scope),
    Act.Widened given (enter f args scope) (enter' f args scope)

section Expressions

variable (registry : Registry σ) {enter enter' : Enter σ}

theorem call_widened (henter : EntersWidened given enter enter') (c : Callable σ)
    (args : List Value) (scope : Scope) :
    Act.Widened given (call enter c args scope) (call enter' c args scope) := by
  cases c with
  | builtin b => exact .refl _
  | user f =>
      unfold call
      simp only
      split
      · exact henter f args scope
      · exact .refl _

theorem callBare_widened (henter : EntersWidened given enter enter') (callee : Expr)
    (scope : Scope) :
    Act.Widened given (callBare registry enter callee scope)
      (callBare registry enter' callee scope) :=
  (Act.Widened.refl _).bind fun c => call_widened henter c [] scope

theorem pipeBare_widened (henter : EntersWidened given enter enter') (stage : Expr)
    (input : Value) (scope : Scope) :
    Act.Widened given (pipeBare registry enter stage input scope)
      (pipeBare registry enter' stage input scope) :=
  (Act.Widened.refl _).bind fun c => call_widened henter c _ scope

mutual

theorem evalExpr_widened (henter : EntersWidened given enter enter') (scope : Scope) : (e : Expr) →
    Act.Widened given (evalExpr registry enter scope e) (evalExpr registry enter' scope e)
  | .identifier name => by
      simp only [evalExpr]
      cases scope.get? name with
      | some value => exact .refl _
      | none => exact callBare_widened registry henter _ scope
  | .number _ => by
      simp only [evalExpr]
      exact .refl _
  | .string _ => by
      simp only [evalExpr]
      exact .refl _
  | .hotkey _ => by
      simp only [evalExpr]
      exact .refl _
  | .binary left op right => by
      have hl := evalExpr_widened henter scope left
      have hr := evalExpr_widened henter scope right
      cases op with
      | and =>
          simp only [evalExpr]
          refine hl.bind fun l => ?_
          split
          · exact hr.bind fun r => .refl _
          · exact .refl _
      | or =>
          simp only [evalExpr]
          refine hl.bind fun l => ?_
          split
          · exact .refl _
          · exact hr.bind fun r => .refl _
      | _ =>
          simp only [evalExpr]
          exact hl.bind fun l => hr.bind fun r => .refl _
  | .call callee args => by
      simp only [evalExpr]
      refine (Act.Widened.refl _).bind fun c => ?_
      refine (evalArgs_widened henter scope args).bind fun values => ?_
      exact call_widened henter c values scope
  | .member object property => by
      simp only [evalExpr]
      exact callBare_widened registry henter _ scope
  | .pipeline [] => by
      simp only [evalExpr]
      exact .refl _
  | .pipeline (first :: rest) => by
      simp only [evalExpr]
      refine (evalExpr_widened henter scope first).bind fun value => ?_
      exact evalStages_widened henter scope value rest

theorem evalArgs_widened (henter : EntersWidened given enter enter') (scope : Scope) :
    (es : List Expr) →
    Act.Widened given (evalArgs registry enter scope es) (evalArgs registry enter' scope es)
  | [] => by
      simp only [evalArgs]
      exact .refl _
  | e :: es => by
      simp only [evalArgs]
      refine (evalExpr_widened henter scope e).bind fun value => ?_
      exact (evalArgs_widened henter scope es).bind fun values => .refl _

theorem evalStages_widened (henter : EntersWidened given enter enter') (scope : Scope) :
    (input : Value) → (stages : List Expr) →
    Act.Widened given (evalStages registry enter scope input stages)
      (evalStages registry enter' scope input stages)
  | _, [] => by
      simp only [evalStages]
      exact .refl _
  | input, .call callee args :: rest => by
      simp only [evalStages]
      refine (Act.Widened.refl _).bind fun c => ?_
      refine (evalArgs_widened henter scope args).bind fun values => ?_
      refine (call_widened henter c _ scope).bind fun value => ?_
      exact evalStages_widened henter scope value rest
  | input, .identifier name :: rest => by
      simp only [evalStages]
      refine (pipeBare_widened registry henter _ input scope).bind fun value => ?_
      exact evalStages_widened henter scope value rest
  | input, .member object property :: rest => by
      simp only [evalStages]
      refine (pipeBare_widened registry henter _ input scope).bind fun value => ?_
      exact evalStages_widened henter scope value rest
  | _, .number _ :: _ => by
      simp only [evalStages]
      exact .refl _
  | _, .string _ :: _ => by
      simp only [evalStages]
      exact .refl _
  | _, .hotkey _ :: _ => by
      simp only [evalStages]
      exact .refl _
  | _, .binary _ _ _ :: _ => by
      simp only [evalStages]
      exact .refl _
  | _, .pipeline _ :: _ => by
      simp only [evalStages]
      exact .refl _

end

end Expressions

section Statements

variable {setup setup' : Setup σ} {enter enter' : Enter σ}

theorem valueOf_widened (hsetup : setup.Widened given setup')
    (henter : EntersWidened given enter enter') (e : Expr) :
    Act.Widened given (valueOf setup enter e) (valueOf setup' enter' e) := by
  refine reading_widened fun scope => ?_
  rw [← hsetup.registry]
  exact evalExpr_widened setup.registry henter scope e

theorem valueOf?_widened (hsetup : setup.Widened given setup')
    (henter : EntersWidened given enter enter') (e : Option Expr) :
    Act.Widened given (valueOf? setup enter e) (valueOf? setup' enter' e) := by
  cases e with
  | none => exact .refl _
  | some e => exact valueOf_widened hsetup henter e

theorem hotkeyOf_widened (hsetup : setup.Widened given setup')
    (henter : EntersWidened given enter enter') (hotkey : Expr) :
    Act.Widened given (hotkeyOf setup enter hotkey) (hotkeyOf setup' enter' hotkey) := by
  unfold hotkeyOf
  split
  · exact .refl _
  · exact .refl _
  · exact (valueOf_widened hsetup henter _).bind fun value => .refl _

mutual

theorem evalStmt_widened (hsetup : setup.Widened given setup')
    (henter : EntersWidened given enter enter') : (s : Stmt) →
    Act.Widened given (evalStmt setup enter s) (evalStmt setup' enter' s)
  | .bind hotkey action _ => by
      simp only [evalStmt]
      rw [← hsetup.host]
      exact (hotkeyOf_widened hsetup henter hotkey).bind fun text => .refl _
  | .block body => by
      simp only [evalStmt]
      exact evalBlock_widened hsetup henter .null body
  | .expr e => by
      simp only [evalStmt]
      exact (valueOf_widened hsetup henter e).bind fun value => .refl _
  | .assign name e => by
      simp only [evalStmt]
      exact (valueOf?_widened hsetup henter e).bind fun value => .refl _
  | .branch condition consequence none => by
      simp only [evalStmt]
      refine (valueOf_widened hsetup henter condition).bind fun value => ?_
      split
      · exact evalStmt_widened hsetup henter consequence
      · exact .refl _
  | .branch condition consequence (some alternative) => by
      simp only [evalStmt]
      refine (valueOf_widened hsetup henter condition).bind fun value => ?_
      split
      · exact evalStmt_widened hsetup henter consequence
      · exact evalStmt_widened hsetup henter alternative
  | .loop condition body => by
      simp only [evalStmt]
      refine Act.Widened.repeatUntil ?_ hsetup.loops hsetup.unfinished
      refine (valueOf_widened hsetup henter condition).bind fun value => ?_
      split
      · exact (evalStmt_widened hsetup henter body).bind fun flow => .refl _
      · exact .refl _
  | .leave e => by
      simp only [evalStmt]
      exact (valueOf?_widened hsetup henter e).bind fun value => .refl _
  | .function name params body => by
      simp only [evalStmt]
      exact .refl _

theorem evalBlock_widened (hsetup : setup.Widened given setup')
    (henter : EntersWidened given enter enter') : (last : Value) → (body : List Stmt) →
    Act.Widened given (evalBlock setup enter last body) (evalBlock setup' enter' last body)
  | _, [] => by
      simp only [evalBlock]
      exact .refl _
  | _, s :: rest => by
      simp only [evalBlock]
      refine (evalStmt_widened hsetup henter s).bind fun flow => ?_
      cases flow with
      | normal value => exact evalBlock_widened hsetup henter value rest
      | left value => exact .refl _

end

/-- Calls of declared functions with more room differ only in being given up. -/
theorem enterWith_widened (hsetup : setup.Widened given setup') :
    ∀ {room room' : Nat}, room ≤ room' →
      (given (.fault (.callDepthExceeded setup.limits.calls)) ∨
        room = room' ∧ setup.limits.calls = setup'.limits.calls) →
      EntersWidened given (enterWith setup room) (enterWith setup' room')
  | 0, room', _, hroom => by
      intro f args scope m
      rcases hroom with hgiven | ⟨rfl, hcalls⟩
      · exact Or.inl ⟨_, hgiven, rfl⟩
      · unfold enterWith
        rw [hcalls]
        exact Or.inr rfl
  | room + 1, 0, hle, _ => by omega
  | room + 1, room' + 1, hle, hroom => by
      intro f args scope m
      have hdeeper : EntersWidened given (enterWith setup room) (enterWith setup' room') := by
        refine enterWith_widened hsetup (by omega) (hroom.imp id ?_)
        rintro ⟨heq, hcalls⟩
        exact ⟨by omega, hcalls⟩
      unfold enterWith
      simp only
      rcases evalStmt_widened hsetup hdeeper f.body
        ⟨scope.enter f.params args, { m with depth := m.depth + 1 }⟩ with ⟨e, he, hx⟩ | hx
      · left
        refine ⟨e, he, ?_⟩
        show Except.map _ _ = _
        rw [hx]
        rfl
      · rw [hx]
        exact Or.inr rfl

theorem enterFrom_widened (hsetup : setup.Widened given setup') (depth : Nat) :
    EntersWidened given (enterFrom setup depth) (enterFrom setup' depth) := by
  have hcalls := hsetup.calls
  refine enterWith_widened hsetup (by omega) (hsetup.exceeded.imp id ?_)
  intro heq
  exact ⟨by omega, heq⟩

theorem evaluateStatement_widened (hsetup : setup.Widened given setup') (s : Stmt) (r : Run σ) :
    (∃ e, given e ∧ (evaluateStatement setup s r).1 = .error e) ∨
      evaluateStatement setup' s r = evaluateStatement setup s r := by
  unfold evaluateStatement
  rcases evalStmt_widened hsetup (enterFrom_widened hsetup r.machine.depth) s r with
    ⟨e, he, hx⟩ | hx
  · left
    refine ⟨e, he, ?_⟩
    show Except.map _ _ = _
    rw [hx]
    rfl
  · rw [hx]
    exact Or.inr rfl

/-- **Wider bounds keep what was not given up**: result, scope, bindings and host. -/
theorem evaluate_widened (hsetup : setup.Widened given setup') (p : Program) (r : Run σ) :
    (∃ e, given e ∧ (evaluate setup p r).1 = .error e) ∨
      evaluate setup' p r = evaluate setup p r := by
  rw [evaluate_eq_evaluateStatement, evaluate_eq_evaluateStatement]
  exact evaluateStatement_widened hsetup _ _

end Statements

/-- Complete runs under any two bounds on repetitions are one run. -/
theorem evaluate_loops_unique {host : Host σ} {registry : Registry σ} {calls n n' : Nat}
    {p : Program} {r : Run σ}
    (hn : (evaluate ⟨host, registry, ⟨calls, n⟩⟩ p r).1 ≠ .error .unfinished)
    (hn' : (evaluate ⟨host, registry, ⟨calls, n'⟩⟩ p r).1 ≠ .error .unfinished) :
    evaluate ⟨host, registry, ⟨calls, n⟩⟩ p r = evaluate ⟨host, registry, ⟨calls, n'⟩⟩ p r := by
  have hwider : ∀ {k k' : Nat}, k ≤ k' →
      (evaluate ⟨host, registry, ⟨calls, k⟩⟩ p r).1 ≠ .error .unfinished →
      evaluate ⟨host, registry, ⟨calls, k'⟩⟩ p r = evaluate ⟨host, registry, ⟨calls, k⟩⟩ p r := by
    intro k k' hle hk
    have hsetup : Setup.Widened (· = .unfinished) ⟨host, registry, ⟨calls, k⟩⟩
        ⟨host, registry, ⟨calls, k'⟩⟩ :=
      ⟨rfl, rfl, hle, Nat.le_refl calls, Or.inl rfl, Or.inr rfl⟩
    rcases evaluate_widened hsetup p r with ⟨e, rfl, hx⟩ | hx
    · exact absurd hx hk
    · exact hx
  rcases Nat.le_total n n' with hle | hle
  · exact (hwider hle hn).symm
  · exact hwider hle hn'

end Eval
end Chord
