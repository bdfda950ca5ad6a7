import Chord.Host.Desktop
import Chord.Proofs.Native.Equivalence
import Chord.Proofs.Native.Forecast

/-!
# Faults of compiled actions

**Input.** An action, a registry that was built function by function, and any state of the host.

**Results.** `invoke_fault_raised`: an action that can be compiled fails only with a division by
zero, with what a function returns that it calls, or at a variable that is read too early.
-/

namespace Chord
namespace Native

open Eval

variable {σ : Type}

/-- The faults that a compiled action can run into by itself, whatever the functions return that it
calls. -/
def OwnFault (registry : Registry σ) (action : Stmt) : Fault → Prop
  | .divisionByZero => True
  | .unknownIdentifier name => name ∈ action.letNames ∧ registry.lookupGlobal name = none
  | .arityMismatch name expected found =>
      name ∈ action.letNames ∧ found = 0 ∧ expected ≠ 0 ∧
        ∃ b, registry.lookupGlobal name = some b ∧ b.arity = expected
  | .unknownModule _ | .unknownFunction _ _ | .invalidStage _ | .callDepthExceeded _ | .host _ =>
      False

/-- A fault that is raised is one of the action's own, or some function returns it. -/
theorem Raises.ownFault {registry : Registry σ} {action : Stmt} {start state : σ} {cause : Fault}
    (h : Raises registry action start cause state)
    (hbodies : ∀ b, Calls registry action b →
      ∀ args state, (b.body args state).result ≠ .error cause) :
    OwnFault registry action cause := by
  cases h with
  | division _ _ _ => trivial
  | builtin _ hcalls _ hresult => exact absurd hresult (hbodies _ hcalls _ _)
  | unknown _ hname hglobal => exact ⟨hname, hglobal⟩
  | arguments _ hname hglobal harity => exact ⟨hname, rfl, harity, _, hglobal, rfl⟩

namespace Scene

/-- An action interpreted without any variables begins on its way. -/
theorem poised_start {x : Scene σ} {m : Machine σ} (hhost : m.host = x.start) :
    x.Poised ⟨.empty, m⟩ where
  within := ⟨fun _ => rfl, fun _ _ => rfl⟩
  host := by
    rw [hhost]
    exact .start

/-- Lowering an action foretells its run. -/
theorem action_foretells (x : Scene σ) (enter : Enter σ) :
    x.Foretells (fun _ _ => True)
      (lowerStmt x.setup.registry x.action.letNames x.action)
      (evalStmt x.setup enter x.action) :=
  lowerStmt_foretells enter x.action (fun _ h => List.mem_eraseDups.2 h) (fun _ h => h)

end Scene

/-- The result of a statement is that of its run. -/
theorem evaluateStatement_eq (setup : Setup σ) (s : Stmt) (r : Run σ) :
    evaluateStatement setup s r =
      ((evalStmt setup (enterFrom setup r.machine.depth) s r).1.map Flow.value,
        (evalStmt setup (enterFrom setup r.machine.depth) s r).2) :=
  rfl

/-- **Faults of compiled actions.** A compiled action fails with a fault that is raised at the state
of the host it leaves. If no function that it calls returns this fault, it is one of its own. -/
theorem invoke_fault_raised (setup : Setup σ) (hbuilt : setup.registry.Built) {s : Stmt}
    {a : Action} (h : compile setup.registry s = .ok a) (desk desk' : Desk σ) {cause : Fault}
    (hfault : a.invoke setup.registry setup.limits.loops desk = (.error (.fault cause), desk')) :
    Raises setup.registry s desk.host cause desk'.host ∧
      ((∀ b, Calls setup.registry s b →
          ∀ args state, (b.body args state).result ≠ .error cause) →
        OwnFault setup.registry s cause) := by
  let x : Scene σ := ⟨setup, hbuilt, s, desk.host⟩
  let m : Machine σ := { host := desk.host }
  obtain ⟨pools, hlower, -⟩ := compile_eq_ok h
  have hsafe := x.action_foretells (enterFrom setup m.depth) _ _ _ hlower ⟨.empty, m⟩
    (Scene.poised_start rfl)
  obtain ⟨hresult, hhost, -⟩ := invoke_eq_evaluateStatement setup h m desk rfl
  rw [hfault, evaluateStatement_eq] at hresult hhost
  have hraises : Raises setup.registry s desk.host cause desk'.host := by
    rcases hrun : evalStmt setup (enterFrom setup m.depth) s ⟨.empty, m⟩ with
      ⟨(raised | _) | flow, r⟩
    · rw [hrun] at hresult hhost hsafe
      cases hresult
      have hstate : r.machine.host = desk'.host := hhost
      rw [← hstate]
      exact hsafe
    · rw [hrun] at hresult
      cases hresult
    · rw [hrun] at hresult
      cases hresult
  exact ⟨hraises, hraises.ownFault⟩

/-- A function is called by its name, which the action uses for a variable too. -/
def sendAndShadow : Stmt :=
  .block [
    .expr (.call (.identifier "send") [.string "a"]),
    .expr (.identifier "send"),
    .assign "send" (some (.string "b"))]

theorem sendAndShadow_raises :
    Raises (Registry.standard Desktop.host) sendAndShadow (Desktop.fresh "" [])
        (.arityMismatch "send" 1 0) { Desktop.fresh "" [] with sent := ["a"] } ∧
      OwnFault (Registry.standard Desktop.host) sendAndShadow (.arityMismatch "send" 1 0) := by
  have hcalls : ∀ b, Calls (Registry.standard Desktop.host) sendAndShadow b →
      ∀ args state, (b.body args state).result ≠ .error (.arityMismatch "send" 1 0) := by
    rintro b ⟨callee, hcallee, hb⟩ args state
    have hname : callee = .identifier "send" := by
      simpa [sendAndShadow, Stmt.uses, Stmt.usesAll, Expr.uses, Expr.usesAll, Expr.uses?]
        using hcallee
    subst hname
    cases hb
    exact nofun
  have hraised := invoke_fault_raised
    ⟨Desktop.host, Registry.standard Desktop.host, { loops := 0 }⟩
    (Registry.built_standard Desktop.host) (s := sendAndShadow)
    (a := {
      code := .seq (.call 15 [.const 0]) (.seq (.read 0 (.raise 0)) (.write 0 (.const 1)))
      slots := 1
      constants := #[.string "a", .string "b"]
      failures := #[.arityMismatch "send" 1 0] })
    rfl ⟨Desktop.fresh "" [], #[]⟩
    ⟨{ Desktop.fresh "" [] with sent := ["a"] }, #[]⟩ rfl
  exact ⟨hraised.1, hraised.2 hcalls⟩

end Native
end Chord
