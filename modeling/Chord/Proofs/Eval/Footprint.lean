import Chord.Host.Desktop
import Chord.Library.Standard
import Chord.Native.Lower
import Chord.Proofs.Eval.Invariants

/-!
# What a statement can change in its scope

The names that a statement can set and the functions that it can declare are read off its text.
Functions that it calls do not count: they run on a copy of the scope, whatever they do there.

**Input.** A statement, and a property of scopes that its own assignments and declarations keep.

**Algorithm.** The recursion is that of the statement. Expressions only read the scope.

**Results.** `evalStmt_keeps_scope`: such a property holds afterwards if it held before, however the
statement ended. `evalStmt_footprint`: all other variables and all other functions are what they
were.
-/

namespace Chord

mutual

/-- The functions that a statement declares, those inside functions and actions aside. -/
def Stmt.declared : Stmt → List Function
  | .function name params body => [⟨name, params, body⟩]
  | .block body => Stmt.declaredAll body
  | .branch _ consequence (some alternative) => consequence.declared ++ alternative.declared
  | .branch _ consequence none => consequence.declared
  | .loop _ body => body.declared
  | _ => []

/-- The functions that statements declare. -/
def Stmt.declaredAll : List Stmt → List Function
  | [] => []
  | s :: rest => s.declared ++ Stmt.declaredAll rest

end

/-- Assignments to some names and declarations of some functions keep a property of scopes. -/
structure Scope.Stable (P : Scope → Prop) (names : List String) (functions : List Function) :
    Prop where
  set : ∀ name ∈ names, ∀ scope value, P scope → P (scope.set name value)
  define : ∀ f ∈ functions, ∀ scope, P scope → P (scope.define f)

namespace Scope.Stable

variable {P : Scope → Prop} {names names' : List String} {functions functions' : List Function}

theorem left (h : Stable P (names ++ names') (functions ++ functions')) :
    Stable P names functions :=
  ⟨fun name hname => h.set name (List.mem_append_left _ hname),
    fun f hf => h.define f (List.mem_append_left _ hf)⟩

theorem right (h : Stable P (names ++ names') (functions ++ functions')) :
    Stable P names' functions' :=
  ⟨fun name hname => h.set name (List.mem_append_right _ hname),
    fun f hf => h.define f (List.mem_append_right _ hf)⟩

/-- Other assignments do not change the value of a variable. -/
theorem get? {name : String} (h : name ∉ names) (value : Option Value) :
    Stable (·.get? name = value) names functions where
  set other hother scope v hscope := by
    have hne : name ≠ other := fun heq => h (heq ▸ hother)
    rw [Scope.get?_set_of_ne scope hne, hscope]
  define _ _ _ hscope := hscope

/-- Other declarations do not change a function. -/
theorem function? {name : String} (h : ∀ f ∈ functions, f.name ≠ name) (g : Option Function) :
    Stable (·.function? name = g) names functions where
  set _ _ _ _ hscope := hscope
  define f hf scope hscope := by
    rw [Scope.function?_define_of_ne scope (h f hf).symm, hscope]

end Scope.Stable

namespace Eval

variable {σ : Type} {setup : Setup σ} {enter : Enter σ} {P : Scope → Prop}

/-- Expressions leave the scope alone, whatever functions they call. -/
theorem valueOf_scope (e : Expr) (r : Run σ) : (valueOf setup enter e r).2.scope = r.scope :=
  rfl

theorem valueOf_keeps_scope (e : Expr) :
    Keeps (fun r : Run σ => P r.scope) (valueOf setup enter e) :=
  fun _ hr => hr

theorem valueOf?_keeps_scope (e : Option Expr) :
    Keeps (fun r : Run σ => P r.scope) (valueOf? setup enter e) := by
  cases e with
  | none => exact .pure _
  | some e => exact valueOf_keeps_scope e

theorem hotkeyOf_keeps_scope (hotkey : Expr) :
    Keeps (fun r : Run σ => P r.scope) (hotkeyOf setup enter hotkey) := by
  unfold hotkeyOf
  split
  · exact .pure _
  · exact .pure _
  · exact (valueOf_keeps_scope _).bind fun value => .pure _

theorem rescope_keeps_scope {f : Scope → Scope} (hf : ∀ scope, P scope → P (f scope)) :
    Keeps (fun r : Run σ => P r.scope) (rescope f) :=
  fun r hr => hf r.scope hr

mutual

theorem evalStmt_keeps_scope : (s : Stmt) → Scope.Stable P s.assigned s.declared →
    Keeps (fun r : Run σ => P r.scope) (evalStmt setup enter s)
  | .bind hotkey action _, _ => by
      simp only [evalStmt]
      refine (hotkeyOf_keeps_scope hotkey).bind fun text => ?_
      -- A binding stores a copy of the scope.
      exact Keeps.bind (fun _ hr => hr) fun _ => .pure _
  | .block body, h => by
      simp only [Stmt.assigned, Stmt.declared] at h
      simp only [evalStmt]
      exact evalBlock_keeps_scope .null body h
  | .expr e, _ => by
      simp only [evalStmt]
      exact (valueOf_keeps_scope e).bind fun value => .pure _
  | .assign name e, h => by
      simp only [Stmt.assigned] at h
      simp only [evalStmt]
      refine (valueOf?_keeps_scope e).bind fun value => ?_
      have hset := fun scope => h.set name List.mem_cons_self scope value
      exact (rescope_keeps_scope hset).bind fun _ => .pure _
  | .branch condition consequence none, h => by
      simp only [Stmt.assigned, Stmt.declared] at h
      simp only [evalStmt]
      refine (valueOf_keeps_scope condition).bind fun value => ?_
      split
      · exact evalStmt_keeps_scope consequence h
      · exact .pure _
  | .branch condition consequence (some alternative), h => by
      simp only [Stmt.assigned, Stmt.declared] at h
      simp only [evalStmt]
      refine (valueOf_keeps_scope condition).bind fun value => ?_
      split
      · exact evalStmt_keeps_scope consequence h.left
      · exact evalStmt_keeps_scope alternative h.right
  | .loop condition body, h => by
      simp only [Stmt.assigned, Stmt.declared] at h
      simp only [evalStmt]
      refine Keeps.repeatUntil ?_ setup.limits.loops
      refine (valueOf_keeps_scope condition).bind fun value => ?_
      split
      · refine (evalStmt_keeps_scope body h).bind fun flow => ?_
        cases flow <;> exact .pure _
      · exact .pure _
  | .leave e, _ => by
      simp only [evalStmt]
      exact (valueOf?_keeps_scope e).bind fun value => .pure _
  | .function name params body, h => by
      simp only [Stmt.declared] at h
      simp only [evalStmt]
      exact (rescope_keeps_scope (h.define _ List.mem_cons_self)).bind fun _ => .pure _

theorem evalBlock_keeps_scope : (last : Value) → (body : List Stmt) →
    Scope.Stable P (Stmt.assignedAll body) (Stmt.declaredAll body) →
      Keeps (fun r : Run σ => P r.scope) (evalBlock setup enter last body)
  | _, [], _ => by
      simp only [evalBlock]
      exact .pure _
  | _, s :: rest, h => by
      simp only [Stmt.assignedAll, Stmt.declaredAll] at h
      simp only [evalBlock]
      refine (evalStmt_keeps_scope s h.left).bind fun flow => ?_
      cases flow with
      | normal value => exact evalBlock_keeps_scope value rest h.right
      | left value => exact .pure _

end

/-- **What a statement can change.** However a statement ends, a variable that it does not assign
has the value it had or still has none, and a name that it does not declare still stands for the
same function. Evaluating an expression changes nothing in the scope, whatever the functions that it
calls assign, declare or bind. -/
theorem evalStmt_footprint (setup : Setup σ) (s : Stmt) (r : Run σ) :
    let enter := enterFrom setup r.machine.depth
    (∀ name ∉ s.letNames,
        (evalStmt setup enter s r).2.scope.get? name = r.scope.get? name) ∧
      (∀ name, (∀ f ∈ s.declared, f.name ≠ name) →
        (evalStmt setup enter s r).2.scope.function? name = r.scope.function? name) ∧
      ∀ e : Expr, (valueOf setup enter e r).2.scope = r.scope := by
  intro enter
  refine ⟨fun name hname => ?_, fun name hname => ?_, fun e => valueOf_scope e r⟩
  · have hassigned : name ∉ s.assigned := fun h => hname (List.mem_eraseDups.2 h)
    exact evalStmt_keeps_scope s (.get? hassigned _) r rfl
  · exact evalStmt_keeps_scope s (.function? hname _) r rfl

/-- A function that sets a variable, declares another function anew and binds a hotkey is called
before the statement fails. -/
def meddling : Stmt :=
  .block [
    .function "meddle" [] (.block [
      .assign "x" (some (.string "b")),
      .function "twice" [] (.leave none),
      .bind (.hotkey "F1") (.block []) 1]),
    .expr (.identifier "meddle"),
    .assign "y" (some (.identifier "x")),
    .expr (.identifier "missing")]

theorem meddling_footprint :
    let setup : Setup Desktop := ⟨Desktop.host, .standard Desktop.host, ⟨256, 0⟩⟩
    let twice : Function :=
      ⟨"twice", ["n"], .leave (some (.binary (.identifier "n") .add (.identifier "n")))⟩
    let r : Run Desktop :=
      ⟨(Scope.empty.set "x" (.string "a")).define twice, { host := .fresh "" [] }⟩
    let ended := evalStmt setup (enterFrom setup 0) meddling r
    ended.1.isOk = false ∧
      ended.2.machine.host.registered = ["F1"] ∧
      ended.2.scope.get? "y" = some (.string "a") ∧
      ended.2.scope.get? "x" = some (.string "a") ∧
      ended.2.scope.function? "twice" = some twice := by
  intro setup twice r ended
  have hx : "x" ∉ meddling.letNames := by decide +kernel
  have htwice : ∀ f ∈ meddling.declared, f.name ≠ "twice" := by
    intro f hf
    obtain rfl := List.mem_singleton.1 hf
    decide
  have hkept := evalStmt_footprint setup meddling r
  exact ⟨by decide +kernel, by decide +kernel, by decide +kernel, hkept.1 "x" hx,
    hkept.2.1 "twice" htwice⟩

end Eval
end Chord
