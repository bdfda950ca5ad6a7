import Chord.Host.Desktop
import Chord.Library.Standard
import Chord.Proofs.Eval.Bounds

/-!
# The bound on open calls

A machine counts the calls of declared functions that are open. A call is refused when the counter
has reached the bound; otherwise the counter is one higher while the function runs, and it is put
back however the function ends.

**Input.** A program, a scope with declared functions, a machine and the bounds.

**Algorithm.** `enterCounted` is the recursion that the counter governs, cut off at some number of
calls inside each other: nothing but the counter keeps it away from the cut. `Act.Alike` compares
two acts from the states in which the counter has a given value. The recursion of `evalStmt_alike`
is that of the interpreter, and calls are compared by induction on the room below the bound.

**Results.** `evaluate_finishes`: without loops every run ends, the cut is never reached, and the
counter is what it was. `evaluate_of_calls_le`: a higher bound keeps every run that did not end at
the lower one.
-/

namespace Chord

/-! ## Statements without loops -/

mutual

/-- Statements without loops. The actions of bindings do not count, as they do not run with the
statement. -/
def Stmt.isLoopless : Stmt → Bool
  | .block body => Stmt.areLoopless body
  | .branch _ consequence (some alternative) => consequence.isLoopless && alternative.isLoopless
  | .branch _ consequence none => consequence.isLoopless
  | .loop _ _ => false
  | .function _ _ body => body.isLoopless
  | _ => true

/-- Lists of statements without loops. -/
def Stmt.areLoopless : List Stmt → Bool
  | [] => true
  | s :: rest => s.isLoopless && Stmt.areLoopless rest

end

/-- A statement has no loops, unless loops are admitted. -/
def Stmt.Admitted (loops : Prop) (s : Stmt) : Prop :=
  loops ∨ s.isLoopless = true

/-- No declared function has loops, unless loops are admitted. -/
def Scope.Admitted (loops : Prop) (scope : Scope) : Prop :=
  ∀ name f, scope.function? name = some f → f.body.Admitted loops

theorem Scope.Admitted.define {loops : Prop} {scope : Scope} (h : scope.Admitted loops)
    {f : Function} (hf : f.body.Admitted loops) : (scope.define f).Admitted loops := by
  intro name g hg
  by_cases hname : name = f.name
  · rw [hname, Scope.function?_define_self] at hg
    cases hg
    exact hf
  · rw [Scope.function?_define_of_ne scope hname] at hg
    exact h name g hg

theorem Scope.Admitted.enter {loops : Prop} {scope : Scope} (h : scope.Admitted loops)
    (names : List String) (values : List Value) : (scope.enter names values).Admitted loops := by
  intro name f hf
  unfold Scope.function? at hf
  rw [Scope.functions_enter] at hf
  exact h name f hf

/-! ## Acts from states with a property -/

/-- From states with a property both acts do the same and keep the property. They are unfinished
only if there are loops. -/
def Act.Alike {S α : Type} (loops : Prop) (P : S → Prop) (x y : Act S α) : Prop :=
  ∀ s, P s → y s = x s ∧ P (x s).2 ∧ ((x s).1 = .error .unfinished → loops)

namespace Act

variable {S α β : Type} {loops : Prop} {P : S → Prop}

theorem Alike.pure (a : α) : Alike loops P (Pure.pure a) (Pure.pure a) :=
  fun _ hs => ⟨rfl, hs, nofun⟩

theorem Alike.fault (cause : Fault) :
    Alike loops P (Act.fault cause : Act S α) (Act.fault cause) :=
  fun _ hs => ⟨rfl, hs, nofun⟩

theorem Alike.ofExcept (r : Except Fault α) :
    Alike loops P (Act.ofExcept r : Act S α) (Act.ofExcept r) := by
  cases r with
  | ok a => exact .pure a
  | error cause => exact .fault cause

theorem Alike.bind {x y : Act S α} {f g : α → Act S β} (hxy : Alike loops P x y)
    (hfg : ∀ a, Alike loops P (f a) (g a)) : Alike loops P (x >>= f) (y >>= g) := by
  intro s hs
  obtain ⟨heq, hmiddle, hloops⟩ := hxy s hs
  rw [bind_apply, bind_apply, heq]
  rcases hrun : x s with ⟨e | a, s'⟩
  · rw [hrun] at hmiddle hloops
    refine ⟨rfl, hmiddle, fun hstop => hloops ?_⟩
    cases hstop
    rfl
  · rw [hrun] at hmiddle
    exact hfg a s' hmiddle

theorem Alike.repeatUntil {step step' : Act S (Option α)} (hloops : loops)
    (hstep : Alike loops P step step') (n : Nat) :
    Alike (α := α) loops P (Act.repeatUntil step n) (Act.repeatUntil step' n) := by
  induction n with
  | zero => exact fun _ hs => ⟨rfl, hs, fun _ => hloops⟩
  | succ n ih =>
      intro s hs
      obtain ⟨heq, hmiddle, -⟩ := hstep s hs
      unfold Act.repeatUntil
      rw [heq]
      rcases hrun : step s with ⟨e | ending, s'⟩
      · rw [hrun] at hmiddle
        exact ⟨rfl, hmiddle, fun _ => hloops⟩
      · rw [hrun] at hmiddle
        cases ending with
        | none => exact ih s' hmiddle
        | some a => exact ⟨rfl, hmiddle, fun _ => hloops⟩

end Act

namespace Eval

variable {σ α : Type} {loops : Prop} {depth : Nat}

/-- The counter of a machine has a value. -/
def Counts (depth : Nat) (m : Machine σ) : Prop :=
  m.depth = depth

/-- A run with a value of the counter, in a scope whose functions are admitted. -/
structure Run.Ready (loops : Prop) (depth : Nat) (r : Run σ) : Prop where
  counts : Counts depth r.machine
  scope : r.scope.Admitted loops

/-- A declared function that can be called is admitted. -/
def Callable.Admitted (loops : Prop) : Callable σ → Prop
  | .builtin _ => True
  | .user f => f.body.Admitted loops

theorem admitted_of_resolve {registry : Registry σ} {scope : Scope} (hscope : scope.Admitted loops)
    {callee : Expr} {c : Callable σ} (h : resolve registry scope callee = .ok c) :
    c.Admitted loops := by
  have hbuiltin : (registry.resolve callee).map .builtin = .ok c → c.Admitted loops := by
    intro h
    cases hresolve : registry.resolve callee with
    | error cause =>
        rw [hresolve] at h
        cases h
    | ok b =>
        rw [hresolve] at h
        cases h
        trivial
  cases callee with
  | identifier name =>
      simp only [resolve] at h
      split at h
      · rename_i f hf
        cases h
        exact hscope name f hf
      · exact hbuiltin h
  | _ => exact hbuiltin h

/-- Two ways to run declared functions that do the same when the counter has a value. -/
def EntersAlike (loops : Prop) (depth : Nat) (enter enter' : Enter σ) : Prop :=
  ∀ (f : Function) (args : List Value) (scope : Scope), f.body.Admitted loops →
    scope.Admitted loops →
      Act.Alike loops (Counts depth) (enter f args scope) (enter' f args scope)

section Expressions

variable (registry : Registry σ) {enter enter' : Enter σ} {scope : Scope}

theorem builtin_alike (b : Builtin σ) (args : List Value) :
    Act.Alike loops (Counts depth) (Machine.call b args) (Machine.call b args) := by
  intro m hm
  have hcall : Machine.call b args m =
      Act.ofExcept (m.toDesk.call b args).1 { m with toDesk := (m.toDesk.call b args).2 } := rfl
  rw [hcall]
  exact Act.Alike.ofExcept _ _ hm

theorem call_alike (henter : EntersAlike loops depth enter enter') (hscope : scope.Admitted loops)
    {c : Callable σ} (hc : c.Admitted loops) (args : List Value) :
    Act.Alike loops (Counts depth) (call enter c args scope) (call enter' c args scope) := by
  cases c with
  | builtin b => exact builtin_alike b args
  | user f =>
      simp only [call]
      split
      · exact henter f args scope hc hscope
      · exact .fault _

/-- What is done with the thing that an expression names need only be compared for admitted
functions. -/
theorem resolve_alike (hscope : scope.Admitted loops) (callee : Expr)
    {f g : Callable σ → Act (Machine σ) α}
    (hfg : ∀ c : Callable σ, c.Admitted loops → Act.Alike loops (Counts depth) (f c) (g c)) :
    Act.Alike loops (Counts depth) (Act.ofExcept (resolve registry scope callee) >>= f)
      (Act.ofExcept (resolve registry scope callee) >>= g) := by
  cases hresolve : resolve registry scope callee with
  | ok c => exact hfg c (admitted_of_resolve hscope hresolve)
  | error cause => exact .fault cause

theorem callBare_alike (henter : EntersAlike loops depth enter enter')
    (hscope : scope.Admitted loops) (callee : Expr) :
    Act.Alike loops (Counts depth) (callBare registry enter callee scope)
      (callBare registry enter' callee scope) :=
  resolve_alike registry hscope callee fun _ hc => call_alike henter hscope hc []

theorem pipeBare_alike (henter : EntersAlike loops depth enter enter')
    (hscope : scope.Admitted loops) (stage : Expr) (input : Value) :
    Act.Alike loops (Counts depth) (pipeBare registry enter stage input scope)
      (pipeBare registry enter' stage input scope) :=
  resolve_alike registry hscope stage fun _ hc => call_alike henter hscope hc _

mutual

theorem evalExpr_alike (henter : EntersAlike loops depth enter enter')
    (hscope : scope.Admitted loops) : (e : Expr) →
    Act.Alike loops (Counts depth) (evalExpr registry enter scope e)
      (evalExpr registry enter' scope e)
  | .identifier name => by
      simp only [evalExpr]
      cases scope.get? name with
      | some value => exact .pure value
      | none => exact callBare_alike registry henter hscope _
  | .number _ => by
      simp only [evalExpr]
      exact .pure _
  | .string _ => by
      simp only [evalExpr]
      exact .pure _
  | .hotkey _ => by
      simp only [evalExpr]
      exact .pure _
  | .binary left op right => by
      have hl := evalExpr_alike henter hscope left
      have hr := evalExpr_alike henter hscope right
      cases op with
      | and =>
          simp only [evalExpr]
          refine hl.bind fun l => ?_
          split
          · exact hr.bind fun r => .pure _
          · exact .pure _
      | or =>
          simp only [evalExpr]
          refine hl.bind fun l => ?_
          split
          · exact .pure _
          · exact hr.bind fun r => .pure _
      | _ =>
          simp only [evalExpr]
          exact hl.bind fun l => hr.bind fun r => .ofExcept _
  | .call callee args => by
      simp only [evalExpr]
      refine resolve_alike registry hscope callee fun c hc => ?_
      refine (evalArgs_alike henter hscope args).bind fun values => ?_
      exact call_alike henter hscope hc values
  | .member object property => by
      simp only [evalExpr]
      exact callBare_alike registry henter hscope _
  | .pipeline [] => by
      simp only [evalExpr]
      exact .pure _
  | .pipeline (first :: rest) => by
      simp only [evalExpr]
      refine (evalExpr_alike henter hscope first).bind fun value => ?_
      exact evalStages_alike henter hscope value rest

theorem evalArgs_alike (henter : EntersAlike loops depth enter enter')
    (hscope : scope.Admitted loops) : (es : List Expr) →
    Act.Alike loops (Counts depth) (evalArgs registry enter scope es)
      (evalArgs registry enter' scope es)
  | [] => by
      simp only [evalArgs]
      exact .pure _
  | e :: es => by
      simp only [evalArgs]
      refine (evalExpr_alike henter hscope e).bind fun value => ?_
      exact (evalArgs_alike henter hscope es).bind fun values => .pure _

theorem evalStages_alike (henter : EntersAlike loops depth enter enter')
    (hscope : scope.Admitted loops) : (input : Value) → (stages : List Expr) →
    Act.Alike loops (Counts depth) (evalStages registry enter scope input stages)
      (evalStages registry enter' scope input stages)
  | _, [] => by
      simp only [evalStages]
      exact .pure _
  | input, .call callee args :: rest => by
      simp only [evalStages]
      refine resolve_alike registry hscope callee fun c hc => ?_
      refine (evalArgs_alike henter hscope args).bind fun values => ?_
      refine (call_alike henter hscope hc _).bind fun value => ?_
      exact evalStages_alike henter hscope value rest
  | input, .identifier name :: rest => by
      simp only [evalStages]
      refine (pipeBare_alike registry henter hscope _ input).bind fun value => ?_
      exact evalStages_alike henter hscope value rest
  | input, .member object property :: rest => by
      simp only [evalStages]
      refine (pipeBare_alike registry henter hscope _ input).bind fun value => ?_
      exact evalStages_alike henter hscope value rest
  | _, .number _ :: _ => by
      simp only [evalStages]
      exact .fault _
  | _, .string _ :: _ => by
      simp only [evalStages]
      exact .fault _
  | _, .hotkey _ :: _ => by
      simp only [evalStages]
      exact .fault _
  | _, .binary _ _ _ :: _ => by
      simp only [evalStages]
      exact .fault _
  | _, .pipeline _ :: _ => by
      simp only [evalStages]
      exact .fault _

end

end Expressions

section Statements

variable {setup : Setup σ} {enter enter' : Enter σ}

theorem valueOf_alike (henter : EntersAlike loops depth enter enter') (e : Expr) :
    Act.Alike loops (Run.Ready loops depth) (valueOf setup enter e) (valueOf setup enter' e) := by
  intro r hr
  obtain ⟨heq, hcounts, hloops⟩ :=
    evalExpr_alike setup.registry henter hr.scope e r.machine hr.counts
  refine ⟨?_, ⟨hcounts, hr.scope⟩, hloops⟩
  simp only [valueOf, reading, heq]

theorem valueOf?_alike (henter : EntersAlike loops depth enter enter') (e : Option Expr) :
    Act.Alike loops (Run.Ready loops depth) (valueOf? setup enter e)
      (valueOf? setup enter' e) := by
  cases e with
  | none => exact .pure _
  | some e => exact valueOf_alike henter e

theorem hotkeyOf_alike (henter : EntersAlike loops depth enter enter') (hotkey : Expr) :
    Act.Alike loops (Run.Ready loops depth) (hotkeyOf setup enter hotkey)
      (hotkeyOf setup enter' hotkey) := by
  unfold hotkeyOf
  split
  · exact .pure _
  · exact .pure _
  · exact (valueOf_alike henter _).bind fun value => .pure _

/-- A change of the run that keeps it ready. -/
theorem modify_alike {f : Run σ → Run σ}
    (hf : ∀ r, Run.Ready loops depth r → Run.Ready loops depth (f r)) :
    Act.Alike loops (Run.Ready loops depth) (modify f : Act (Run σ) Unit) (modify f) :=
  fun r hr => ⟨rfl, hf r hr, nofun⟩

mutual

theorem evalStmt_alike (henter : EntersAlike loops depth enter enter') : (s : Stmt) →
    s.Admitted loops →
    Act.Alike loops (Run.Ready loops depth) (evalStmt setup enter s) (evalStmt setup enter' s)
  | .bind hotkey action _, _ => by
      simp only [evalStmt]
      refine (hotkeyOf_alike henter hotkey).bind fun text => ?_
      refine (modify_alike ?_).bind fun _ => .pure _
      exact fun _ hr => ⟨hr.counts, hr.scope⟩
  | .block body, hs => by
      simp only [evalStmt]
      exact evalBlock_alike henter .null body hs
  | .expr e, _ => by
      simp only [evalStmt]
      exact (valueOf_alike henter e).bind fun value => .pure _
  | .assign name e, _ => by
      simp only [evalStmt]
      refine (valueOf?_alike henter e).bind fun value => ?_
      refine (modify_alike ?_).bind fun _ => .pure _
      exact fun _ hr => ⟨hr.counts, hr.scope⟩
  | .branch condition consequence none, hs => by
      simp only [evalStmt]
      refine (valueOf_alike henter condition).bind fun value => ?_
      split
      · exact evalStmt_alike henter consequence hs
      · exact .pure _
  | .branch condition consequence (some alternative), hs => by
      have hboth : consequence.Admitted loops ∧ alternative.Admitted loops := by
        simpa [Stmt.Admitted, Stmt.isLoopless, or_and_left] using hs
      simp only [evalStmt]
      refine (valueOf_alike henter condition).bind fun value => ?_
      split
      · exact evalStmt_alike henter consequence hboth.1
      · exact evalStmt_alike henter alternative hboth.2
  | .loop condition body, hs => by
      -- A loop has to be admitted, and then its body is.
      have hloops : loops := hs.resolve_right nofun
      simp only [evalStmt]
      refine Act.Alike.repeatUntil hloops ?_ setup.limits.loops
      refine (valueOf_alike henter condition).bind fun value => ?_
      split
      · refine (evalStmt_alike henter body (Or.inl hloops)).bind fun flow => ?_
        cases flow <;> exact .pure _
      · exact .pure _
  | .leave e, _ => by
      simp only [evalStmt]
      exact (valueOf?_alike henter e).bind fun value => .pure _
  | .function name params body, hs => by
      simp only [evalStmt]
      refine (modify_alike ?_).bind fun _ => .pure _
      exact fun _ hr => ⟨hr.counts, hr.scope.define hs⟩

theorem evalBlock_alike (henter : EntersAlike loops depth enter enter') :
    (last : Value) → (body : List Stmt) → loops ∨ Stmt.areLoopless body = true →
    Act.Alike loops (Run.Ready loops depth) (evalBlock setup enter last body)
      (evalBlock setup enter' last body)
  | _, [], _ => by
      simp only [evalBlock]
      exact .pure _
  | _, s :: rest, hs => by
      have hboth : s.Admitted loops ∧ (loops ∨ Stmt.areLoopless rest = true) := by
        simpa [Stmt.Admitted, Stmt.areLoopless, or_and_left] using hs
      simp only [evalBlock]
      refine (evalStmt_alike henter s hboth.1).bind fun flow => ?_
      cases flow with
      | normal value => exact evalBlock_alike henter value rest hboth.2
      | left value => exact .pure _

end

end Statements

/-! ## Calls by the counter -/

/-- Runs a declared function as the counter allows. After `cut` calls inside each other the run is
given up as unfinished. -/
def enterCounted (setup : Setup σ) : (cut : Nat) → Enter σ
  | 0 => fun _ _ _ => throw .unfinished
  | cut + 1 => fun f args scope machine =>
      if setup.limits.calls ≤ machine.depth then
        (.error (.fault (.callDepthExceeded setup.limits.calls)), machine)
      else
        let start : Run σ :=
          ⟨scope.enter f.params args, { machine with depth := machine.depth + 1 }⟩
        let (result, r) := evalStmt setup (enterCounted setup cut) f.body start
        (result.map Flow.value, { r.machine with depth := r.machine.depth - 1 })

/-- Runs a program as the counter allows, with a cut. -/
def evaluateCounted (setup : Setup σ) (cut : Nat) (p : Program) (r : Run σ) :
    Except Stop Value × Run σ :=
  let (result, r) := evalBlock setup (enterCounted setup cut) .null p.statements (r.opened p)
  (result.map Flow.value, r)

theorem unfinished_of_map {result : Except Stop Flow}
    (h : result.map Flow.value = .error .unfinished) : result = .error .unfinished := by
  cases result with
  | error e =>
      cases h
      rfl
  | ok flow => cases h

/-- With `room` calls left below the bound, calls end before a cut that is further away. -/
theorem enterWith_alike (setup : Setup σ) : (room : Nat) → {depth cut : Nat} →
    setup.limits.calls - depth = room → room < cut →
      EntersAlike loops depth (enterWith setup room) (enterCounted setup cut)
  | _, _, 0, _, hcut => absurd hcut (Nat.not_lt_zero _)
  | 0, depth, cut + 1, hroom, _ => by
      intro f args scope _ _ m hm
      have hfull : setup.limits.calls ≤ m.depth := by
        rw [hm]
        omega
      simp only [enterCounted, if_pos hfull]
      exact Act.Alike.fault _ m hm
  | room + 1, depth, cut + 1, hroom, hcut => by
      intro f args scope hf hscope m hm
      have hfree : ¬ setup.limits.calls ≤ m.depth := by
        rw [hm]
        omega
      -- Inside, the counter is one higher and the room one smaller.
      have hinside : EntersAlike loops (depth + 1) (enterWith setup room)
          (enterCounted setup cut) :=
        enterWith_alike setup room (by omega) (by omega)
      have hstart : Run.Ready loops (depth + 1)
          (⟨scope.enter f.params args, { m with depth := m.depth + 1 }⟩ : Run σ) :=
        ⟨congrArg (· + 1) hm, hscope.enter _ _⟩
      have hbody : Act.Alike loops (Run.Ready loops (depth + 1))
          (evalStmt setup (enterWith setup room) f.body)
          (evalStmt setup (enterCounted setup cut) f.body) :=
        evalStmt_alike hinside f.body hf
      obtain ⟨heq, hend, hloops⟩ := hbody _ hstart
      have hcounted : enterCounted setup (cut + 1) f args scope m =
          enterWith setup (room + 1) f args scope m :=
        (if_neg hfree).trans (congrArg (fun ended : Except Stop Flow × Run σ =>
          (ended.1.map Flow.value,
            { ended.2.machine with depth := ended.2.machine.depth - 1 })) heq)
      exact ⟨hcounted, congrArg (· - 1) hend.counts, fun hstop => hloops (unfinished_of_map hstop)⟩

/-- **A program runs by the counter**: the recursion that the counter governs stays below every cut
that is further away than the bound, and the counter is put back, however the program ends. Without
loops no program is unfinished. -/
theorem evaluateCounted_eq (setup : Setup σ) {p : Program} {r : Run σ}
    (hp : loops ∨ Stmt.areLoopless p.statements = true) (hr : r.scope.Admitted loops) {cut : Nat}
    (hcut : setup.limits.calls - r.machine.depth < cut) :
    evaluateCounted setup cut p r = evaluate setup p r ∧
      (evaluate setup p r).2.machine.depth = r.machine.depth ∧
      ((evaluate setup p r).1 = .error .unfinished → loops) := by
  have henter : EntersAlike loops r.machine.depth (enterFrom setup r.machine.depth)
      (enterCounted setup cut) :=
    enterWith_alike setup _ rfl hcut
  have hbody : Act.Alike loops (Run.Ready loops r.machine.depth)
      (evalBlock setup (enterFrom setup r.machine.depth) .null p.statements)
      (evalBlock setup (enterCounted setup cut) .null p.statements) :=
    evalBlock_alike henter .null p.statements hp
  obtain ⟨heq, hend, hloops⟩ := hbody (r.opened p) ⟨rfl, hr⟩
  refine ⟨?_, hend.counts, fun hstop => hloops (unfinished_of_map hstop)⟩
  unfold evaluateCounted
  rw [heq]
  rfl

/-- A complete run ends with a value or a fault. -/
theorem exists_mapError_of_ne {result : Except Stop Value} (h : result ≠ .error .unfinished) :
    ∃ outcome : Except Fault Value, outcome.mapError .fault = result := by
  match result with
  | .ok value => exact ⟨.ok value, rfl⟩
  | .error (.fault cause) => exact ⟨.error cause, rfl⟩
  | .error .unfinished => exact absurd rfl h

/-- **Without loops every run ends.** A program without loops, in a scope whose functions have none,
ends with a value or a fault, however its functions call each other: no bound on repetitions is
needed, the counter keeps the recursion away from every cut beyond the bound on open calls, and the
counter is put back. -/
theorem evaluate_finishes (host : Host σ) (registry : Registry σ) (calls : Nat) {p : Program}
    {r : Run σ} (hp : Stmt.areLoopless p.statements = true)
    (hr : ∀ name f, r.scope.function? name = some f → f.body.isLoopless = true) :
    ∃ (result : Except Fault Value) (r' : Run σ), r'.machine.depth = r.machine.depth ∧
      ∀ loops cut, calls - r.machine.depth < cut →
        evaluate ⟨host, registry, ⟨calls, loops⟩⟩ p r = (result.mapError .fault, r') ∧
          evaluateCounted ⟨host, registry, ⟨calls, loops⟩⟩ cut p r =
            (result.mapError .fault, r') := by
  have hscope : r.scope.Admitted False := fun name f hf => Or.inr (hr name f hf)
  have hcounted := fun loops cut (hcut : calls - r.machine.depth < cut) =>
    evaluateCounted_eq ⟨host, registry, ⟨calls, loops⟩⟩ (Or.inr hp) hscope hcut
  have hends : ∀ loops, (evaluate ⟨host, registry, ⟨calls, loops⟩⟩ p r).1 ≠ .error .unfinished :=
    fun loops hstop => (hcounted loops _ (Nat.lt_succ_self _)).2.2 hstop
  obtain ⟨result, hresult⟩ := exists_mapError_of_ne (hends 0)
  refine ⟨result, _, (hcounted 0 _ (Nat.lt_succ_self _)).2.1, fun loops cut hcut => ?_⟩
  have hsame := evaluate_loops_unique (hends loops) (hends 0)
  rw [(hcounted loops cut hcut).1, hsame, hresult]
  exact ⟨rfl, rfl⟩

/-- A function that binds a hotkey and calls a function of the scope. -/
def endlessCalls : Program :=
  ⟨[.function "ping" [] (.block [
      .bind (.hotkey "F1") (.block []) 1,
      .expr (.identifier "pong")]),
    .expr (.identifier "ping")]⟩

theorem endlessCalls_finishes :
    let setup : Nat → Setup Desktop := fun loops =>
      ⟨Desktop.host, .standard Desktop.host, ⟨3, loops⟩⟩
    let pong : Function := ⟨"pong", [], .leave (some (.identifier "ping"))⟩
    let r : Run Desktop := ⟨Scope.empty.define pong, { host := .fresh "" [] }⟩
    (evaluate (setup 0) endlessCalls r).1.isOk = false ∧
      (evaluate (setup 0) endlessCalls r).2.machine.host.registered = ["F1", "F1"] ∧
      ∃ (result : Except Fault Value) (r' : Run Desktop), r'.machine.depth = 0 ∧
        ∀ loops cut, 3 < cut →
          evaluate (setup loops) endlessCalls r = (result.mapError .fault, r') ∧
            evaluateCounted (setup loops) cut endlessCalls r = (result.mapError .fault, r') := by
  intro setup pong r
  have hscope : r.scope.Admitted False :=
    Scope.Admitted.define (fun _ _ hempty => by cases hempty) (Or.inr rfl)
  have hends := evaluate_finishes Desktop.host (.standard Desktop.host) 3
    (p := endlessCalls) (r := r) rfl fun name f hf => (hscope name f hf).resolve_left id
  exact ⟨by decide +kernel, by decide +kernel, hends⟩

/-! ## Higher bounds -/

/-- **A higher bound on open calls only lets more runs end.** A run that ends with anything but the
refusal of a call ends in the same way under every higher bound: same value or fault, same scope,
same bindings, same host. -/
theorem evaluate_of_calls_le {host : Host σ} {registry : Registry σ} {calls calls' n n' : Nat}
    (hcalls : calls ≤ calls') (hn : n ≤ n') {p : Program} {r r' : Run σ}
    {result : Except Fault Value}
    (h : evaluate ⟨host, registry, ⟨calls, n⟩⟩ p r = (result.mapError .fault, r'))
    (hresult : result ≠ .error (.callDepthExceeded calls)) :
    evaluate ⟨host, registry, ⟨calls', n'⟩⟩ p r = (result.mapError .fault, r') := by
  have hsetup : Setup.Widened
      (fun e => e = .unfinished ∨ e = .fault (.callDepthExceeded calls))
      ⟨host, registry, ⟨calls, n⟩⟩ ⟨host, registry, ⟨calls', n'⟩⟩ :=
    ⟨rfl, rfl, hn, hcalls, Or.inl (Or.inl rfl), Or.inl (Or.inr rfl)⟩
  rcases evaluate_widened hsetup p r with ⟨e, hgiven, hstop⟩ | hsame
  · rw [h] at hstop
    rcases hgiven with rfl | rfl
    · cases result <;> cases hstop
    · refine absurd ?_ hresult
      cases result with
      | ok value => cases hstop
      | error cause =>
          cases hstop
          rfl
  · rw [hsame, h]

/-- A function sends a text and calls another one, which binds a hotkey and fails. -/
def sendAndFail : Table Function :=
  ⟨[("inner", ⟨"inner", [], .block [
        .bind (.hotkey "F1") (.block []) 1,
        .leave (some (.identifier "missing"))]⟩),
      ("outer", ⟨"outer", [], .block [
        .expr (.call (.identifier "send") [.string "a"]),
        .expr (.identifier "inner")]⟩)],
    by decide⟩

theorem sendAndFail_of_calls_le :
    let p : Program := ⟨[.expr (.identifier "outer")]⟩
    let r : Run Desktop := ⟨{ functions := sendAndFail }, { host := .fresh "" [] }⟩
    let ended := evaluate ⟨Desktop.host, .standard Desktop.host, ⟨2, 0⟩⟩ p r
    ended.2.machine.host.sent = ["a"] ∧ ended.2.machine.host.registered = ["F1"] ∧
      evaluate ⟨Desktop.host, .standard Desktop.host, ⟨256, 10⟩⟩ p r =
        (.error (.fault (.unknownIdentifier "missing")), ended.2) := by
  intro p r ended
  have hended : ended =
      ((.error (.unknownIdentifier "missing") : Except Fault Value).mapError .fault, ended.2) :=
    rfl
  have hhigher := evaluate_of_calls_le (by decide : 2 ≤ 256) (by decide : 0 ≤ 10) hended nofun
  exact ⟨by decide +kernel, by decide +kernel, hhigher⟩

end Eval
end Chord
