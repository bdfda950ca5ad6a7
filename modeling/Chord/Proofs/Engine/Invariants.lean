import Chord.Engine.Basic
import Chord.Proofs.Native.Invariants
import Chord.Proofs.Native.Reports

/-!
# What engines keep

Whatever an engine is asked to do, it touches the host, the bindings and the compiled actions in a
few steps only: it calls a built-in function, it binds a hotkey in one of its back ends, or it
removes a binding.

**Input.** A sequence of operations, and a property of the hotkeys bound so far, of a state of the
host, of bindings and of compiled actions.

**Results.** `Operation.binds` are the hotkeys that an operation binds: those of the binding
statements that the interpreter executes, or those of the bindings that are compiled.
`Operation.perform_keeps`: an operation that removes no binding keeps what the built-in functions
and new bindings keep, with the hotkeys that it binds.
-/

namespace Chord
namespace Engine

variable {σ : Type}

/-! ## Operations -/

/-- What an engine can be asked to do. -/
inductive Operation where
  | execute (source : String)
  | register (source : String)
  | runScript (files : Store) (path : String)
  | loadBundle (files : Store) (path : String)
  | trigger (hotkey : String)
  | invoke (hotkey : String)
  | unbind (hotkey : String)
  | setMode (mode : Mode)

/-- The engine after an operation, whatever its outcome. -/
def Operation.perform (setup : Setup σ) (e : Engine σ) : Operation → Engine σ
  | .execute source => (e.execute setup source).2
  | .register source => (e.register setup source).2
  | .runScript files path => (e.runScript setup files path).2
  | .loadBundle files path => (e.loadBundle setup files path).2
  | .trigger hotkey => (e.trigger setup hotkey).2
  | .invoke hotkey => (e.invoke setup hotkey).2
  | .unbind hotkey => (e.unbind setup hotkey).2
  | .setMode mode => e.setMode mode

/-- The engine after operations in order. -/
def performAll (setup : Setup σ) (ops : List Operation) (e : Engine σ) : Engine σ :=
  ops.foldl (Operation.perform setup) e

theorem performAll_append (setup : Setup σ) (ops more : List Operation) (e : Engine σ) :
    performAll setup (ops ++ more) e = performAll setup more (performAll setup ops e) :=
  List.foldl_append

theorem performAll_concat (setup : Setup σ) (ops : List Operation) (op : Operation)
    (e : Engine σ) :
    performAll setup (ops ++ [op]) e = op.perform setup (performAll setup ops e) :=
  performAll_append setup ops [op] e

/-! ## Hotkeys bound by operations -/

section Binds

variable (setup : Setup σ)

/-- The canonical hotkeys of the bindings that can be compiled, in order. -/
def compiledKeys (ss : List Stmt) : List String :=
  (Native.compiledIn setup.registry ss).map Native.Compiled.key

/-- What a program binds. -/
def programBinds (p : Program) (e : Engine σ) : List String :=
  if e.mode.isInterpreter then (Eval.programBinds setup p e.run).map Binding.key
  else compiledKeys setup p.bindings

/-- What a script binds when it is run. -/
def executeBinds (source : String) (e : Engine σ) : List String :=
  match e.parseSource source with
  | (.error _, _) => []
  | (.ok p, e) => e.programBinds setup p

/-- What bindings bind that are evaluated one by one, up to the first one that fails. -/
def interpretBinds : List Stmt → Engine σ → List String
  | [], _ => []
  | s :: rest, e =>
      (Eval.statementBinds setup s e.run).map Binding.key ++
        match Eval.evaluateStatement setup s e.run with
        | (.error _, _) => []
        | (.ok _, r) => interpretBinds rest (e.withRun r)

/-- What a script binds when its bindings are registered. -/
def registerBinds (source : String) (e : Engine σ) : List String :=
  match e.parseSource source with
  | (.error _, _) => []
  | (.ok p, e) =>
      let e := e.noteAll
        (p.others.map fun s => ⟨.warn, "ignoring non-binding statement: " ++ s.text⟩)
      if e.mode.isInterpreter then e.interpretBinds setup p.bindings
      else compiledKeys setup p.bindings

/-- What a bundle binds. One that is refused binds nothing. -/
def installBinds (b : Bundle) (e : Engine σ) : List String :=
  if b.format != Bundle.currentFormat then []
  else if b.version != Bundle.currentVersion then []
  else
    match e.parseSource b.source with
    | (.error _, _) => []
    | (.ok p, _) =>
        let found := p.bindings.map fun s => normalize (s.hotkeyText?.getD "")
        if b.bindings.map (·.normalized) != found then [] else compiledKeys setup p.bindings

/-- What a script file binds. -/
def runScriptBinds (files : Store) (path : String) (e : Engine σ) : List String :=
  match files.read path with
  | .error _ => []
  | .ok content =>
      let e := e.note .info ("running " ++ path ++ " in " ++ e.mode.name ++ " mode")
      match Bundle.ofText? content with
      | some b => e.installBinds setup b
      | none => e.executeBinds setup content

/-- What a bundle file binds. -/
def loadBundleBinds (files : Store) (path : String) (e : Engine σ) : List String :=
  match files.read path with
  | .error _ => []
  | .ok content =>
      match Bundle.ofText? content with
      | some b => e.installBinds setup b
      | none => []

/-- What the action bound to a hotkey binds. Compiled actions bind nothing. -/
def invokeBinds (hotkey : String) (e : Engine σ) : List String :=
  if e.mode.isInterpreter then (e.toMachine.invokeBinds setup hotkey).map Binding.key else []

/-- The canonical hotkeys that an operation binds in the back end that it works in, in order. -/
def Operation.binds (e : Engine σ) : Operation → List String
  | .execute source => e.executeBinds setup source
  | .register source => e.registerBinds setup source
  | .runScript files path => e.runScriptBinds setup files path
  | .loadBundle files path => e.loadBundleBinds setup files path
  | .trigger hotkey => e.invokeBinds setup hotkey
  | .invoke hotkey => e.invokeBinds setup hotkey
  | .unbind _ => []
  | .setMode _ => []

end Binds

/-! ## Properties of engines -/

/-- Every built-in function and every new binding keep a property of the hotkeys bound so far, of
the state of the host, of the bindings and of the compiled actions. -/
structure Upheld (setup : Setup σ)
    (P : List String → σ → Table Binding → Table Native.Compiled → Prop) : Prop where
  call : ∀ keys bindings actions, setup.registry.Keeps (P keys · bindings actions)
  interpreted : ∀ {keys state bindings actions}, P keys state bindings actions → ∀ b : Binding,
    P (keys ++ [b.key]) (setup.host.register b.key state) (bindings.insert b.key b) actions
  compiled : ∀ {keys state bindings actions}, P keys state bindings actions →
    ∀ c : Native.Compiled,
      P (keys ++ [c.key]) (setup.host.register c.key state) bindings (actions.insert c.key c)

/-- A property of the hotkeys bound so far, of the state of the host, of the bindings and of the
compiled actions, said of an engine. -/
def Has (P : List String → σ → Table Binding → Table Native.Compiled → Prop)
    (keys : List String) (e : Engine σ) : Prop :=
  P keys e.host e.bindings e.actions

variable {setup : Setup σ} {P : List String → σ → Table Binding → Table Native.Compiled → Prop}
  {keys : List String} {e : Engine σ}

/-- An operation that binds nothing. -/
theorem Has.append_nil (he : e.Has P keys) : e.Has P (keys ++ []) := by
  rwa [List.append_nil]

/-- What is left of a property for the interpreted side. -/
theorem Upheld.machine (hP : Upheld setup P) (keys : List String)
    (actions : Table Native.Compiled) :
    Chord.Upheld setup fun made state bindings =>
      P (keys ++ made.map Binding.key) state bindings actions where
  call := fun made bindings => hP.call (keys ++ made.map Binding.key) bindings actions
  bind := by
    intro made state bindings h b
    rw [List.map_append, ← List.append_assoc]
    exact hP.interpreted h b

/-- Compiled bindings one after the other. -/
theorem Upheld.insertAll (hP : Upheld setup P) {bindings : Table Binding} :
    (cs : List Native.Compiled) → {keys : List String} → {state : σ} →
      {actions : Table Native.Compiled} → P keys state bindings actions →
        P (keys ++ cs.map Native.Compiled.key)
          (setup.host.registerAll (cs.map Native.Compiled.key) state) bindings
          (actions.insertAll Native.Compiled.key cs)
  | [], _, _, _, h => by
      rw [List.map_nil, List.append_nil]
      exact h
  | c :: cs, _, _, _, h => by
      have hrest := insertAll hP cs (hP.compiled h c)
      rw [List.append_assoc] at hrest
      exact hrest

/-! ## Scripts -/

theorem bindAll_keeps (hP : Upheld setup P) (ss : List Stmt) (he : e.Has P keys) :
    (e.bindAll setup ss).2.Has P (keys ++ compiledKeys setup ss) := by
  have hdealt := Native.Keyboard.compileAll_dealt setup ss e.keyboard
  have hall : (e.withKeyboard (e.keyboard.compileAll setup ss).2).Has P
      (keys ++ compiledKeys setup ss) := by
    show P _ (e.keyboard.compileAll setup ss).2.host e.bindings
      (e.keyboard.compileAll setup ss).2.actions
    rw [hdealt.host, hdealt.actions]
    exact hP.insertAll (Native.compiledIn setup.registry ss) he
  unfold bindAll
  simp only
  split
  · exact hall
  · exact hall

theorem runCompiled_keeps (hP : Upheld setup P) (statements : List Stmt) (he : e.Has P keys) :
    (e.runCompiled setup statements).2.Has P keys := by
  have hcompile : (e.keyboard.compile setup (.block statements)).2.Has (P keys · e.bindings ·) :=
    Native.Keyboard.compile_keeps (.block statements) he
  unfold runCompiled
  split
  · rename_i hrun
    rw [hrun] at hcompile
    exact hcompile
  · rename_i action k hrun
    rw [hrun] at hcompile
    exact Native.Keyboard.run_keeps (hP.call keys e.bindings) action hcompile

theorem executeProgram_keeps (hP : Upheld setup P) (p : Program) (he : e.Has P keys) :
    (e.executeProgram setup p).2.Has P (keys ++ e.programBinds setup p) := by
  unfold executeProgram programBinds
  split
  · exact Eval.evaluate_keeps (hP.machine keys e.actions) p [] he.append_nil
  · have hbindings := bindAll_keeps hP p.bindings he
    split
    · rename_i hrun
      rw [hrun] at hbindings
      exact hbindings
    · rename_i hrun
      rw [hrun] at hbindings
      split
      · exact hbindings
      · exact runCompiled_keeps hP p.others hbindings

theorem execute_keeps (hP : Upheld setup P) (source : String) (he : e.Has P keys) :
    (e.execute setup source).2.Has P (keys ++ e.executeBinds setup source) := by
  have hparse : (e.parseSource source).2.Has P keys := he
  unfold execute executeBinds
  generalize e.parseSource source = parsed at hparse ⊢
  obtain ⟨error | p, e'⟩ := parsed
  · exact hparse.append_nil
  · exact executeProgram_keeps hP p hparse

theorem interpretBindings_keeps (hP : Upheld setup P) : (ss : List Stmt) → {keys : List String} →
    {e : Engine σ} → e.Has P keys →
      (e.interpretBindings setup ss).2.Has P (keys ++ e.interpretBinds setup ss)
  | [], _, _, he => he.append_nil
  | s :: rest, keys, e, he => by
      have hstatement : (e.withRun (Eval.evaluateStatement setup s e.run).2).Has P
          (keys ++ (Eval.statementBinds setup s e.run).map Binding.key) :=
        Eval.evaluateStatement_keeps (hP.machine keys e.actions) s [] he.append_nil
      unfold interpretBindings interpretBinds
      rw [← List.append_assoc]
      generalize Eval.evaluateStatement setup s e.run = evaluated at hstatement ⊢
      obtain ⟨cause | value, r⟩ := evaluated
      · exact hstatement.append_nil
      · exact interpretBindings_keeps hP rest hstatement

theorem register_keeps (hP : Upheld setup P) (source : String) (he : e.Has P keys) :
    (e.register setup source).2.Has P (keys ++ e.registerBinds setup source) := by
  have hparse : (e.parseSource source).2.Has P keys := he
  unfold register registerBinds
  generalize e.parseSource source = parsed at hparse ⊢
  obtain ⟨error | p, e'⟩ := parsed
  · exact hparse.append_nil
  · simp only
    split
    · exact interpretBindings_keeps hP p.bindings hparse
    · exact bindAll_keeps hP p.bindings hparse

theorem setMode_keeps (mode : Mode) (he : e.Has P keys) : (e.setMode mode).Has P keys := by
  unfold setMode
  split
  · exact he
  · exact he

theorem install_keeps (hP : Upheld setup P) (b : Bundle) (he : e.Has P keys) :
    (e.install setup b).2.Has P (keys ++ e.installBinds setup b) := by
  have hparse : (e.parseSource b.source).2.Has P keys := he
  unfold install installBinds
  split
  · exact he.append_nil
  · split
    · exact he.append_nil
    · generalize e.parseSource b.source = parsed at hparse ⊢
      obtain ⟨error | p, e'⟩ := parsed
      · exact hparse.append_nil
      · simp only
        split
        · exact hparse.append_nil
        · split
          · exact bindAll_keeps hP p.bindings (setMode_keeps .aheadOfTime hparse)
          · exact bindAll_keeps hP p.bindings hparse

theorem runScript_keeps (hP : Upheld setup P) (files : Store) (path : String)
    (he : e.Has P keys) :
    (e.runScript setup files path).2.Has P (keys ++ e.runScriptBinds setup files path) := by
  unfold runScript runScriptBinds
  cases files.read path with
  | error cause => exact he.append_nil
  | ok content =>
      simp only
      cases Bundle.ofText? content with
      | none => exact execute_keeps hP content he
      | some b => exact install_keeps hP b he

theorem loadBundle_keeps (hP : Upheld setup P) (files : Store) (path : String)
    (he : e.Has P keys) :
    (e.loadBundle setup files path).2.Has P (keys ++ e.loadBundleBinds setup files path) := by
  unfold loadBundle loadBundleBinds
  cases files.read path with
  | error cause => exact he.append_nil
  | ok content =>
      simp only
      cases Bundle.ofText? content with
      | none => exact he.append_nil
      | some b => exact install_keeps hP b he

/-! ## Hotkeys -/

theorem invoke_keeps (hP : Upheld setup P) (hotkey : String) (he : e.Has P keys) :
    (e.invoke setup hotkey).2.Has P (keys ++ e.invokeBinds setup hotkey) := by
  unfold invoke invokeBinds
  split
  · exact Machine.invoke_keeps (hP.machine keys e.actions) hotkey [] he.append_nil
  · exact Has.append_nil <|
      Native.Keyboard.invoke_keeps (hP.call keys e.bindings) (k := e.keyboard) hotkey he

theorem trigger_keeps (hP : Upheld setup P) (hotkey : String) (he : e.Has P keys) :
    (e.trigger setup hotkey).2.Has P (keys ++ e.invokeBinds setup hotkey) := by
  unfold trigger invokeBinds
  split
  · exact Machine.trigger_keeps (hP.machine keys e.actions) hotkey [] he.append_nil
  · exact Has.append_nil <|
      Native.Keyboard.trigger_keeps (hP.call keys e.bindings) (k := e.keyboard) hotkey he

/-- Operations that remove no binding keep what is upheld. -/
theorem Operation.perform_keeps (hP : Upheld setup P) {op : Operation}
    (hop : ∀ hotkey, op ≠ .unbind hotkey) (he : e.Has P keys) :
    (op.perform setup e).Has P (keys ++ op.binds setup e) := by
  cases op with
  | execute source => exact execute_keeps hP source he
  | register source => exact register_keeps hP source he
  | runScript files path => exact runScript_keeps hP files path he
  | loadBundle files path => exact loadBundle_keeps hP files path he
  | trigger hotkey => exact trigger_keeps hP hotkey he
  | invoke hotkey => exact invoke_keeps hP hotkey he
  | unbind hotkey => exact absurd rfl (hop hotkey)
  | setMode mode => exact (setMode_keeps mode he).append_nil

end Engine
end Chord
