import Chord.Proofs.Engine.Listings
import Chord.Proofs.Native.Reports

/-!
# Failed loads

An engine is given scripts in four ways: as a text to run, as a text whose bindings are registered,
as a file, and as a bundle. Each of them reads, checks and compiles in an order of its own, and each
of these steps can fail.

**Input.** Any engine, and a `Load` that ends with an error.

**Algorithm.** Errors are told apart by the step that they come from. Up to the step that binds,
only notes are made. That step binds what can be compiled, whatever else fails, and nothing runs
before everything has been compiled.

**Results.** `Load.run_error`: a load that is refused leaves the engine as it was. A load that fails
because something cannot be compiled runs nothing: the bindings that can be compiled are bound and
announced, and everything else stays.
-/

namespace Chord

variable {σ : Type}

/-! ## Errors by their step -/

namespace EngineError

/-- A file or a text that cannot be read as what it should be. -/
def isRefusal : EngineError → Bool
  | .file _ _ => true
  | .parse _ => true
  | .bundle _ => true
  | .json => true
  | _ => false

/-- Statements that cannot be compiled. -/
def isCompilation : EngineError → Bool
  | .bindings _ => true
  | .compile _ => true
  | _ => false

end EngineError

namespace Engine

/-! ## Loads -/

/-- A script on its way into an engine. -/
inductive Load where
  | execute (source : String)
  | register (source : String)
  | runScript (files : Store) (path : String)
  | loadBundle (files : Store) (path : String)

/-- Loads a script; of a success only the engine is kept. -/
def Load.run (setup : Setup σ) (e : Engine σ) : Load → Except EngineError Unit × Engine σ
  | .execute source =>
      ((e.execute setup source).1.map fun _ => (), (e.execute setup source).2)
  | .register source =>
      ((e.register setup source).1.map fun _ => (), (e.register setup source).2)
  | .runScript files path =>
      ((e.runScript setup files path).1.map fun _ => (), (e.runScript setup files path).2)
  | .loadBundle files path =>
      ((e.loadBundle setup files path).1.map fun _ => (), (e.loadBundle setup files path).2)

/-- The script that is loaded: a text, the text of a file, or the source of the bundle in a file. -/
def Load.script? : Load → Option String
  | .execute source => some source
  | .register source => some source
  | .runScript files path =>
      (files.read path).toOption.map fun content =>
        ((Bundle.ofText? content).map (·.source)).getD content
  | .loadBundle files path =>
      (files.read path).toOption.bind fun content => (Bundle.ofText? content).map (·.source)

/-- The engine with compiled hotkeys bound and announced, one after the other. -/
def extended (setup : Setup σ) (made : List Native.Compiled) (e : Engine σ) : Engine σ :=
  { e with
    host := setup.host.registerAll (made.map Native.Compiled.key) e.host
    actions := e.actions.insertAll Native.Compiled.key made }

/-- What a load that fails leaves of an engine, the journal aside. -/
structure Spares (setup : Setup σ) (script? : Option String) (e : Engine σ) (error : EngineError)
    (e' : Engine σ) : Prop where
  refusal : error.isRefusal = true → e'.silent = e.silent
  compilation : error.isCompilation = true → ∃ source p mode, script? = some source ∧
    Chord.parseSource source = .ok p ∧ (e.mode.isInterpreter = false → mode = e.mode) ∧
    e'.silent = (({ e with mode } : Engine σ).extended setup
      (Native.compiledIn setup.registry p.statements)).silent

variable {setup : Setup σ} {e e' : Engine σ} {error : EngineError}

/-- Errors while something runs say nothing about loading. -/
theorem Spares.of_runtime {script? : Option String} {cause : Stop} :
    Spares setup script? e (.runtime cause) e' :=
  ⟨nofun, nofun⟩

/-- A refusal after nothing but notes. -/
theorem Spares.of_refusal {script? : Option String} (herror : error.isCompilation = false)
    (h : e'.silent = e.silent) : Spares setup script? e error e' :=
  ⟨fun _ => h, fun hcompilation => by rw [herror] at hcompilation; cases hcompilation⟩

/-- Notes in front of a load make no difference. -/
theorem Spares.of_silent {script? : Option String} {noted : Engine σ}
    (h : Spares setup script? noted error e') (hnoted : noted.silent = e.silent) :
    Spares setup script? e error e' := by
  have hmode : noted.mode = e.mode := congrArg (·.mode) hnoted
  refine ⟨fun hrefusal => (h.refusal hrefusal).trans hnoted, fun hcompilation => ?_⟩
  obtain ⟨source, p, mode, hscript, hparse, hkept, hsilent⟩ := h.compilation hcompilation
  refine ⟨source, p, mode, hscript, hparse, hmode ▸ hkept, hsilent.trans ?_⟩
  exact congrArg (fun e : Engine σ => ({ e with mode } : Engine σ).extended setup
    (Native.compiledIn setup.registry p.statements)) hnoted

/-! ## Steps -/

/-- Binding changes the actions and the host by what can be compiled. -/
theorem silent_bindAll (setup : Setup σ) (ss : List Stmt) (e : Engine σ) :
    (e.bindAll setup ss).2.silent =
      (e.extended setup (Native.compiledIn setup.registry ss)).silent := by
  have hdealt := Native.Keyboard.compileAll_dealt setup ss e.keyboard
  rw [bindAll_eq]
  unfold withKeyboard silent
  simp only [hdealt.host, hdealt.actions]
  rfl

/-- Binding the bindings of a program binds what can be compiled in the program. -/
theorem silent_bindAll_bindings (setup : Setup σ) (p : Program) (e : Engine σ) :
    (e.bindAll setup p.bindings).2.silent =
      (e.extended setup (Native.compiledIn setup.registry p.statements)).silent := by
  have hbindings : Native.compiledIn setup.registry p.bindings =
      Native.compiledIn setup.registry p.statements := by
    refine Native.compiledIn_filter (fun s c hs => ?_) p.statements
    cases s with
    | bind hotkey action line => rfl
    | _ => cases hs
  rw [silent_bindAll, hbindings]

theorem bindAll_error {ss : List Stmt} (h : (e.bindAll setup ss).1 = .error error) :
    ∃ failures, error = .bindings failures := by
  unfold bindAll at h
  simp only at h
  split at h
  · cases h
  · cases h
    exact ⟨_, rfl⟩

/-- Bindings of a script that cannot all be compiled, in an engine that may have changed its mode. -/
theorem bindAll_spares {source : String} {p : Program} (hparse : Chord.parseSource source = .ok p)
    {start : Engine σ} {mode : Mode} (hmode : e.mode.isInterpreter = false → mode = e.mode)
    (hstart : start.silent = ({ e with mode } : Engine σ).silent)
    (h : start.bindAll setup p.bindings = (.error error, e')) :
    Spares setup (some source) e error e' := by
  have hbound := silent_bindAll_bindings setup p start
  rw [h] at hbound
  obtain ⟨failures, rfl⟩ := bindAll_error (congrArg Prod.fst h)
  refine ⟨nofun, fun _ => ⟨source, p, mode, rfl, hparse, hmode, hbound.trans ?_⟩⟩
  exact congrArg (fun e : Engine σ =>
    e.extended setup (Native.compiledIn setup.registry p.statements)) hstart

theorem mapError_runtime_error {α : Type} {result : Except Stop α}
    (h : result.mapError EngineError.runtime = .error error) : ∃ cause, error = .runtime cause := by
  cases result with
  | ok a => cases h
  | error cause =>
      cases h
      exact ⟨cause, rfl⟩

/-- Statements that cannot be compiled are not run. -/
theorem runCompiled_error {statements : List Stmt}
    (h : e.runCompiled setup statements = (.error error, e')) :
    (∃ cause, error = .runtime cause) ∨ (∃ cause, error = .compile cause) ∧ e'.silent = e.silent := by
  obtain ⟨-, hk⟩ := Native.Keyboard.compile_silent setup (.block statements) e.keyboard
  unfold runCompiled at h
  rcases hcompile : e.keyboard.compile setup (.block statements) with ⟨_ | action, k⟩
  · rw [hcompile] at h hk
    cases h
    refine .inr ⟨⟨_, rfl⟩, ?_⟩
    rw [silent_withKeyboard, hk]
    rfl
  · rw [hcompile] at h
    exact .inl (mapError_runtime_error (congrArg Prod.fst h))

theorem executeProgram_spares {source : String} {p : Program}
    (hparse : Chord.parseSource source = .ok p)
    (h : e.executeProgram setup p = (.error error, e')) :
    Spares setup (some source) e error e' := by
  unfold executeProgram at h
  split at h
  · obtain ⟨cause, rfl⟩ := mapError_runtime_error (congrArg Prod.fst h)
    exact .of_runtime
  · rcases hbind : e.bindAll setup p.bindings with ⟨_ | keys, bound⟩
    · rw [hbind] at h
      cases h
      exact bindAll_spares hparse (fun _ => rfl) rfl hbind
    · have hbound := silent_bindAll_bindings setup p e
      rw [hbind] at h hbound
      simp only at h
      split at h
      · cases h
      · rcases runCompiled_error h with ⟨cause, rfl⟩ | ⟨⟨cause, rfl⟩, hsilent⟩
        · exact .of_runtime
        · exact ⟨nofun, fun _ =>
            ⟨source, p, e.mode, rfl, hparse, fun _ => rfl, hsilent.trans hbound⟩⟩

/-! ## Whole loads -/

theorem execute_spares {source : String} (h : e.execute setup source = (.error error, e')) :
    Spares setup (some source) e error e' := by
  unfold execute parseSource at h
  cases hparse : Chord.parseSource source with
  | error cause =>
      rw [hparse] at h
      cases h
      exact .of_refusal rfl (silent_noteAll e _)
  | ok p =>
      rw [hparse] at h
      exact (executeProgram_spares hparse h).of_silent (silent_noteAll e _)

theorem register_spares {source : String} (h : e.register setup source = (.error error, e')) :
    Spares setup (some source) e error e' := by
  cases hparse : Chord.parseSource source with
  | error cause =>
      simp only [register, parseSource, hparse, Except.mapError] at h
      cases h
      exact .of_refusal rfl (silent_noteAll e _)
  | ok p =>
      cases hmode : e.mode.isInterpreter with
      | true =>
          -- An interpreter registers whatever can be read.
          have hregister : (e.register setup source).1 = .ok (p.bindings.map Stmt.key) :=
            register_interpreted hparse hmode
          rw [h] at hregister
          cases hregister
      | false =>
          obtain ⟨noted, hnoted, hregister⟩ : ∃ noted : Engine σ, noted.silent = e.silent ∧
              e.register setup source = noted.bindAll setup p.bindings :=
            register_compiled hparse hmode
          rw [hregister] at h
          exact bindAll_spares hparse (fun _ => rfl) hnoted h

theorem install_spares {b : Bundle} (h : e.install setup b = (.error error, e')) :
    Spares setup (some b.source) e error e' := by
  unfold install at h
  split at h
  · cases h
    exact .of_refusal rfl rfl
  split at h
  · cases h
    exact .of_refusal rfl rfl
  cases hparse : Chord.parseSource b.source with
  | error cause =>
      simp only [parseSource, hparse, Except.mapError] at h
      cases h
      exact .of_refusal rfl (silent_noteAll e _)
  | ok p =>
      simp only [parseSource, hparse, Except.mapError] at h
      split at h
      · cases h
        exact .of_refusal rfl (silent_noteAll e _)
      · -- Only the interpreter changes its mode before anything is bound.
        generalize sourceNotes b.source = notes at h
        have hsame : (e.noteAll notes).mode = e.mode := rfl
        rw [hsame] at h
        cases hmode : e.mode.isInterpreter with
        | true =>
            rw [if_pos hmode] at h
            have hswitched : ((e.noteAll notes).setMode .aheadOfTime).silent =
                ({ e with mode := .aheadOfTime } : Engine σ).silent :=
              silent_setMode .aheadOfTime (e.noteAll notes)
            exact bindAll_spares hparse (fun hcompiled => absurd hmode (by simp [hcompiled]))
              hswitched h
        | false =>
            rw [if_neg (by simp [hmode])] at h
            exact bindAll_spares hparse (fun _ => rfl) (silent_noteAll e notes) h

theorem eq_error_of_map {α β : Type} {f : α → β} {x : Except EngineError α × Engine σ}
    (h : (x.1.map f, x.2) = (.error error, e')) : x = (.error error, e') := by
  rcases x with ⟨_ | a, after⟩
  · cases h
    rfl
  · cases h

theorem runScript_spares {files : Store} {path : String}
    (h : e.runScript setup files path = (.error error, e')) :
    Spares setup (Load.runScript files path).script? e error e' := by
  unfold runScript at h
  cases hread : files.read path with
  | error cause =>
      rw [hread] at h
      cases h
      exact .of_refusal rfl rfl
  | ok content =>
      rw [hread] at h
      simp only at h
      cases htext : Bundle.ofText? content with
      | some b =>
          have hscript : (Load.runScript files path).script? = some b.source := by
            simp [Load.script?, hread, htext, Except.toOption]
          rw [htext] at h
          rw [hscript]
          exact (install_spares (eq_error_of_map h)).of_silent (silent_note e _ _)
      | none =>
          have hscript : (Load.runScript files path).script? = some content := by
            simp [Load.script?, hread, htext, Except.toOption]
          rw [htext] at h
          rw [hscript]
          exact (execute_spares h).of_silent (silent_note e _ _)

theorem loadBundle_spares {files : Store} {path : String}
    (h : e.loadBundle setup files path = (.error error, e')) :
    Spares setup (Load.loadBundle files path).script? e error e' := by
  unfold loadBundle at h
  cases hread : files.read path with
  | error cause =>
      rw [hread] at h
      cases h
      exact .of_refusal rfl rfl
  | ok content =>
      rw [hread] at h
      simp only at h
      cases htext : Bundle.ofText? content with
      | some b =>
          have hscript : (Load.loadBundle files path).script? = some b.source := by
            simp [Load.script?, hread, htext, Except.toOption]
          rw [htext] at h
          rw [hscript]
          exact install_spares h
      | none =>
          rw [htext] at h
          cases h
          exact .of_refusal rfl rfl

theorem Load.run_spares {load : Load} (h : load.run setup e = (.error error, e')) :
    Spares setup load.script? e error e' := by
  cases load with
  | execute source => exact execute_spares (eq_error_of_map h)
  | register source => exact register_spares (eq_error_of_map h)
  | runScript files path => exact runScript_spares (eq_error_of_map h)
  | loadBundle files path => exact loadBundle_spares (eq_error_of_map h)

/-- **Failed loads run nothing.** A load that is refused leaves the engine as it was, the journal
aside. If something cannot be compiled, then the hotkeys of the script that can be compiled have
been bound and announced in order. The other actions, the interpreted bindings and the scope stay,
and nothing else was done to the host; on a desktop, announcements show in the list of announced
hotkeys alone. -/
theorem Load.run_error {load : Load} (h : load.run setup e = (.error error, e')) :
    (error.isRefusal = true → e'.silent = e.silent) ∧
      (error.isCompilation = true → ∃ source p, load.script? = some source ∧
        Chord.parseSource source = .ok p ∧
        let made := Native.compiledIn setup.registry p.statements
        e'.bindings = e.bindings ∧ e'.scope = e.scope ∧
          (e.mode.isInterpreter = false → e'.mode = e.mode) ∧
          (∀ key, e'.actions.get? key =
            (made.reverse.find? fun c => c.key == key).or (e.actions.get? key)) ∧
          e'.host = setup.host.registerAll (made.map Native.Compiled.key) e.host) ∧
      ∀ (keys : List String) (d : Desktop), Desktop.host.registerAll keys d =
        { d with registered := d.registered ++ keys } := by
  have hspares := run_spares h
  refine ⟨hspares.refusal, fun hcompilation => ?_, Desktop.registerAll_host⟩
  obtain ⟨source, p, mode, hscript, hparse, hmode, hsilent⟩ := hspares.compilation hcompilation
  refine ⟨source, p, hscript, hparse, ?_, ?_, ?_, fun key => ?_, ?_⟩
  · exact congrArg (·.bindings) hsilent
  · exact congrArg (·.scope) hsilent
  · exact fun hcompiled => (congrArg (·.mode) hsilent).trans (hmode hcompiled)
  · rw [← Table.get?_insertAll]
    exact congrArg (·.actions.get? key) hsilent
  · exact congrArg (·.host) hsilent

/-- A hotkey that is bound, a binding of it that cannot be compiled, and a statement to run. -/
def halfBoundSource : String :=
  "^a => send \"x\"\nCtrl+A => gone\nsend \"z\""

/-- The program of `halfBoundSource`. -/
def halfBoundProgram : Program where
  statements := [
    .bind (.hotkey "^a") (.expr (.call (.identifier "send") [.string "x"])) 1,
    .bind (.hotkey "Ctrl+A") (.expr (.identifier "gone")) 2,
    .expr (.call (.identifier "send") [.string "z"])]

theorem Load.run_error_halfBound :
    let setup : Setup Desktop := ⟨Desktop.host, .standard Desktop.host, ⟨256, 10⟩⟩
    let e : Engine Desktop := start .jit (.fresh "c" ["w"])
    (∃ error e', (Load.register "F1 => \x7b send").run setup e = (.error error, e') ∧
      error.isRefusal = true ∧ e'.silent = e.silent) ∧
      ∃ error e', (Load.execute halfBoundSource).run setup e = (.error error, e') ∧
        error.isCompilation = true ∧ e'.host = { e.host with registered := ["Ctrl+A"] } ∧
        e'.keyboard.isBound "^a" = true := by
  intro setup e
  -- Only results are evaluated; the engine after a load remains a variable.
  have hrun : ∀ {load : Load} {error : EngineError}, (load.run setup e).1 = .error error →
      ∃ e', load.run setup e = (.error error, e') := by
    intro load error hresult
    exact ⟨(load.run setup e).2, by rw [← hresult]⟩
  constructor
  · have hresult : ((Load.register "F1 => \x7b send").run setup e).1 =
        .error (.parse ⟨.blockEnd, ⟨.eof, "", ⟨1, 13⟩⟩⟩) := by decide +kernel
    obtain ⟨e', hfailed⟩ := hrun hresult
    exact ⟨_, e', hfailed, rfl, (Load.run_error hfailed).1 rfl⟩
  · have htokens : tokenize halfBoundSource = [
        ⟨.hotkey, "^a", ⟨1, 1⟩⟩, ⟨.arrow, "=>", ⟨1, 4⟩⟩, ⟨.identifier, "send", ⟨1, 7⟩⟩,
        ⟨.string, "x", ⟨1, 12⟩⟩, ⟨.newline, "\n", ⟨1, 15⟩⟩,
        ⟨.hotkey, "Ctrl+A", ⟨2, 1⟩⟩, ⟨.arrow, "=>", ⟨2, 8⟩⟩, ⟨.identifier, "gone", ⟨2, 11⟩⟩,
        ⟨.newline, "\n", ⟨2, 15⟩⟩, ⟨.identifier, "send", ⟨3, 1⟩⟩, ⟨.string, "z", ⟨3, 6⟩⟩,
        ⟨.eof, "", ⟨3, 9⟩⟩] := by decide +kernel
    have hparse : Chord.parseSource halfBoundSource = .ok halfBoundProgram := by
      unfold Chord.parseSource
      rw [htokens]
      rfl
    have hresult : ((Load.execute halfBoundSource).run setup e).1 =
        .error (.bindings [⟨"Ctrl+A", 2, .resolution (.unknownIdentifier "gone")⟩]) := by
      decide +kernel
    obtain ⟨e', hfailed⟩ := hrun hresult
    obtain ⟨-, hbound, hlist⟩ := Load.run_error hfailed
    obtain ⟨source, p, hsource, hp, -, -, -, hactions, hhost⟩ := hbound rfl
    obtain rfl : halfBoundSource = source := Option.some.inj hsource
    obtain rfl : halfBoundProgram = p := Except.ok.inj (hparse.symm.trans hp)
    have hmade : (Native.compiledIn setup.registry halfBoundProgram.statements).map
        Native.Compiled.key = ["Ctrl+A"] := by decide +kernel
    have hfound : ((Native.compiledIn setup.registry halfBoundProgram.statements).reverse.find?
        fun c => c.key == normalize "^a").isSome = true := by decide +kernel
    refine ⟨_, e', hfailed, rfl, ?_, ?_⟩
    · rw [hhost, hmade]
      exact hlist ["Ctrl+A"] e.host
    · rw [Native.Keyboard.isBound, Table.contains]
      show (e'.actions.get? (normalize "^a")).isSome = true
      rw [hactions, Option.isSome_or, hfound, Bool.true_or]

end Engine
end Chord
