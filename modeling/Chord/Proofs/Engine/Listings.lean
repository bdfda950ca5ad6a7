import Chord.Command.Basic
import Chord.Proofs.Engine.Bundles

/-!
# Listings of hotkeys

The hotkeys of a script are listed in several places: when it is checked, when it is registered in
an interpreter or in a compiled mode, and in the bundle that is written of it. Each of them goes
through the script in its own way, and not all of them know what to do with a binding that has no
literal hotkey.

**Input.** The text of a script.

**Algorithm.** Scripts have no bindings but those of literal hotkeys (`exists_bind_of_mem_bindings`),
so every listing takes the same hotkeys. An interpreter cannot fail to bind a literal hotkey, and a
compiler fails on none of the bindings if it fails on none of the actions.

**Results.** `listings_agree`: a script can be checked, and registered by an interpreter, exactly if
it can be read, and the lists are the same. They are also what a compiled mode registers and what a
bundle holds, if the actions can be compiled.
-/

namespace Chord

variable {σ : Type}

/-! ## Checking -/

/-- Where every hotkey is literal, none is left out. -/
theorem filterMap_hotkeyText? {ss : List Stmt}
    (hss : ∀ s ∈ ss, ∃ text action line, s = .bind (.hotkey text) action line) :
    ss.filterMap (fun s => s.hotkeyText?.map normalize) = ss.map Stmt.key := by
  rw [← List.filterMap_eq_map]
  refine List.filterMap_congr fun s hs => ?_
  obtain ⟨text, action, line, rfl⟩ := hss s hs
  rfl

theorem Command.check_of_parse {source : String} {p : Program}
    (hparse : parseSource source = .ok p) (style : Option Style) :
    ∃ summary, Command.check style source = .ok summary ∧
      summary.bindings = p.bindings.map Stmt.key := by
  unfold Command.check
  rw [hparse]
  refine ⟨_, rfl, ?_⟩
  exact filterMap_hotkeyText? fun s hs => exists_bind_of_mem_bindings hparse hs

theorem Command.check_eq_ok_iff {source : String} {style : Option Style} :
    (∃ summary, Command.check style source = .ok summary) ↔
      ∃ p, parseSource source = .ok p := by
  constructor
  · rintro ⟨summary, hcheck⟩
    cases hparse : parseSource source with
    | error cause =>
        rw [Command.check, hparse] at hcheck
        cases hcheck
    | ok p => exact ⟨p, rfl⟩
  · rintro ⟨p, hparse⟩
    obtain ⟨summary, hcheck, -⟩ := Command.check_of_parse hparse style
    exact ⟨summary, hcheck⟩

namespace Engine

variable {setup : Setup σ}

/-! ## Registering -/

/-- An interpreter binds every literal hotkey. -/
theorem interpretBindings_literal (setup : Setup σ) : (ss : List Stmt) →
    (∀ s ∈ ss, ∃ text action line, s = .bind (.hotkey text) action line) → (e : Engine σ) →
    (e.interpretBindings setup ss).1 = .ok (ss.map Stmt.key)
  | [], _, _ => rfl
  | s :: rest, hss, e => by
      obtain ⟨text, action, line, rfl⟩ := hss s List.mem_cons_self
      let bound := e.toMachine.bind setup.host text action e.scope
      have hrun : Eval.evaluateStatement setup (.bind (.hotkey text) action line) e.run =
          (.ok .null, ⟨e.scope, bound⟩) := rfl
      have hrest := interpretBindings_literal setup rest
        (fun s hs => hss s (List.mem_cons_of_mem _ hs)) (e.withRun ⟨e.scope, bound⟩)
      rw [interpretBindings, hrun]
      simp only [hrest, Except.map, List.map_cons, Stmt.key]

theorem register_interpreted {source : String} {p : Program}
    (hparse : Chord.parseSource source = .ok p) {e : Engine σ}
    (hmode : e.mode.isInterpreter = true) :
    (e.register setup source).1 = .ok (p.bindings.map Stmt.key) := by
  simp only [register, parseSource, hparse, Except.mapError]
  generalize sourceNotes source = notes
  generalize (p.others.map fun s => (_ : Note)) = warnings
  have hmode' : ((e.noteAll notes).noteAll warnings).mode.isInterpreter = true := hmode
  rw [if_pos hmode']
  exact interpretBindings_literal setup p.bindings
    (fun s hs => exists_bind_of_mem_bindings hparse hs) _

theorem register_eq_ok_iff {source : String} {e : Engine σ}
    (hmode : e.mode.isInterpreter = true) :
    (∃ keys, (e.register setup source).1 = .ok keys) ↔
      ∃ p, Chord.parseSource source = .ok p := by
  constructor
  · rintro ⟨keys, hregister⟩
    cases hparse : Chord.parseSource source with
    | error cause =>
        simp only [register, parseSource, hparse, Except.mapError] at hregister
        cases hregister
    | ok p => exact ⟨p, rfl⟩
  · rintro ⟨p, hparse⟩
    exact ⟨_, register_interpreted hparse hmode⟩

/-! ## Compiling -/

theorem bindable_of_compiles {source : String} {p : Program}
    (hparse : Chord.parseSource source = .ok p)
    (hcompile : ∀ hotkey action line, Stmt.bind hotkey action line ∈ p.statements →
      Compiles setup.registry action) :
    ∀ s ∈ p.bindings, s.Bindable setup.registry := by
  intro s hs
  obtain ⟨text, action, line, rfl⟩ := exists_bind_of_mem_bindings hparse hs
  exact ⟨text, action, line, rfl, hcompile _ _ _ (List.mem_filter.1 hs).1⟩

/-- Bindings that can be compiled are verified, in every engine with the same entries. -/
theorem verify_bindable : (ss : List Stmt) → (∀ s ∈ ss, s.Bindable setup.registry) →
    ∃ entries : List BundleEntry, entries.map (·.normalized) = ss.map Stmt.key ∧
      ∀ e : Engine σ, ∃ e', e.verify setup ss = ((entries, []), e')
  | [], _ => ⟨[], rfl, fun e => ⟨e, rfl⟩⟩
  | s :: rest, hss => by
      obtain ⟨entries, hkeys, hverify⟩ :=
        verify_bindable rest fun s hs => hss s (List.mem_cons_of_mem _ hs)
      obtain ⟨text, action, line, rfl, a, ha⟩ := hss s List.mem_cons_self
      refine ⟨⟨text, normalize text, line⟩ :: entries, ?_, fun e => ?_⟩
      · simp only [List.map_cons, hkeys, Stmt.key, Stmt.hotkeyText?, Option.getD_some]
      · have hcompile : ∃ k, e.keyboard.compile setup action = (.ok a, k) := by
          unfold Native.Keyboard.compile
          rw [ha]
          exact ⟨_, rfl⟩
        obtain ⟨k, hk⟩ := hcompile
        obtain ⟨e', he'⟩ := hverify (e.withKeyboard k)
        simp only [verify, hk, he']
        exact ⟨e', rfl⟩

/-- A script file whose bindings can be compiled becomes a bundle with the hotkeys of the script,
unless that cannot be written. -/
theorem compileFile_bindable {source : String} {p : Program}
    (hparse : Chord.parseSource source = .ok p)
    (hbindable : ∀ s ∈ p.bindings, s.Bindable setup.registry) {e : Engine σ} {files : Store}
    {input : String} (hmode : e.mode = .aheadOfTime) (hread : files.read input = .ok source)
    (output : String) :
    ∃ b : Bundle, b.source = source ∧
      b.bindings.map (·.normalized) = p.bindings.map Stmt.key ∧
      (e.compileFile setup files input output).1 =
        ((files.write output b.text).mapError (.file output)).map fun _ => b := by
  obtain ⟨entries, hkeys, hverify⟩ := verify_bindable p.bindings hbindable
  refine ⟨⟨Bundle.currentFormat, Bundle.currentVersion, entries, source⟩, rfl, hkeys, ?_⟩
  have hmode : (e.mode != .aheadOfTime) = false := by simp [hmode]
  simp only [compileFile, hmode, hread, parseSource, hparse, Except.mapError, Bool.false_eq_true,
    if_false]
  generalize (if p.others.isEmpty = true then e.noteAll _ else Engine.note _ _ _) = noted
  obtain ⟨e', hverified⟩ := hverify noted
  simp only [hverified]
  generalize Bundle.text _ = text
  cases files.write output text with
  | error cause => rfl
  | ok files' => rfl

/-- **All listings agree.** A script can be checked exactly if it can be read, and so it is with
registering it in an interpreter, whatever that has done before. Both list the hotkeys of the script
in order. If all actions on its top level can be compiled, then a compiled mode registers the same
list, and the bundle of a file with the script has it too. -/
theorem listings_agree (setup : Setup σ) (source : String) :
    (∀ style, (∃ summary, Command.check style source = .ok summary) ↔
        ∃ p, Chord.parseSource source = .ok p) ∧
      (∀ e : Engine σ, e.mode.isInterpreter = true →
        ((∃ keys, (e.register setup source).1 = .ok keys) ↔
          ∃ p, Chord.parseSource source = .ok p)) ∧
      ∀ p, Chord.parseSource source = .ok p →
        let keys := p.bindings.map Stmt.key
        (∀ style, ∃ summary, Command.check style source = .ok summary ∧
          summary.bindings = keys) ∧
        (∀ e : Engine σ, e.mode.isInterpreter = true →
          (e.register setup source).1 = .ok keys) ∧
        ((∀ hotkey action line, Stmt.bind hotkey action line ∈ p.statements →
            Compiles setup.registry action) →
          (∀ e : Engine σ, e.mode.isInterpreter = false →
            (e.register setup source).1 = .ok keys) ∧
          ∀ (e : Engine σ) (files : Store) (input output : String), e.mode = .aheadOfTime →
            files.read input = .ok source →
            ∃ b : Bundle, b.source = source ∧ b.bindings.map (·.normalized) = keys ∧
              (e.compileFile setup files input output).1 =
                ((files.write output b.text).mapError (.file output)).map fun _ => b) := by
  refine ⟨fun style => Command.check_eq_ok_iff, fun e hmode => register_eq_ok_iff hmode, ?_⟩
  intro p hparse keys
  refine ⟨Command.check_of_parse hparse, fun e hmode => register_interpreted hparse hmode, ?_⟩
  intro hcompile
  have hbindable := bindable_of_compiles hparse hcompile
  constructor
  · intro e hmode
    obtain ⟨noted, hnoted, hregister⟩ : ∃ noted : Engine σ, noted.silent = e.silent ∧
        e.register setup source = noted.bindAll setup p.bindings := register_compiled hparse hmode
    rw [hregister]
    exact (bindAll_bindable hbindable hnoted).1
  · intro e files input output hmode hread
    exact compileFile_bindable hparse hbindable hmode hread output

/-- A binding below a statement that is none. -/
def listedSource : String :=
  "let a\n^a => send \"y\""

/-- The program of `listedSource`. -/
def listedProgram : Program where
  statements := [
    .assign "a" none,
    .bind (.hotkey "^a") (.expr (.call (.identifier "send") [.string "y"])) 2]

theorem listings_agree_listed :
    let setup : Setup Desktop := ⟨Desktop.host, .standard Desktop.host, ⟨256, 10⟩⟩
    ∃ files summary b, Store.empty.write "s" listedSource = .ok files ∧
      Command.check none listedSource = .ok summary ∧ summary.bindings = ["Ctrl+A"] ∧
      ((start .interpreter (.fresh "" [])).register setup listedSource).1 = .ok ["Ctrl+A"] ∧
      ((start .jit (.fresh "" [])).register setup listedSource).1 = .ok ["Ctrl+A"] ∧
      ((start .aheadOfTime (.fresh "" [])).compileFile setup files "s" "s").1 = .ok b ∧
      b.bindings.map (·.normalized) = ["Ctrl+A"] := by
  intro setup
  have htokens : tokenize listedSource = [
      ⟨.letWord, "let", ⟨1, 1⟩⟩, ⟨.identifier, "a", ⟨1, 5⟩⟩, ⟨.newline, "\n", ⟨1, 6⟩⟩,
      ⟨.hotkey, "^a", ⟨2, 1⟩⟩, ⟨.arrow, "=>", ⟨2, 4⟩⟩, ⟨.identifier, "send", ⟨2, 7⟩⟩,
      ⟨.string, "y", ⟨2, 12⟩⟩, ⟨.eof, "", ⟨2, 15⟩⟩] := by decide +kernel
  have hparse : Chord.parseSource listedSource = .ok listedProgram := by
    unfold Chord.parseSource
    rw [htokens]
    rfl
  have hcompile : ∀ hotkey action line, Stmt.bind hotkey action line ∈ listedProgram.statements →
      Compiles setup.registry action := by
    intro hotkey action line hmem
    simp only [listedProgram, List.mem_cons, Stmt.bind.injEq, reduceCtorEq, false_or,
      List.not_mem_nil, or_false] at hmem
    obtain ⟨-, rfl, -⟩ := hmem
    exact ⟨_, rfl⟩
  have hkeys : listedProgram.bindings.map Stmt.key = ["Ctrl+A"] := by decide +kernel
  have hparts : Store.parts "s" = ["s"] := by
    rw [Store.parts, String.splitOn, if_neg (by decide), String.splitOnAux.eq_def,
      if_neg (by decide), if_neg (by decide), String.splitOnAux.eq_def, if_pos (by decide)]
    decide +kernel
  let files : Store := { files := Table.empty.insert "s" listedSource.toUTF8 }
  have hin : Store.empty.write "s" listedSource = .ok files := by
    refine Store.writeBytes_eq_ok.2 ?_
    rw [hparts]
    exact ⟨by decide +kernel, by decide +kernel, by decide +kernel, by decide +kernel, rfl⟩
  have hout : ∀ text, ∃ files', files.write "s" text = .ok files' := by
    intro text
    refine ⟨{ files with files := files.files.insert "s" text.toUTF8 },
      Store.writeBytes_eq_ok.2 ?_⟩
    rw [hparts]
    exact ⟨by decide +kernel, by decide +kernel, by decide +kernel, by decide +kernel, rfl⟩
  obtain ⟨-, -, hlists⟩ := listings_agree setup listedSource
  obtain ⟨hcheck, hinterpreted, hcompiled⟩ := hlists listedProgram hparse
  obtain ⟨hregistered, hbundled⟩ := hcompiled hcompile
  obtain ⟨summary, hsummary, hbindings⟩ := hcheck none
  obtain ⟨b, -, hentries, hresult⟩ := hbundled (start .aheadOfTime (.fresh "" [])) files "s" "s" rfl
    (Store.read_of_write hin)
  obtain ⟨files', hfiles'⟩ := hout b.text
  rw [hkeys] at hinterpreted hregistered hbindings hentries
  rw [hfiles'] at hresult
  exact ⟨files, summary, b, hin, hsummary, hbindings, hinterpreted _ rfl, hregistered _ rfl,
    hresult, hentries⟩

end Engine
end Chord
