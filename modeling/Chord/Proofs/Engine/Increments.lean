import Chord.Engine.Basic
import Chord.Host.Desktop
import Chord.Library.Standard
import Chord.Proofs.Eval.Parallel

/-!
# Scripts in pieces

An interpreting engine that gets a script in two pieces ends where it would have ended with the
whole script.

**Input.** Two scripts, of which the first one runs through.

**Results.** `evalBlock_unlined_congr`: the journal and the line numbers have no influence on what
statements do. `evalBlock_append` splits a run at any statement. `Engine.execute_joined` puts both
together with the reading of joined scripts.
-/

namespace Chord

/-! ## Apart from lines and journal -/

namespace Eval

variable {σ : Type}

/-- A run without its journal, and with line 0 in everything it stores. -/
def Run.unlined (r : Run σ) : Run σ where
  scope := r.scope.renumbered fun _ => 0
  machine :=
    { host := r.machine.host
      bindings := r.machine.bindings.map (Binding.renumbered fun _ => 0)
      depth := r.machine.depth }

theorem Run.unlined_note (r : Run σ) (level : Level) (text : String) :
    (⟨r.scope, r.machine.note level text⟩ : Run σ).unlined = r.unlined :=
  rfl

theorem Run.unlined_opened (r : Run σ) (p : Program) : (r.opened p).unlined = r.unlined :=
  r.unlined_note _ _

/-- A run without its journal. -/
def Run.silent (r : Run σ) : Run σ where
  scope := r.scope
  machine :=
    { host := r.machine.host
      bindings := r.machine.bindings
      depth := r.machine.depth }

end Eval

namespace Ensemble

open Eval

variable {σ : Type}

/-- A run, and beside it the same one with line 0 everywhere. -/
def unlined (setup : Setup σ) : Ensemble setup Bool where
  lines real := if real then fun line => line else fun _ => 0
  Related _ _ tables := tables false = (tables true).map (Binding.renumbered fun _ => 0)
  call := fun _ _ _ _ _ _ _ h => h
  bind := by
    intro _ _ tables h b
    show (tables false).insert _ (b.renumbered fun _ => 0) =
      ((tables true).insert _ (b.renumbered fun line => line)).map _
    rw [← Table.insert_map, h, Binding.renumbered_id]

theorem runs_unlined (setup : Setup σ) (r : Run σ) :
    (unlined setup).Runs r.machine.depth (fun _ => []) fun real =>
      if real then r else r.unlined := by
  refine ⟨⟨r.scope, fun real => ?_⟩, ⟨r.machine.host, fun real => ?_, rfl⟩, fun real => ?_⟩
  · cases real with
    | true => exact (Scope.renumbered_id r.scope).symm
    | false => rfl
  · cases real <;> rfl
  · cases real <;> rfl

/-- The run with line 0 everywhere stays beside the other one. -/
theorem Runs.unlined_eq {setup : Setup σ} {depth : Nat} {made : Bool → List Binding}
    {r : Bool → Run σ} (h : (unlined setup).Runs depth made r) :
    (r true).unlined = (r false).silent := by
  obtain ⟨scope, hscope⟩ := h.scope
  obtain ⟨host, hhost, hrelated⟩ := h.machines.host
  have hbindings : (r false).machine.bindings =
      (r true).machine.bindings.map (Binding.renumbered fun _ => 0) := hrelated
  have hreal : (r true).scope = scope := (hscope true).trans (Scope.renumbered_id scope)
  have hzero : (r false).scope = scope.renumbered fun _ => 0 := hscope false
  rw [Run.unlined, Run.silent, hreal, hzero, hbindings, hhost true, hhost false,
    h.machines.depth true, h.machines.depth false]

end Ensemble

namespace Eval

variable {σ : Type} (setup : Setup σ)

/-- Statements do the same with line 0 everywhere. -/
theorem evalBlock_unlined (last : Value) (body : List Stmt) (r : Run σ) :
    let real := evalBlock setup (enterFrom setup r.machine.depth) last body r
    let zero := evalBlock setup (enterFrom setup r.machine.depth) last (body.map Stmt.unlined)
      r.unlined
    real.1 = zero.1 ∧ real.2.unlined = zero.2.silent ∧
      real.2.machine.depth = r.machine.depth := by
  obtain ⟨result, hresult, hend⟩ := evalBlock_parallel
    (enterFrom_parallel (.unlined setup) r.machine.depth) last body _ _
    (Ensemble.runs_unlined setup r)
  have hbody : (body.map fun s => s.renumbered ((Ensemble.unlined setup).lines true)) = body :=
    (List.map_congr_left fun s _ => Stmt.renumbered_id s).trans (List.map_id' body)
  have hunlined := hend.unlined_eq
  have hreal := hresult true
  have hdepth := hend.machines.depth true
  simp only [hbody] at hunlined hreal hdepth
  exact ⟨hreal.trans (hresult false).symm, hunlined, hdepth⟩

/-- **The journal and the lines have no influence**: statements that differ only in their lines do
the same in runs that differ only in lines and journal. -/
theorem evalBlock_unlined_congr {r r' : Run σ} (hr : r.unlined = r'.unlined)
    {body body' : List Stmt} (hbody : body.map Stmt.unlined = body'.map Stmt.unlined)
    (last : Value) :
    let x := evalBlock setup (enterFrom setup r.machine.depth) last body r
    let y := evalBlock setup (enterFrom setup r'.machine.depth) last body' r'
    x.1 = y.1 ∧ x.2.unlined = y.2.unlined := by
  have hdepth : r.machine.depth = r'.machine.depth :=
    congrArg (·.machine.depth) hr
  obtain ⟨hresult, hend, -⟩ := evalBlock_unlined setup last body r
  obtain ⟨hresult', hend', -⟩ := evalBlock_unlined setup last body' r'
  rw [hr, hbody, hdepth] at hresult hend
  rw [hdepth]
  exact ⟨hresult.trans hresult'.symm, hend.trans hend'.symm⟩

variable {setup} {enter : Enter σ}

/-- Statements run in two parts, the second one unless the first one left. -/
theorem evalBlock_append : (last : Value) → (first second : List Stmt) →
    evalBlock setup enter last (first ++ second) = (do
      match ← evalBlock setup enter last first with
      | .normal value => evalBlock setup enter value second
      | .left value => return .left value)
  | last, [], second => by
      simp only [List.nil_append, evalBlock]
      rfl
  | last, s :: first, second => by
      simp only [List.cons_append, evalBlock]
      rw [Act.bind_assoc_act]
      congr 1
      funext flow
      cases flow with
      | normal value => exact evalBlock_append value first second
      | left value => rfl

theorem evalBlock_append_of_normal {last value : Value} {first : List Stmt} {r r' : Run σ}
    (h : evalBlock setup enter last first r = (.ok (.normal value), r')) (second : List Stmt) :
    evalBlock setup enter last (first ++ second) r = evalBlock setup enter value second r' := by
  rw [evalBlock_append, Act.bind_apply_ok h]

/-- Only the block without statements gives back the value before it. -/
theorem evalBlock_last {body : List Stmt} (h : body ≠ []) (last last' : Value) :
    evalBlock setup enter last body = evalBlock setup enter last' body := by
  cases body with
  | nil => exact absurd rfl h
  | cons s rest => simp only [evalBlock]

end Eval

/-! ## Engines -/

/-- Two scripts with a line end between them have the statements of both, those of the second one
on other lines. -/
theorem exists_joined {source₁ source₂ : String} {p₁ p₂ : Program}
    (h₁ : parseSource source₁ = .ok p₁) (h₂ : parseSource source₂ = .ok p₂) :
    ∃ p : Program, parseSource (source₁ ++ "\n" ++ source₂) = .ok p ∧
      ∃ lines, p.statements = p₁.statements ++ p₂.statements.map (Stmt.moved lines) := by
  have hfirst := parseSource_eq_ok_iff.1 h₁
  have hsecond := parseSource_eq_ok_iff.1 h₂
  have htext : (source₁ ++ "\n" ++ source₂).toList = source₁.toList ++ '\n' :: source₂.toList := by
    simp
  have hmoved := hsecond.append (1 + source₁.toList.count '\n') [] .nil (.inr rfl)
  have hjoined := hfirst.append 0
    (⟨.newline, "\n", Position.start.after source₁.toList⟩ :: spliced _ [] _) hmoved (.inl rfl)
  refine ⟨⟨_⟩, parseSource_eq_ok_iff.2 ?_, 1 + source₁.toList.count '\n', rfl⟩
  rw [htext, wordsOf_joined]
  simpa only [spliced, List.append_nil, List.map_id'' Token.moved_zero,
    List.map_id'' Stmt.moved_zero] using hjoined

namespace Engine

open Eval

variable {σ : Type}

/-- An engine without its journal, and with line 0 in all statements that it stores: the actions of
bindings and the functions in scopes. -/
def unlined (e : Engine σ) : Engine σ :=
  { e with toMachine := e.run.unlined.machine, scope := e.run.unlined.scope }

/-- A program ends in an engine without a failure and without leaving by `return`. -/
def RunsThrough (setup : Setup σ) (p : Program) (e : Engine σ) : Prop :=
  ∃ value, (evalBlock setup (enterFrom setup e.depth) .null p.statements e.run).1 =
    .ok (.normal value)

theorem unlined_withRun (e : Engine σ) {r r' : Run σ} (h : r.unlined = r'.unlined) :
    (e.withRun r).unlined = (e.withRun r').unlined := by
  show { e with toMachine := r.unlined.machine, scope := r.unlined.scope } = _
  rw [h]
  rfl

theorem executeProgram_interpreted {setup : Setup σ} {e : Engine σ}
    (hmode : e.mode.isInterpreter = true) (p : Program) :
    e.executeProgram setup p =
      let x := evalBlock setup (enterFrom setup e.depth) .null p.statements (e.run.opened p)
      ((x.1.map Flow.value).mapError .runtime, e.withRun x.2) := by
  rw [executeProgram, if_pos hmode]
  rfl

/-- A script that can be read runs its statements, after some notes. -/
theorem execute_interpreted (setup : Setup σ) {e : Engine σ} (hmode : e.mode.isInterpreter = true)
    {source : String} {p : Program} (hparse : Chord.parseSource source = .ok p) :
    ∃ start : Run σ, start.unlined = e.run.unlined ∧ e.execute setup source =
      let x := evalBlock setup (enterFrom setup e.depth) .null p.statements start
      ((x.1.map Flow.value).mapError .runtime, e.withRun x.2) := by
  rw [execute, parseSource, hparse]
  generalize sourceNotes source = notes
  exact ⟨_, (e.noteAll notes).run.unlined_opened p,
    executeProgram_interpreted (e := e.noteAll notes) hmode p⟩

/-- Notes in the journal do not change how a program runs through. -/
theorem RunsThrough.exists_end {setup : Setup σ} {e : Engine σ} {p : Program}
    (h : e.RunsThrough setup p) :
    ∃ value ending, ∀ start : Run σ, start.unlined = e.run.unlined → ∃ r : Run σ,
      evalBlock setup (enterFrom setup e.depth) .null p.statements start =
        (.ok (.normal value), r) ∧ r.machine.depth = e.depth ∧ r.unlined = ending := by
  obtain ⟨value, hvalue⟩ := h
  refine ⟨value, (evalBlock setup (enterFrom setup e.depth) .null p.statements e.run).2.unlined,
    fun start hstart => ?_⟩
  have hdepth : start.machine.depth = e.depth := congrArg (·.machine.depth) hstart
  obtain ⟨-, -, hkept⟩ := evalBlock_unlined setup .null p.statements start
  obtain ⟨hresult, hend⟩ := evalBlock_unlined_congr setup hstart
    (Eq.refl (p.statements.map Stmt.unlined)) .null
  rw [hdepth] at hkept hresult hend
  exact ⟨_, Prod.ext (hresult.trans hvalue) rfl, hkept, hend⟩

/-- **A script in two pieces** does what it does as a whole: the second piece has the same result,
and the engine ends with the same variables, functions, bindings and host, apart from line numbers
and the journal. -/
theorem execute_joined (setup : Setup σ) {e : Engine σ} (hmode : e.mode.isInterpreter = true)
    {source₁ source₂ : String} {p₁ p₂ : Program} (h₁ : Chord.parseSource source₁ = .ok p₁)
    (h₂ : Chord.parseSource source₂ = .ok p₂) (hsome : p₂.statements ≠ [])
    (hthrough : e.RunsThrough setup p₁) :
    let pieces := (e.execute setup source₁).2.execute setup source₂
    let whole := e.execute setup (source₁ ++ "\n" ++ source₂)
    pieces.1 = whole.1 ∧ pieces.2.unlined = whole.2.unlined := by
  obtain ⟨p, hp, lines, hstatements⟩ := exists_joined h₁ h₂
  have hmoved : p₂.statements.map Stmt.unlined =
      (p₂.statements.map (Stmt.moved lines)).map Stmt.unlined := by
    rw [List.map_map]
    exact List.map_congr_left fun s _ => (Stmt.unlined_moved lines s).symm
  have hsome' : p₂.statements.map (Stmt.moved lines) ≠ [] := by
    simpa using hsome
  obtain ⟨value, ending, hends⟩ := hthrough.exists_end
  -- The first piece by itself; the second one starts in the run that it left.
  obtain ⟨start₁, hstart₁, hpiece₁⟩ := execute_interpreted setup hmode h₁
  obtain ⟨r, hr, -, hending⟩ := hends start₁ hstart₁
  have hleft : (e.execute setup source₁).2 = e.withRun r := by
    rw [hpiece₁]
    exact congrArg (fun x => e.withRun x.2) hr
  have hmode₂ : (e.withRun r).mode.isInterpreter = true := hmode
  obtain ⟨start₂, hstart₂, hpiece₂⟩ := execute_interpreted setup hmode₂ h₂
  -- The first piece as a part of the whole.
  obtain ⟨start, hstart, hwhole⟩ := execute_interpreted setup hmode hp
  obtain ⟨r', hr', hdepth, hending'⟩ := hends start hstart
  rw [hstatements, evalBlock_append_of_normal hr', evalBlock_last hsome' value .null, ← hdepth]
    at hwhole
  have hsame : start₂.unlined = r'.unlined :=
    calc start₂.unlined = r.unlined := hstart₂
      _ = r'.unlined := hending.trans hending'.symm
  obtain ⟨hresult, hend⟩ := evalBlock_unlined_congr setup hsame hmoved .null
  have hdepth₂ : start₂.machine.depth = (e.withRun r).depth :=
    congrArg (·.machine.depth) hstart₂
  rw [hdepth₂] at hresult hend
  rw [hleft, hpiece₂, hwhole]
  exact ⟨congrArg (fun result => (result.map Flow.value).mapError EngineError.runtime) hresult,
    unlined_withRun e hend⟩

/-- The second piece binds an action that reads a variable of the first one, and then fails. -/
theorem execute_joined_bind_then_fail :
    let setup : Setup Desktop := ⟨Desktop.host, .standard Desktop.host, ⟨256, 10⟩⟩
    let e : Engine Desktop := start .interpreter (.fresh "" [])
    let pieces := (e.execute setup "let a = \"x\"").2.execute setup "^b => send a\ngone"
    let whole := e.execute setup ("let a = \"x\"" ++ "\n" ++ "^b => send a\ngone")
    pieces.1 = whole.1 ∧ pieces.2.unlined = whole.2.unlined := by
  intro setup e
  have htokens₁ : tokenize "let a = \"x\"" = [
      ⟨.letWord, "let", ⟨1, 1⟩⟩, ⟨.identifier, "a", ⟨1, 5⟩⟩, ⟨.assign, "=", ⟨1, 7⟩⟩,
      ⟨.string, "x", ⟨1, 9⟩⟩, ⟨.eof, "", ⟨1, 12⟩⟩] := by
    decide +kernel
  have htokens₂ : tokenize "^b => send a\ngone" = [
      ⟨.hotkey, "^b", ⟨1, 1⟩⟩, ⟨.arrow, "=>", ⟨1, 4⟩⟩, ⟨.identifier, "send", ⟨1, 7⟩⟩,
      ⟨.identifier, "a", ⟨1, 12⟩⟩, ⟨.newline, "\n", ⟨1, 13⟩⟩, ⟨.identifier, "gone", ⟨2, 1⟩⟩,
      ⟨.eof, "", ⟨2, 5⟩⟩] := by
    decide +kernel
  have h₁ : Chord.parseSource "let a = \"x\"" = .ok ⟨[.assign "a" (some (.string "x"))]⟩ := by
    unfold Chord.parseSource
    rw [htokens₁]
    rfl
  have h₂ : Chord.parseSource "^b => send a\ngone" = .ok ⟨[
      .bind (.hotkey "^b") (.expr (.call (.identifier "send") [.identifier "a"])) 1,
      .expr (.identifier "gone")]⟩ := by
    unfold Chord.parseSource
    rw [htokens₂]
    rfl
  have hthrough : e.RunsThrough setup ⟨[.assign "a" (some (.string "x"))]⟩ := ⟨.string "x", rfl⟩
  exact execute_joined setup (e := e) rfl h₁ h₂ (List.cons_ne_nil _ _) hthrough

end Engine
end Chord
