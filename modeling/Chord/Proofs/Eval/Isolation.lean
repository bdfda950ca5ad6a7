import Chord.Host.Desktop
import Chord.Library.Standard
import Chord.Proofs.Eval.Invariants

/-!
# Bound actions are isolated

A bound action runs in the scope it was bound in, on the host and on nothing else: other bindings,
the calls that were open and the journal are no part of what it can see.

**Input.** A hotkey and a machine.

**Results.** The `Machine.outcome` of a hotkey is the result of triggering it, the state of the host
after that and the bindings that the run makes. `Machine.bindings_invoke`: these bindings, and
nothing else, are put in place of earlier ones. `Machine.outcome_congr`: the outcome is determined
by the state of the host and by the action that is stored, with its scope. `Machine.invoke_isolated`
says both of two machines, and what follows for a second run.
-/

namespace Chord

/-! ## Bindings made in order -/

/-- The bindings after others were made, each in place of an earlier one of its hotkey. -/
def Table.rebound (bindings : Table Binding) (made : List Binding) : Table Binding :=
  made.foldl (fun bindings b => bindings.insert b.key b) bindings

theorem Table.rebound_concat (bindings : Table Binding) (made : List Binding) (b : Binding) :
    bindings.rebound (made ++ [b]) = (bindings.rebound made).insert b.key b := by
  rw [Table.rebound, List.foldl_append]
  rfl

theorem Table.get?_rebound_of_not_mem {key : String} : (made : List Binding) →
    key ∉ made.map Binding.key → (bindings : Table Binding) →
      (bindings.rebound made).get? key = bindings.get? key
  | [], _, _ => rfl
  | b :: made, h, bindings => by
      obtain ⟨hne, hrest⟩ := not_or.1 (mt List.mem_cons.2 h)
      show ((bindings.insert b.key b).rebound made).get? key = _
      rw [get?_rebound_of_not_mem made hrest, Table.get?_insert_of_ne _ hne]

variable {σ : Type}

/-- All that a run does to bindings is to put in those that it makes. -/
theorem upheld_rebound (setup : Setup σ) (before : Table Binding) :
    Upheld setup fun made _ bindings => bindings = before.rebound made where
  call := fun _ _ _ _ _ _ _ h => h
  bind := by
    rintro made _ _ rfl b
    exact (Table.rebound_concat before made b).symm

/-! ## One statement in two runs -/

/-- Two runs that number the lines alike and have made the same bindings since they started. -/
def Ensemble.alike (setup : Setup σ) : Ensemble setup Bool where
  lines _ := fun line => line
  Related made _ _ := made true = made false
  call := fun _ _ _ _ _ _ _ h => h
  bind h b := congrArg (· ++ [b.renumbered fun line => line]) h

/-- A statement sees the scope, the state of the host and the number of open calls. -/
theorem Eval.evaluateStatement_alike (setup : Setup σ) (s : Stmt) {r r' : Run σ}
    (hscope : r.scope = r'.scope) (hhost : r.machine.host = r'.machine.host)
    (hdepth : r.machine.depth = r'.machine.depth) :
    (evaluateStatement setup s r).1 = (evaluateStatement setup s r').1 ∧
      (evaluateStatement setup s r).2.machine.host =
        (evaluateStatement setup s r').2.machine.host ∧
      statementBinds setup s r = statementBinds setup s r' := by
  have hstart : (Ensemble.alike setup).Runs r.machine.depth (fun _ => [])
      fun first => if first then r else r' := by
    refine ⟨⟨r.scope, fun first => ?_⟩, ⟨r.machine.host, fun first => ?_, rfl⟩, fun first => ?_⟩
    · rw [Ensemble.alike, Scope.renumbered_id]
      cases first with
      | true => rfl
      | false => exact hscope.symm
    · cases first with
      | true => rfl
      | false => exact hhost.symm
    · cases first with
      | true => rfl
      | false => exact hdepth.symm
  obtain ⟨result, hresult, hend⟩ :=
    evaluateStatement_parallel (.alike setup) r.machine.depth s _ _ hstart
  obtain ⟨state, hstate, hmade⟩ := hend.machines.host
  have hline : ∀ first, s.renumbered ((Ensemble.alike setup).lines first) = s :=
    fun _ => Stmt.renumbered_id s
  simp only [hline] at hresult hstate hmade
  exact ⟨(hresult true).trans (hresult false).symm, (hstate true).trans (hstate false).symm, hmade⟩

/-! ## Outcomes -/

/-- What a trigger does. -/
structure Outcome (σ : Type) where
  /-- The result, if the hotkey is bound. -/
  result : Option (Except Stop Value)
  host : σ
  /-- The bindings that the run makes, in order. -/
  made : List Binding

/-- The canonical hotkeys that are bound or rebound. -/
def Outcome.keys (o : Outcome σ) : List String :=
  o.made.map Binding.key

namespace Machine

/-- The action under a hotkey and the scope in which it was bound. -/
def stored (hotkey : String) (m : Machine σ) : Option (Stmt × Scope) :=
  (m.bindings.get? (normalize hotkey)).map fun b => (b.action, b.scope)

/-- What triggering a hotkey does. -/
def outcome (setup : Setup σ) (hotkey : String) (m : Machine σ) : Outcome σ where
  result := (m.invoke setup hotkey).1
  host := (m.invoke setup hotkey).2.host
  made := m.invokeBinds setup hotkey

/-- A trigger changes the bindings by those that the run makes. -/
theorem bindings_invoke (setup : Setup σ) (hotkey : String) (m : Machine σ) :
    (m.invoke setup hotkey).2.bindings = m.bindings.rebound (m.outcome setup hotkey).made :=
  invoke_keeps (upheld_rebound setup m.bindings) hotkey [] rfl

/-- Hotkeys that a run does not bind keep their action and its scope. -/
theorem get?_bindings_invoke {setup : Setup σ} {hotkey key : String} {m : Machine σ}
    (hkey : key ∉ (m.outcome setup hotkey).keys) :
    (m.invoke setup hotkey).2.bindings.get? key = m.bindings.get? key := by
  rw [bindings_invoke]
  exact Table.get?_rebound_of_not_mem _ hkey m.bindings

theorem outcome_of_unbound {setup : Setup σ} {hotkey : String} {m : Machine σ}
    (h : m.bindings.get? (normalize hotkey) = none) :
    m.outcome setup hotkey = ⟨none, m.host, []⟩ := by
  simp only [outcome, invoke, invokeBinds, h]
  rfl

theorem outcome_of_bound {setup : Setup σ} {hotkey : String} {m : Machine σ} {b : Binding}
    (h : m.bindings.get? (normalize hotkey) = some b) :
    m.outcome setup hotkey =
      ⟨some (Eval.evaluateStatement setup b.action (m.triggered hotkey b)).1,
        (Eval.evaluateStatement setup b.action (m.triggered hotkey b)).2.machine.host,
        Eval.statementBinds setup b.action (m.triggered hotkey b)⟩ := by
  simp only [outcome, invoke, invokeBinds, h]
  rfl

/-- **The outcome is determined** by the state of the host and what is stored under the hotkey. -/
theorem outcome_congr (setup : Setup σ) {hotkey : String} {m m' : Machine σ}
    (hhost : m.host = m'.host) (hstored : m.stored hotkey = m'.stored hotkey) :
    m.outcome setup hotkey = m'.outcome setup hotkey := by
  unfold stored at hstored
  cases hbound : m.bindings.get? (normalize hotkey) with
  | none =>
      rw [hbound] at hstored
      have hbound' := Option.map_eq_none_iff.1 hstored.symm
      rw [outcome_of_unbound hbound, outcome_of_unbound hbound', hhost]
  | some b =>
      rw [hbound] at hstored
      obtain ⟨⟨source, action, scope⟩, hbound', hb⟩ := Option.map_eq_some_iff.1 hstored.symm
      cases hb
      -- The two runs differ in their bindings and in their journals, which name the hotkey.
      have hscope : (m.triggered hotkey b).scope =
          (m'.triggered hotkey ⟨source, b.action, b.scope⟩).scope := rfl
      obtain ⟨hresult, hend, hmade⟩ :=
        Eval.evaluateStatement_alike setup b.action hscope hhost rfl
      rw [outcome_of_bound hbound, outcome_of_bound hbound', hresult, hend, hmade]

/-- **Triggers are isolated**: two machines that agree on the host and on what is stored under a
hotkey have one outcome, and the same bindings are put into both. All other bindings stay, and a
second trigger in the first state of the host has this outcome again, unless the action rebound its
own hotkey. -/
theorem invoke_isolated (setup : Setup σ) (hotkey : String) {m m' : Machine σ}
    (hhost : m.host = m'.host) (hstored : m.stored hotkey = m'.stored hotkey) :
    m.outcome setup hotkey = m'.outcome setup hotkey ∧
      ∀ before ∈ [m, m'],
        let o := before.outcome setup hotkey
        let after := (before.invoke setup hotkey).2
        after.bindings = before.bindings.rebound o.made ∧
        (∀ key ∉ o.keys, after.bindings.get? key = before.bindings.get? key) ∧
        (normalize hotkey ∉ o.keys → ∀ again : Machine σ, again.host = before.host →
          again.bindings = after.bindings → again.outcome setup hotkey = o) := by
  refine ⟨outcome_congr setup hhost hstored, fun before _ => ?_⟩
  refine ⟨bindings_invoke setup hotkey before, fun key hkey => get?_bindings_invoke hkey,
    fun hkey again hagain hbindings => outcome_congr setup hagain ?_⟩
  rw [stored, stored, hbindings, get?_bindings_invoke hkey]

/-- An action that makes a variable longer, sends it, binds another hotkey in the scope so far and
then fails. -/
def appendThenFail : Stmt := .block [
  .assign "x" (some (.binary (.identifier "x") .add (.string "x"))),
  .expr (.call (.identifier "send") [.identifier "x"]),
  .bind (.hotkey "^b") (.expr (.call (.identifier "send") [.identifier "x"])) 1,
  .expr (.identifier "missing")]

/-- Alone and among other bindings the action does the same, and it starts anew the second time. -/
theorem appendThenFail_isolated :
    let setup : Setup Desktop := ⟨Desktop.host, .standard Desktop.host, ⟨256, 10⟩⟩
    let scope : Scope := Scope.empty.set "x" (.string "a")
    let longer : Scope := Scope.empty.set "x" (.string "ax")
    let alone : Machine Desktop :=
      { host := .fresh "" []
        bindings := Table.empty.insert (normalize "^a") ⟨"^a", appendThenFail, scope⟩ }
    let crowded : Machine Desktop :=
      { host := .fresh "" []
        bindings := (Table.empty.insert (normalize "^a") ⟨"Ctrl+A", appendThenFail, scope⟩).insert
          (normalize "^b") ⟨"^b", .leave none, .empty⟩
        depth := 7 }
    let o := alone.outcome setup "^a"
    o.result = some (.error (.fault (.unknownIdentifier "missing"))) ∧ o.host.sent = ["ax"] ∧
      o.made = [⟨"^b", .expr (.call (.identifier "send") [.identifier "x"]), longer⟩] ∧
      normalize "^a" ∉ o.keys ∧ crowded.outcome setup "^a" = o ∧
      { (alone.invoke setup "^a").2 with host := alone.host }.outcome setup "^a" = o := by
  intro setup scope longer alone crowded o
  have hne : normalize "^a" ≠ normalize "^b" := by decide +kernel
  have hbound : alone.bindings.get? (normalize "^a") = some ⟨"^a", appendThenFail, scope⟩ :=
    Table.get?_insert_self _ _ _
  have hhost : alone.host = crowded.host := rfl
  have hstored : alone.stored "^a" = crowded.stored "^a" := by
    simp only [stored, alone, crowded, Table.get?_insert_of_ne _ hne, Table.get?_insert_self,
      Option.map_some]
  have hresult : o.result = some (.error (.fault (.unknownIdentifier "missing"))) := by
    simp only [o, outcome, invoke, hbound]
    rfl
  have hsent : o.host.sent = ["ax"] := by
    simp only [o, outcome, invoke, hbound]
    rfl
  have hmade : o.made =
      [⟨"^b", .expr (.call (.identifier "send") [.identifier "x"]), longer⟩] := by
    simp only [o, outcome, invokeBinds, hbound]
    rfl
  have hkey : normalize "^a" ∉ o.keys := by
    rw [Outcome.keys, hmade]
    exact mt List.mem_singleton.1 hne
  obtain ⟨hsame, hafter⟩ := invoke_isolated setup "^a" hhost hstored
  obtain ⟨-, -, hagain⟩ := hafter alone List.mem_cons_self
  exact ⟨hresult, hsent, hmade, hkey, hsame.symm, hagain hkey _ rfl rfl⟩

end Machine
end Chord
