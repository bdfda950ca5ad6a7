import Chord.Host.Desktop
import Chord.Native.Keyboard
import Chord.Proofs.Table

/-!
# Reports

Compiling a program deals with its statements one by one, and nothing that happens to one of them
changes what becomes of another one.

**Input.** A keyboard with some actions, and a program with any statements.

**Algorithm.** `compiled?` and `failure?` say of a single statement what becomes of it, by the
registry alone. `Dealt` says what several statements make of a report and a keyboard. It holds of a
single step, and it is put together along the program.

**Results.** `Keyboard.compileScript_reports`: the report lists every statement in its place, each
hotkey has the last action that was compiled for it, or else the one from before, and the host gets
the hotkeys of the report announced. What failed or was skipped might as well not have been there.
-/

namespace Chord

variable {σ : Type}

/-! ## Announcements -/

/-- The state of a host to which hotkeys were announced in order. -/
def Host.registerAll (host : Host σ) (keys : List String) (state : σ) : σ :=
  keys.foldl (fun state key => host.register key state) state

theorem Host.registerAll_append (host : Host σ) (keys more : List String) (state : σ) :
    host.registerAll (keys ++ more) state = host.registerAll more (host.registerAll keys state) :=
  List.foldl_append

/-- Announcements make the list of a desktop longer and change nothing else on it. -/
theorem Desktop.registerAll_host (keys : List String) (d : Desktop) :
    host.registerAll keys d = { d with registered := d.registered ++ keys } := by
  induction keys generalizing d with
  | nil =>
      rw [List.append_nil]
      rfl
  | cons key keys ih =>
      have hrest := ih { d with registered := d.registered ++ [key] }
      rw [List.append_assoc] at hrest
      exact hrest

namespace Native

/-! ## Single statements -/

/-- The canonical hotkey of a compiled action. -/
def Compiled.key (c : Compiled) : String :=
  normalize c.source

/-- What a statement binds: a hotkey with its compiled action, if the statement is a binding and its
action can be compiled. -/
def compiled? (registry : Registry σ) (s : Stmt) : Option Compiled :=
  match s with
  | .bind _ action _ =>
      match compile registry action with
      | .ok a => some ⟨s.hotkeyText?.getD "", a⟩
      | .error _ => none
  | _ => none

/-- How a statement fails: it is a binding, and its action cannot be compiled. -/
def failure? (registry : Registry σ) (s : Stmt) : Option Failure :=
  match s with
  | .bind _ action line =>
      match compile registry action with
      | .ok _ => none
      | .error error => some ⟨s.hotkeyText?.getD "", line, error⟩
  | _ => none

/-- What statements bind, in order. -/
def compiledIn (registry : Registry σ) (ss : List Stmt) : List Compiled :=
  ss.filterMap (compiled? registry)

theorem compiledIn_append (registry : Registry σ) (ss more : List Stmt) :
    compiledIn registry (ss ++ more) = compiledIn registry ss ++ compiledIn registry more :=
  List.filterMap_append

/-- Statements that bind nothing may be left out. -/
theorem compiledIn_filter {registry : Registry σ} {keep : Stmt → Bool}
    (hkeep : ∀ s c, compiled? registry s = some c → keep s = true) (ss : List Stmt) :
    compiledIn registry (ss.filter keep) = compiledIn registry ss := by
  unfold compiledIn
  rw [List.filterMap_filter]
  refine List.filterMap_congr fun s _ => ?_
  cases hs : compiled? registry s with
  | none => exact ite_self none
  | some c => rw [if_pos (hkeep s c hs)]

/-! ## Many statements -/

/-- What statements make of a report and a keyboard, the journal aside. -/
structure Dealt (setup : Setup σ) (ss : List Stmt) (before after : Report × Keyboard σ) :
    Prop where
  bound : after.1.bound = before.1.bound ++ (compiledIn setup.registry ss).map Compiled.key
  failed : after.1.failed = before.1.failed ++ ss.filterMap (failure? setup.registry)
  skipped : after.1.skipped =
    before.1.skipped ++ (ss.filter fun s => !s.isBinding).map Stmt.text
  actions : after.2.actions =
    before.2.actions.insertAll Compiled.key (compiledIn setup.registry ss)
  host : after.2.host =
    setup.host.registerAll ((compiledIn setup.registry ss).map Compiled.key) before.2.host

theorem Dealt.nil (setup : Setup σ) (before : Report × Keyboard σ) :
    Dealt setup [] before before where
  bound := (List.append_nil _).symm
  failed := (List.append_nil _).symm
  skipped := (List.append_nil _).symm
  actions := rfl
  host := rfl

theorem Dealt.append {setup : Setup σ} {ss more : List Stmt}
    {before between after : Report × Keyboard σ} (h : Dealt setup ss before between)
    (hmore : Dealt setup more between after) : Dealt setup (ss ++ more) before after where
  bound := by
    rw [hmore.bound, h.bound, compiledIn_append, List.map_append, List.append_assoc]
  failed := by
    rw [hmore.failed, h.failed, List.filterMap_append, List.append_assoc]
  skipped := by
    rw [hmore.skipped, h.skipped, List.filter_append, List.map_append, List.append_assoc]
  actions := by
    rw [hmore.actions, h.actions, compiledIn_append, Table.insertAll_append]
  host := by
    rw [hmore.host, h.host, compiledIn_append, List.map_append, Host.registerAll_append]

namespace Keyboard

/-- **One statement** is dealt with as it is by itself. -/
theorem compileStatement_dealt (setup : Setup σ) (s : Stmt) (report : Report) (k : Keyboard σ) :
    Dealt setup [s] (report, k) (k.compileStatement setup s report) := by
  cases s with
  | bind hotkey action line =>
      simp only [compileStatement, bind, Keyboard.compile]
      cases hcompile : Native.compile setup.registry action with
      | ok a =>
          have hmade : compiledIn setup.registry [.bind hotkey action line] =
              [⟨(Stmt.bind hotkey action line).hotkeyText?.getD "", a⟩] := by
            simp [compiledIn, compiled?, hcompile]
          refine ⟨?_, ?_, (List.append_nil _).symm, ?_, ?_⟩
          · rw [hmade]
            rfl
          · simp [failure?, hcompile]
          · rw [hmade]
            rfl
          · rw [hmade]
            rfl
      | error error =>
          have hmade : compiledIn setup.registry [.bind hotkey action line] = [] := by
            simp [compiledIn, compiled?, hcompile]
          refine ⟨?_, ?_, (List.append_nil _).symm, ?_, ?_⟩
          · rw [hmade]
            exact (List.append_nil _).symm
          · simp [failure?, hcompile]
          · rw [hmade]
            rfl
          · rw [hmade]
            rfl
  | _ => exact ⟨(List.append_nil _).symm, (List.append_nil _).symm, rfl, rfl, rfl⟩

/-- **All statements**, by what becomes of a single one. -/
theorem compileAll_dealt (setup : Setup σ) (ss : List Stmt) (k : Keyboard σ) :
    Dealt setup ss ({}, k) (k.compileAll setup ss) := by
  unfold compileAll
  generalize ({} : Report) = report
  induction ss generalizing report k with
  | nil => exact .nil setup (report, k)
  | cons s rest ih =>
      have hfirst := compileStatement_dealt setup s report k
      have hrest := ih (k.compileStatement setup s report).2 (k.compileStatement setup s report).1
      exact hfirst.append hrest

/-- **The report of a program** names the hotkeys of the bindings that were compiled, the bindings
that failed, and the other statements, each in the order of the program. A hotkey then has the
action of the last binding of it that was compiled, or else the one it had before. The hotkeys of
the report were announced to the host, which is all that was done to it. Without the statements that
bind nothing the program leaves the same actions and the same host. -/
theorem compileScript_reports (setup : Setup σ) (p : Program) (k : Keyboard σ) :
    let report := (k.compileScript setup p).1
    let after := (k.compileScript setup p).2
    let made := compiledIn setup.registry p.statements
    let pruned : Program :=
      ⟨p.statements.filter fun s => (compiled? setup.registry s).isSome⟩
    report.bound = made.map Compiled.key ∧
      report.failed = p.statements.filterMap (failure? setup.registry) ∧
      report.skipped = p.others.map Stmt.text ∧
      (∀ key, after.actions.get? key =
        (made.reverse.find? fun c => c.key == key).or (k.actions.get? key)) ∧
      after.host = setup.host.registerAll report.bound k.host ∧
      (∀ d : Desktop, Desktop.host.registerAll report.bound d =
        { d with registered := d.registered ++ report.bound }) ∧
      (k.compileScript setup pruned).2.actions = after.actions ∧
      (k.compileScript setup pruned).2.host = after.host := by
  intro report after made pruned
  have hall : Dealt setup p.statements ({}, k) (report, after) :=
    compileAll_dealt setup p.statements k
  have hpruned := compileAll_dealt setup pruned.statements k
  have hmade : compiledIn setup.registry pruned.statements = made :=
    compiledIn_filter (fun s c hs => by rw [hs]; rfl) p.statements
  have hbound : report.bound = made.map Compiled.key := hall.bound
  refine ⟨hbound, hall.failed, hall.skipped, fun key => ?_, ?_, Desktop.registerAll_host _, ?_, ?_⟩
  · rw [hall.actions]
    exact Table.get?_insertAll Compiled.key k.actions made key
  · rw [hbound]
    exact hall.host
  · calc (k.compileScript setup pruned).2.actions = k.actions.insertAll Compiled.key made :=
          hmade ▸ hpruned.actions
      _ = after.actions := hall.actions.symm
  · calc (k.compileScript setup pruned).2.host =
          setup.host.registerAll (made.map Compiled.key) k.host := hmade ▸ hpruned.host
      _ = after.host := hall.host.symm

end Keyboard
end Native
end Chord
