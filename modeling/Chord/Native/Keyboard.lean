import Chord.Hotkey
import Chord.Native.Exec
import Chord.Native.Lower

/-!
# Compiled hotkeys

**Input.** Hotkeys with their actions, and whole programs.

**Results.** A `Keyboard` has a desk and the actions compiled so far by canonical hotkey. `bind`
compiles an action and keeps the earlier one if that fails. `compileScript` binds every binding of a
program on its own and reports what became of each statement.
-/

namespace Chord

namespace Native

/-- A hotkey with its compiled action. -/
structure Compiled where
  /-- The hotkey as it was written. -/
  source : String
  action : Action

/-- A binding that could not be compiled. -/
structure Failure where
  hotkey : String
  line : Nat
  error : CompileError
deriving DecidableEq, Repr

/-- The wording of a failure. -/
def Failure.describe (f : Failure) : String :=
  "line " ++ toString f.line ++ ": " ++ f.hotkey ++ ": " ++ f.error.message

/-- What became of the statements of a program. -/
structure Report where
  /-- The canonical hotkeys bound, in order. -/
  bound : List String := []
  /-- The statements that bind nothing, printed. -/
  skipped : List String := []
  failed : List Failure := []
deriving DecidableEq, Repr

/-- Whether every binding was compiled. -/
def Report.isSuccess (r : Report) : Bool :=
  r.failed.isEmpty

/-- A desk with compiled actions. -/
structure Keyboard (σ : Type) extends Desk σ where
  actions : Table Compiled := .empty

namespace Keyboard

variable {σ : Type}

/-- Adds a note to the journal. -/
def note (k : Keyboard σ) (level : Level) (text : String) : Keyboard σ :=
  { k with toDesk := k.toDesk.note level text }

/-- Compiles a statement and notes that. -/
def compile (setup : Setup σ) (s : Stmt) (k : Keyboard σ) :
    Except CompileError Action × Keyboard σ :=
  match Native.compile setup.registry s with
  | .ok action => (.ok action, { k with toDesk := k.toDesk.noteAll [action.note] })
  | .error e => (.error e, k)

/-- Compiles an action and binds it to a hotkey. Gives the canonical hotkey. -/
def bind (setup : Setup σ) (hotkey : String) (action : Stmt) (k : Keyboard σ) :
    Except CompileError String × Keyboard σ :=
  match k.compile setup action with
  | (.error e, k) => (.error e, k)
  | (.ok action, k) =>
      let key := normalize hotkey
      let remark :=
        if k.actions.contains key then
          "rebound " ++ key ++ " (native, previous function released)"
        else "bound " ++ key ++ " (native)"
      let k := k.note .info remark
      (.ok key,
        { k with
          host := setup.host.register key k.host
          actions := k.actions.insert key ⟨hotkey, action⟩ })

/-- Deals with one statement of a program. -/
def compileStatement (setup : Setup σ) (s : Stmt) (report : Report) (k : Keyboard σ) :
    Report × Keyboard σ :=
  match s with
  | .bind _ action line =>
      let hotkey := s.hotkeyText?.getD ""
      match k.bind setup hotkey action with
      | (.ok key, k) => ({ report with bound := report.bound ++ [key] }, k)
      | (.error error, k) =>
          let failure : Failure := ⟨hotkey, line, error⟩
          ({ report with failed := report.failed ++ [failure] },
            k.note .error ("failed to compile binding at " ++ failure.describe))
  | s =>
      ({ report with skipped := report.skipped ++ [s.text] },
        k.note .warn ("skipping top-level statement in compiled mode: " ++ s.text))

/-- Binds the bindings among some statements. Each is compiled on its own. -/
def compileAll (setup : Setup σ) (ss : List Stmt) (k : Keyboard σ) : Report × Keyboard σ :=
  ss.foldl (fun (report, k) s => k.compileStatement setup s report) ({}, k)

/-- Binds every binding of a program. -/
def compileScript (setup : Setup σ) (p : Program) (k : Keyboard σ) : Report × Keyboard σ :=
  k.compileAll setup p.statements

/-- Runs an action. -/
def run (setup : Setup σ) (a : Action) (k : Keyboard σ) : Except Stop Value × Keyboard σ :=
  let (result, desk) := a.invoke setup.registry setup.limits.loops k.toDesk
  (result, { k with toDesk := desk })

/-- Runs the action bound to a hotkey, if there is one. -/
def invoke (setup : Setup σ) (hotkey : String) (k : Keyboard σ) :
    Option (Except Stop Value) × Keyboard σ :=
  let key := normalize hotkey
  match k.actions.get? key with
  | none => (none, k.note .warn ("no compiled binding for " ++ key))
  | some c =>
      let k := k.note .debug ("triggering " ++ key ++ " (bound as " ++ c.source ++ ")")
      let (result, k) := k.run setup c.action
      (some result, k)

/-- Runs the action bound to a hotkey. A fault is noted, and the value is null. -/
def trigger (setup : Setup σ) (hotkey : String) (k : Keyboard σ) :
    Option (Except Stop Value) × Keyboard σ :=
  match k.invoke setup hotkey with
  | (some (.error (.fault cause)), k) =>
      (some (.ok .null),
        k.note .error ("hotkey " ++ normalize hotkey ++ " failed: " ++ cause.message))
  | outcome => outcome

/-- Removes a binding; tells whether there was one. -/
def unbind (host : Host σ) (hotkey : String) (k : Keyboard σ) : Bool × Keyboard σ :=
  let key := normalize hotkey
  if k.actions.contains key then
    let k := k.note .info ("unbound " ++ key)
    (true, { k with host := host.unregister key k.host, actions := k.actions.erase key })
  else (false, k)

/-- Whether a hotkey is bound. -/
def isBound (hotkey : String) (k : Keyboard σ) : Bool :=
  k.actions.contains (normalize hotkey)

/-- The canonical hotkeys bound, ascending. -/
def boundKeys (k : Keyboard σ) : List String :=
  k.actions.keys

end Keyboard

end Native
end Chord
