import Chord.Engine.Bundle
import Chord.Engine.Mode
import Chord.Eval.Session
import Chord.Native.Keyboard
import Chord.Script.Source
import Chord.Store

/-!
# Engines

An engine runs scripts in one of the modes, and keeps what they declare and bind.

**Input.** Scripts, files and hotkeys.

**Results.** An `Engine` has one desk for both back ends, the bindings of each, and the scope of the
interpreter, which lasts from one script to the next. Every operation gives a result or an
`EngineError` together with the engine after it.
-/

namespace Chord

/-- Why a bundle is refused. -/
inductive BundleError where
  | format (tag : String)
  | version (number : Nat)
  /-- The list of bindings is not that of the source. -/
  | mismatch
deriving DecidableEq, Repr

/-- The wording of a refusal. -/
def BundleError.message : BundleError → String
  | .format tag => "unexpected format tag '" ++ tag ++ "'"
  | .version number => "unsupported version " ++ toString number
  | .mismatch => "binding list does not match the embedded source"

/-- Why an operation of an engine fails. -/
inductive EngineError where
  | file (path : String) (cause : FileError)
  | parse (error : SyntaxError)
  | runtime (cause : Stop)
  | compile (error : CompileError)
  | bindings (failures : List Native.Failure)
  | wrongMode (mode : Mode)
  | bundle (cause : BundleError)
  /-- A file is no bundle at all. -/
  | json
deriving DecidableEq, Repr

/-- The wording of an engine error. -/
def EngineError.message : EngineError → String
  | .file path cause => "failed to access " ++ path ++ ": " ++ cause.message
  | .parse error => "syntax error at " ++ error.message
  | .runtime cause => "runtime error: " ++ cause.message
  | .compile error => "compile error: " ++ error.message
  | .bindings failures =>
      toString failures.length ++ " hotkey binding(s) failed to compile; first at "
        ++ ((failures.head?.map Native.Failure.describe).getD "")
  | .wrongMode mode =>
      "operation requires ahead-of-time mode (current mode: " ++ mode.name ++ ")"
  | .bundle cause => "invalid bundle: " ++ cause.message
  | .json => "bundle serialization failed"

/-- The state of an engine: that of the interpreter, its scope, and the compiled actions. -/
structure Engine (σ : Type) extends Machine σ where
  mode : Mode := .standard
  scope : Scope := .empty
  actions : Table Native.Compiled := .empty

namespace Engine

variable {σ : Type}

/-- A fresh engine. -/
def start (mode : Mode) (host : σ) : Engine σ :=
  { host, mode }

/-- Adds a note to the journal. -/
def note (e : Engine σ) (level : Level) (text : String) : Engine σ :=
  { e with toMachine := e.toMachine.note level text }

/-- Adds notes to the journal. -/
def noteAll (e : Engine σ) (notes : List Note) : Engine σ :=
  { e with toDesk := e.toDesk.noteAll notes }

/-- Switches to a mode. -/
def setMode (mode : Mode) (e : Engine σ) : Engine σ :=
  let e :=
    if mode == e.mode then e
    else e.note .info ("execution mode: " ++ e.mode.name ++ " -> " ++ mode.name)
  { e with mode }

/-! ## The back ends -/

/-- The compiled side of an engine. -/
def keyboard (e : Engine σ) : Native.Keyboard σ :=
  { toDesk := e.toDesk, actions := e.actions }

/-- The engine after its compiled side has worked. -/
def withKeyboard (e : Engine σ) (k : Native.Keyboard σ) : Engine σ :=
  { e with toDesk := k.toDesk, actions := k.actions }

/-- The interpreted side of an engine. -/
def run (e : Engine σ) : Eval.Run σ :=
  ⟨e.scope, e.toMachine⟩

/-- The engine after its interpreted side has worked. -/
def withRun (e : Engine σ) (r : Eval.Run σ) : Engine σ :=
  { e with toMachine := r.machine, scope := r.scope }

/-- The engine after its interpreter has worked without touching the scope. -/
def withMachine (e : Engine σ) (m : Machine σ) : Engine σ :=
  { e with toMachine := m }

/-- Reads a script and notes what is wrong with its spelling. -/
def parseSource (source : String) (e : Engine σ) : Except EngineError Program × Engine σ :=
  ((Chord.parseSource source).mapError .parse, e.noteAll (sourceNotes source))

variable (setup : Setup σ)

/-- Compiles and binds bindings; fails if any of them does not compile. -/
def bindAll (bindings : List Stmt) (e : Engine σ) : Except EngineError (List String) × Engine σ :=
  let (report, k) := e.keyboard.compileAll setup bindings
  let e := e.withKeyboard k
  if report.isSuccess then (.ok report.bound, e) else (.error (.bindings report.failed), e)

/-- Compiles statements as one action and runs it once. -/
def runCompiled (statements : List Stmt) (e : Engine σ) : Except EngineError Value × Engine σ :=
  match e.keyboard.compile setup (.block statements) with
  | (.error error, k) => (.error (.compile error), e.withKeyboard k)
  | (.ok action, k) =>
      let (result, k) := k.run setup action
      (result.mapError .runtime, e.withKeyboard k)

/-! ## Running scripts -/

/-- Runs a program. In the compiled modes all bindings come first, and then the other statements as
one action. -/
def executeProgram (p : Program) (e : Engine σ) : Except EngineError Value × Engine σ :=
  if e.mode.isInterpreter then
    let (result, r) := Eval.evaluate setup p e.run
    (result.mapError .runtime, e.withRun r)
  else
    match e.bindAll setup p.bindings with
    | (.error error, e) => (.error error, e)
    | (.ok _, e) => if p.others.isEmpty then (.ok .null, e) else e.runCompiled setup p.others

/-- Reads and runs a script. -/
def execute (source : String) (e : Engine σ) : Except EngineError Value × Engine σ :=
  match e.parseSource source with
  | (.error error, e) => (.error error, e)
  | (.ok p, e) => e.executeProgram setup p

/-- Evaluates bindings one by one and gives their canonical hotkeys. -/
def interpretBindings : List Stmt → Engine σ → Except EngineError (List String) × Engine σ
  | [], e => (.ok [], e)
  | s :: rest, e =>
      match Eval.evaluateStatement setup s e.run with
      | (.error cause, r) => (.error (.runtime cause), e.withRun r)
      | (.ok _, r) =>
          let (keys, e) := interpretBindings rest (e.withRun r)
          (keys.map (normalize (s.hotkeyText?.getD "") :: ·), e)

/-- Registers the bindings of a script and runs nothing else. Gives the canonical hotkeys. -/
def register (source : String) (e : Engine σ) : Except EngineError (List String) × Engine σ :=
  match e.parseSource source with
  | (.error error, e) => (.error error, e)
  | (.ok p, e) =>
      let e := e.noteAll
        (p.others.map fun s => ⟨.warn, "ignoring non-binding statement: " ++ s.text⟩)
      if e.mode.isInterpreter then e.interpretBindings setup p.bindings
      else e.bindAll setup p.bindings

/-! ## Bundles -/

/-- Binds the actions of a bundle. Gives the canonical hotkeys. -/
def install (b : Bundle) (e : Engine σ) : Except EngineError (List String) × Engine σ :=
  if b.format != Bundle.currentFormat then (.error (.bundle (.format b.format)), e)
  else if b.version != Bundle.currentVersion then (.error (.bundle (.version b.version)), e)
  else
    match e.parseSource b.source with
    | (.error error, e) => (.error error, e)
    | (.ok p, e) =>
        let found := p.bindings.map fun s => normalize (s.hotkeyText?.getD "")
        if b.bindings.map (·.normalized) != found then (.error (.bundle .mismatch), e)
        else
          let e := if e.mode.isInterpreter then e.setMode .aheadOfTime else e
          e.bindAll setup p.bindings

/-- Runs a script file, or loads it if it is a bundle. -/
def runScript (files : Store) (path : String) (e : Engine σ) :
    Except EngineError Value × Engine σ :=
  match files.read path with
  | .error cause => (.error (.file path cause), e)
  | .ok content =>
      let e := e.note .info ("running " ++ path ++ " in " ++ e.mode.name ++ " mode")
      match Bundle.ofText? content with
      | some b =>
          let (result, e) := e.install setup b
          (result.map fun _ => .null, e)
      | none => e.execute setup content

/-- Loads a bundle file. Gives the canonical hotkeys. -/
def loadBundle (files : Store) (path : String) (e : Engine σ) :
    Except EngineError (List String) × Engine σ :=
  match files.read path with
  | .error cause => (.error (.file path cause), e)
  | .ok content =>
      match Bundle.ofText? content with
      | some b => e.install setup b
      | none => (.error .json, e)

/-- Compiles bindings without binding them: the entries of a bundle, and the failures. -/
def verify : List Stmt → Engine σ → (List BundleEntry × List Native.Failure) × Engine σ
  | [], e => (([], []), e)
  | s :: rest, e =>
      match s with
      | .bind _ action line =>
          let hotkey := s.hotkeyText?.getD ""
          match e.keyboard.compile setup action with
          | (.ok _, k) =>
              let ((entries, failures), e) := verify rest (e.withKeyboard k)
              ((⟨hotkey, normalize hotkey, line⟩ :: entries, failures), e)
          | (.error error, k) =>
              let ((entries, failures), e) := verify rest (e.withKeyboard k)
              ((entries, ⟨hotkey, line, error⟩ :: failures), e)
      | _ => verify rest e

/-- Compiles the bindings of a script file and writes them as a bundle. Nothing is written unless
all of them compile. -/
def compileFile (files : Store) (input output : String) (e : Engine σ) :
    Except EngineError Bundle × Store × Engine σ :=
  if e.mode != .aheadOfTime then (.error (.wrongMode e.mode), files, e)
  else
    match files.read input with
    | .error cause => (.error (.file input cause), files, e)
    | .ok source =>
        match e.parseSource source with
        | (.error error, e) => (.error error, files, e)
        | (.ok p, e) =>
            let e :=
              if p.others.isEmpty then e
              else e.note .warn
                (toString p.others.length ++ " top-level statement(s) in " ++ input
                  ++ " are not bindings and will not run from the bundle")
            match e.verify setup p.bindings with
            | ((entries, []), e) =>
                let b : Bundle := ⟨Bundle.currentFormat, Bundle.currentVersion, entries, source⟩
                match files.write output b.text with
                | .error cause => (.error (.file output cause), files, e)
                | .ok files =>
                    (.ok b, files, e.note .info
                      ("wrote " ++ output ++ " with " ++ toString b.bindings.length
                        ++ " binding(s)"))
            | ((_, failures), e) => (.error (.bindings failures), files, e)

/-! ## Hotkeys

Each operation concerns the back end of the current mode. -/

/-- Runs the action bound to a hotkey, if there is one. -/
def invoke (hotkey : String) (e : Engine σ) : Option (Except Stop Value) × Engine σ :=
  if e.mode.isInterpreter then
    let (result, m) := e.toMachine.invoke setup hotkey
    (result, e.withMachine m)
  else
    let (result, k) := e.keyboard.invoke setup hotkey
    (result, e.withKeyboard k)

/-- Runs the action bound to a hotkey, a fault giving null. -/
def trigger (hotkey : String) (e : Engine σ) : Option (Except Stop Value) × Engine σ :=
  if e.mode.isInterpreter then
    let (result, m) := e.toMachine.trigger setup hotkey
    (result, e.withMachine m)
  else
    let (result, k) := e.keyboard.trigger setup hotkey
    (result, e.withKeyboard k)

/-- Removes a binding; tells whether there was one. -/
def unbind (hotkey : String) (e : Engine σ) : Bool × Engine σ :=
  if e.mode.isInterpreter then
    let (removed, m) := e.toMachine.unbind setup.host hotkey
    (removed, e.withMachine m)
  else
    let (removed, k) := e.keyboard.unbind setup.host hotkey
    (removed, e.withKeyboard k)

/-- The canonical hotkeys bound, ascending. -/
def boundKeys (e : Engine σ) : List String :=
  if e.mode.isInterpreter then e.toMachine.boundKeys else e.keyboard.boundKeys

end Engine

end Chord
