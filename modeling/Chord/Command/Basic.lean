import Chord.Config
import Chord.Engine.Basic
import Chord.Library.Standard
import Chord.Manual

/-!
# Commands

What the program can be asked to do with scripts.

**Input.** Scripts, files and settings.

**Results.** `check` reads a script and sums it up, `run` runs one and presses hotkeys, `compile`
makes a bundle and `explain` looks a topic up in the manual. Each gives a report or a
`CommandError`.
-/

namespace Chord

/-- Why a command fails. -/
inductive CommandError where
  | parse (error : SyntaxError)
  | engine (error : EngineError)
  | config (error : ConfigError)
  | file (cause : FileError)
  /-- There is no script to work on. -/
  | noInput
  | unknownTopic (name : String)
deriving DecidableEq, Repr

namespace CommandError

/-- The command error for an engine error. -/
def ofEngine : EngineError → CommandError
  | .parse error => .parse error
  | error => .engine error

/-- The wording of the error inside, if there is one. -/
def cause? : CommandError → Option String
  | .parse error => some error.message
  | .engine error => some error.message
  | .config error => some error.message
  | .file cause => some cause.message
  | .noInput => none
  | .unknownTopic _ => none

/-- The wording of a command error. -/
def message : CommandError → String
  | .parse error => "Syntax error: " ++ error.message
  | .engine error => "Error: " ++ error.message
  | .config error => "Config error: " ++ error.message
  | .file cause => "IO error: " ++ cause.message
  | .noInput => "No script provided. Pass a file or pipe a script to stdin."
  | .unknownTopic name =>
      "Unknown category: '" ++ name ++ "'\nRun 'hotkey docs' to see available categories."

end CommandError

namespace Command

/-! ## Checking -/

/-- What a script contains. -/
structure Summary where
  /-- The canonical hotkeys bound on the top level, in order. -/
  bindings : List String
  /-- The number of statements on the top level. -/
  statements : Nat
  complaints : List Complaint
  /-- The printed tree, if it was asked for. -/
  tree : Option String
deriving DecidableEq, Repr

/-- Reads a script and sums it up, with its tree in a style if one is given. -/
def check (style : Option Style) (source : String) : Except CommandError Summary :=
  match parseSource source with
  | .error error => .error (.parse error)
  | .ok p =>
      .ok {
        bindings := p.bindings.filterMap fun s => s.hotkeyText?.map normalize
        statements := p.statements.length
        complaints := complaints source
        tree := style.map p.render }

/-! ## Running -/

/-- Where a script comes from. -/
inductive Script where
  | file (path : String)
  | text (source : String)
deriving DecidableEq, Repr

/-- A script to run. -/
structure Request where
  script : Option Script
  /-- The mode, if it is not that of the settings. -/
  mode : Option Mode := none
  /-- The hotkeys to press afterwards. -/
  triggers : List String := []
  config : Config := {}
deriving DecidableEq, Repr

/-- What became of a script. -/
structure Report where
  /-- The value of the script. -/
  value : Value
  /-- The canonical hotkeys bound by the script and the hotkeys pressed, ascending. -/
  bound : List String
  /-- The hotkeys pressed with the values of their actions; without a binding there is none. -/
  triggered : List (String × Option Value)
deriving DecidableEq, Repr

/-- What the back ends of an engine with some settings work with. Loops are given up after `loops`
repetitions. -/
def setup (config : Config) (loops : Nat) : Setup Desktop where
  host := Desktop.host
  registry := .standard Desktop.host
  limits := { calls := config.maxCallDepth, loops }

/-- Presses hotkeys one after the other. -/
def press (setup : Setup Desktop) :
    List String → Engine Desktop →
      Except EngineError (List (String × Option Value)) × Engine Desktop
  | [], e => (.ok [], e)
  | hotkey :: rest, e =>
      match e.trigger setup hotkey with
      | (none, e) =>
          let (outcomes, e) := press setup rest e
          (outcomes.map ((hotkey, none) :: ·), e)
      | (some (.ok value), e) =>
          let (outcomes, e) := press setup rest e
          (outcomes.map ((hotkey, some value) :: ·), e)
      | (some (.error cause), e) => (.error (.runtime cause), e)

/-- Runs a script and presses the hotkeys asked for. The engine shows what was done, also up to an
error. -/
def run (files : Store) (loops : Nat) (r : Request) :
    Except CommandError Report × Engine Desktop :=
  let setup := setup r.config loops
  let e := Engine.start r.config.mode r.config.host.desktop
  let e := (r.mode.map fun mode => e.setMode mode).getD e
  match r.script with
  | none => (.error .noInput, e)
  | some script =>
      let outcome :=
        match script with
        | .file path => e.runScript setup files path
        | .text source => e.execute setup source
      match outcome with
      | (.error error, e) => (.error (.ofEngine error), e)
      | (.ok value, e) =>
          match press setup r.triggers e with
          | (.error error, e) => (.error (.ofEngine error), e)
          | (.ok triggered, e) => (.ok { value, bound := e.boundKeys, triggered }, e)

/-! ## Compiling -/

/-- Compiles the bindings of a script file into a bundle file. -/
def compile (files : Store) (config : Config) (input output : String) :
    Except CommandError Bundle × Store × Engine Desktop :=
  let e := (Engine.start config.mode (Desktop.fresh "" [])).setMode .aheadOfTime
  let (result, files, e) := e.compileFile (setup config 0) files input output
  (result.mapError .ofEngine, files, e)

/-! ## Explaining -/

/-- The explanation of a topic. -/
def explain (name : String) : Except CommandError String :=
  match Manual.Topic.ofName? name with
  | some topic => .ok topic.text
  | none => .error (.unknownTopic name)

end Command

end Chord
