import Chord.Command.Arguments
import Chord.Command.Basic
import Chord.Value.Convert

/-!
# The console

What the program prints.

**Input.** An invocation, the files, and the text on the standard input.

**Results.** `Console.execute` gives the exit code, what is printed on both channels, and the files
afterwards.
-/

namespace Chord
namespace Console

/-- The name and the version of the program. -/
def versionText : String := "hotkey 0.2.0\n"

/-- How the program is called. -/
def usageText : String :=
  "Usage: hotkey [OPTIONS] <COMMAND>\n\n"
    ++ "Commands:\n"
    ++ "  check    Parse a script and list the hotkeys it binds\n"
    ++ "  run      Load a script or bundle and simulate key presses\n"
    ++ "  eval     Evaluate a snippet and print its value\n"
    ++ "  compile  Verify a script natively and write a bundle\n"
    ++ "  docs     List documentation categories\n"
    ++ "  doc      Show documentation for a specific category\n"

/-- The exit code after a failed task. -/
def failureCode : Nat := 1

/-- The exit code after words that make no sense. -/
def usageCode : Nat := 2

/-- What the program leaves behind. -/
structure Outcome where
  exit : Nat := 0
  stdout : String := ""
  stderr : String := ""
  files : Store
  /-- The notes to show. -/
  notes : List Note := []

/-- Text as a line. -/
def line (text : String) : String :=
  text ++ "\n"

/-- Texts as lines. -/
def lines (texts : List String) : String :=
  String.join (texts.map line)

/-! ## Texts -/

/-- The summary of a script. -/
def summaryText (s : Command.Summary) : String :=
  lines ([
    "Syntax is valid: " ++ toString s.statements ++ " statement(s), "
      ++ toString s.bindings.length ++ " binding(s)"]
    ++ s.bindings.map ("  " ++ ·)
    ++ s.tree.toList)

/-- The complaints about a script. -/
def warningText (s : Command.Summary) : String :=
  lines (s.complaints.map fun c => "warning: " ++ c.describe)

/-- The report about a run. -/
def reportText (r : Command.Report) : String :=
  lines ([r.value.jsonText]
    ++ (if r.bound.isEmpty then [] else ["bound: " ++ ", ".intercalate r.bound])
    ++ r.triggered.map fun (hotkey, value) =>
        hotkey ++ " => " ++ (value.map Value.jsonText).getD "(not bound)")

/-- The report about a bundle. -/
def bundleText (output : String) (b : Bundle) : String :=
  line ("wrote " ++ output ++ " with " ++ toString b.bindings.length ++ " binding(s)")

/-! ## Tasks -/

/-- The outcome of a failed task. -/
def failure (files : Store) (error : CommandError) : Outcome :=
  { exit := failureCode, stderr := line error.message, files }

/-- Checks a script from a file, or else from the standard input, which is missing at a terminal. -/
def check (files : Store) (stdin : Option (Except FileError String)) (script : Option String)
    (style : Option Style) : Outcome :=
  match script.elim stdin fun path => some (files.read path) with
  | none => failure files .noInput
  | some (.error cause) => failure files (.file cause)
  | some (.ok source) =>
      let notes := scanNotes source
      match Command.check style source with
      | .error error => { failure files error with notes }
      | .ok s => { stdout := summaryText s, stderr := warningText s, files, notes }

/-- Runs a script. Keystrokes that are echoed come first, also before an error. -/
def run (files : Store) (loops : Nat) (r : Command.Request) : Outcome :=
  let (result, e) := Command.run files loops r
  let echoed := if r.config.host.echo then lines e.host.sent else ""
  let notes := e.journal.toList
  match result with
  | .error error => { failure files error with stdout := echoed, notes }
  | .ok report => { stdout := echoed ++ reportText report, files, notes }

/-- Compiles a script. -/
def compile (files : Store) (config : Config) (input output : String) : Outcome :=
  let (result, files, e) := Command.compile files config input output
  let notes := e.journal.toList
  match result with
  | .error error => { failure files error with notes }
  | .ok b => { stdout := bundleText output b, files, notes }

/-- Performs a task with settings. -/
def perform (files : Store) (stdin : Option (Except FileError String)) (loops : Nat)
    (config : Config) : Task → Outcome
  | .check script tree pretty =>
      check files stdin script
        (if tree then some (if pretty then .pretty else .compact) else none)
  | .run script mode triggers echo =>
      let host := { config.host with echo := config.host.echo || echo }
      run files loops
        { script := some (.file script), mode, triggers, config := { config with host } }
  | .eval source mode => run files loops { script := some (.text source), mode, config }
  | .compile input output => compile files config input output
  | .overview => { stdout := Manual.overview, files }
  | .explain topic =>
      match Command.explain topic with
      | .error error => failure files error
      | .ok text => { stdout := text, files }

/-- The settings of an invocation. -/
def settings (files : Store) : Option String → Except ConfigError Config × List Note
  | none => (.ok {}, [])
  | some path => Config.load files path

/-! ## Notes -/

/-- The levels that a log level shows, by its name. -/
def shownLevels (name : String) : List Level :=
  match Text.asciiLower name with
  | "error" => [.error]
  | "warn" => [.error, .warn]
  | "info" => [.error, .warn, .info]
  | "debug" => [.error, .warn, .info, .debug]
  | "trace" => [.error, .warn, .info, .debug]
  | _ => []

/-- The log level of an invocation: that of the settings unless more notes were asked for. -/
def logLevel (config : Config) : Nat → String
  | 0 => config.logLevel
  | 1 => "info"
  | 2 => "debug"
  | _ => "trace"

/-! ## Invocations -/

/-- Does what the program is asked for. -/
def execute (files : Store) (stdin : Option (Except FileError String)) (loops : Nat) :
    Option Invocation → Outcome
  | none => { exit := usageCode, stderr := usageText, files }
  | some .help => { stdout := usageText, files }
  | some .version => { stdout := versionText, files }
  | some (.task path verbosity task) =>
      match (settings files path).1 with
      | .error error => failure files (.config error)
      | .ok config =>
          let outcome := perform files stdin loops config task
          let shown := shownLevels (logLevel config verbosity)
          { outcome with notes := outcome.notes.filter fun n => shown.contains n.level }

/-- The files that an invocation reads or writes. -/
def paths : Invocation → List String
  | .task config _ task =>
      config.toList ++
        match task with
        | .check script _ _ => script.toList
        | .run script _ _ _ => [script]
        | .compile input output => [input, output]
        | _ => []
  | _ => []

end Console
end Chord
