import Chord.Engine.Mode
import Chord.Host.Desktop
import Chord.Journal
import Chord.Store
import Chord.Toml.Read
import Chord.Toml.Write

/-!
# Settings

The settings of an engine, kept in a TOML file.

**Input.** A path.

**Results.** `Config.load` reads settings from a file; every setting has a default, and without a
file all of them do. Names that are no settings are ignored. `Config.text` writes settings.
-/

namespace Chord

/-- The settings of a desktop in memory. -/
structure HostConfig where
  /-- Whether keystrokes are printed as they are sent. -/
  echo : Bool := false
  /-- The text on the clipboard at the start. -/
  clipboard : String := ""
  /-- The titles of the windows; the first one is focused. -/
  windows : List String := []
deriving DecidableEq, Repr

/-- The desktop that the settings describe. -/
def HostConfig.desktop (c : HostConfig) : Desktop :=
  .fresh c.clipboard c.windows

/-- The settings of an engine. -/
structure Config where
  mode : Mode := .standard
  /-- Which notes are shown. -/
  logLevel : String := "warn"
  /-- How many calls of declared functions may be open at once. -/
  maxCallDepth : Nat := 256
  host : HostConfig := {}
deriving DecidableEq, Repr

/-- Why settings cannot be loaded. -/
inductive ConfigError where
  | file (path : String) (cause : FileError)
  /-- The file is not TOML, or a setting has the wrong type. -/
  | parse (path : String)
deriving DecidableEq, Repr

/-- The wording of a settings error. -/
def ConfigError.message : ConfigError → String
  | .file path cause => "failed to read config " ++ path ++ ": " ++ cause.message
  | .parse path => "failed to parse config " ++ path

/-! ## Reading -/

namespace Toml

/-- A truth value. -/
def boolean? : Toml → Option Bool
  | .boolean b => some b
  | _ => none

/-- A string. -/
def text? : Toml → Option String
  | .string s => some s
  | _ => none

/-- An integer that is not negative. -/
def natural? : Toml → Option Nat
  | .integer n => if 0 ≤ n then some n.toNat else none
  | _ => none

/-- A list of strings. -/
def texts? : Toml → Option (List String)
  | .array items => items.mapM text?
  | _ => none

/-- Whether a value is a table or an array with nothing in it. -/
def isVoid : Toml → Bool
  | .array items => items.isEmpty
  | .table fields => fields.isEmpty
  | _ => false

/-- A mode: its name, or a table whose only key is its name and holds nothing. -/
def mode? : Toml → Option Mode
  | .string s => Mode.ofName? s
  | .table [(name, inner)] => if inner.isVoid then Mode.ofName? name else none
  | _ => none

end Toml

/-- What an optional value denotes; the default if it is missing. -/
def setting {α : Type} (read : Toml → Option α) (default : α) : Option Toml → Option α
  | none => some default
  | some v => read v

/-- The settings of a desktop: a table, or an array of the values in order. -/
def HostConfig.ofToml? (v : Toml) : Option HostConfig := do
  let (echo, clipboard, windows) ←
    match v with
    | .table fields =>
        some (fields.lookup "echo", fields.lookup "clipboard", fields.lookup "windows")
    | .array items => some (items[0]?, items[1]?, items[2]?)
    | _ => none
  let standard : HostConfig := {}
  return {
    echo := ← setting Toml.boolean? standard.echo echo
    clipboard := ← setting Toml.text? standard.clipboard clipboard
    windows := ← setting Toml.texts? standard.windows windows }

namespace Config

/-- The settings in the fields of a document. -/
def ofFields? (fields : List (String × Toml)) : Option Config := do
  let standard : Config := {}
  return {
    mode := ← setting Toml.mode? standard.mode (fields.lookup "mode")
    logLevel := ← setting Toml.text? standard.logLevel (fields.lookup "log_level")
    maxCallDepth := ← setting Toml.natural? standard.maxCallDepth (fields.lookup "max_call_depth")
    host := ← setting HostConfig.ofToml? standard.host (fields.lookup "host") }

/-- Reads settings from a file and tells what is noted. A path that leads nowhere gives the
defaults. -/
def load (files : Store) (path : String) : Except ConfigError Config × List Note :=
  if files.leads path then
    match files.read path with
    | .error cause => (.error (.file path cause), [])
    | .ok content =>
        match (Toml.read? content).bind ofFields? with
        | some config => (.ok config, [])
        | none => (.error (.parse path), [])
  else (.ok {}, [⟨.debug, "no config at " ++ path ++ ", using defaults"⟩])

/-! ## Writing -/

/-- Settings as TOML. -/
def text (c : Config) : String :=
  "mode = " ++ Toml.stringText c.mode.name
    ++ "\nlog_level = " ++ Toml.stringText c.logLevel
    ++ "\nmax_call_depth = " ++ toString c.maxCallDepth
    ++ "\n\n[host]"
    ++ "\necho = " ++ (if c.host.echo then "true" else "false")
    ++ "\nclipboard = " ++ Toml.stringText c.host.clipboard
    ++ "\nwindows = " ++ Toml.listText c.host.windows
    ++ "\n"

end Config

end Chord
