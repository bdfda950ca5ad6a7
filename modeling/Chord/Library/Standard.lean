import Chord.Host.Basic
import Chord.Library.Registry
import Chord.Text.Search

/-!
# The standard functions

Clipboard, text, windows, system and keystrokes.

**Input.** A host.

**Results.** `Registry.standard` has every function of this table.

| Function | Arguments | Result |
|---|---|---|
| `clipboard.get`, `clipboard.out` | 0 | clipboard text |
| `clipboard.set` | 1 | the text that was set |
| `text.upper`, `text.lower`, `text.trim`, `text.sanitize` | 1 | string |
| `text.replace` | 3 | string |
| `text.contains` | 2 | boolean |
| `window.focus` | 1 | boolean |
| `window.next`, `window.prev` | 0 | null |
| `window.list` | 0 | list of titles |
| `system.sleep`, `system.log` | 1 | null |
| `send` | 1 | null |
-/

namespace Chord
namespace Library

variable {σ : Type}

/-- The text of an argument; one that is missing is null. -/
def textArg (args : List Value) (i : Nat) : String :=
  (args.getD i .null).asString

/-- A function of its arguments alone. -/
def compute (f : List Value → Value) (args : List Value) (s : σ) : Effect σ :=
  { result := .ok (f args), state := s }

/-- A function that asks a host for a service. -/
def ask {α : Type} (answer : α → Value) (service : Service σ α) (s : σ) : Effect σ :=
  match service s with
  | (.ok a, s) => { result := .ok (answer a), state := s }
  | (.error e, s) => { result := .error e, state := s }

/-- The milliseconds that a number asks to wait: no fraction, nothing below zero, 64 bits. -/
def milliseconds (x : Float) : Nat :=
  if x > Float.ofNat 0 then min (Decimal.truncated x) 0xffffffffffffffff else 0

/-- Writes a message to the journal and hands it to the host. -/
def logMessage (host : Host σ) (message : String) (s : σ) : Effect σ :=
  { result := .ok .null
    state := host.log message s
    notes := [⟨.info, message⟩] }

end Library

namespace Registry

open Library

variable {σ : Type}

/-- The standard functions on a host. -/
def standard (host : Host σ) : Registry σ :=
  let null : Unit → Value := fun _ => .null
  (empty : Registry σ)
    |>.register "clipboard" "get" 0 (fun _ => ask .string host.clipboardGet)
    |>.register "clipboard" "out" 0 (fun _ => ask .string host.clipboardGet)
    |>.register "clipboard" "set" 1 (fun args =>
        ask (fun _ => .string (textArg args 0)) (host.clipboardSet (textArg args 0)))
    |>.register "text" "upper" 1 (compute fun args => .string (Text.uppercase (textArg args 0)))
    |>.register "text" "lower" 1 (compute fun args => .string (Text.lowercase (textArg args 0)))
    |>.register "text" "trim" 1 (compute fun args => .string (Text.trimmed (textArg args 0)))
    |>.register "text" "sanitize" 1 (compute fun args => .string (Text.sanitize (textArg args 0)))
    |>.register "text" "replace" 3 (compute fun args =>
        .string (Text.replaced (textArg args 0) (textArg args 1) (textArg args 2)))
    |>.register "text" "contains" 2 (compute fun args =>
        .boolean (Text.contains (textArg args 0) (textArg args 1)))
    |>.register "window" "focus" 1 (fun args => ask .boolean (host.focusWindow (textArg args 0)))
    |>.register "window" "next" 0 (fun _ => ask null host.nextWindow)
    |>.register "window" "prev" 0 (fun _ => ask null host.prevWindow)
    |>.register "window" "list" 0 (fun _ => ask .list host.listWindows)
    |>.register "system" "sleep" 1 (fun args =>
        ask null (host.sleep (milliseconds (args.getD 0 .null).asNumber)))
    |>.register "system" "log" 1 (fun args => logMessage host (textArg args 0))
    |>.register globalModule "send" 1 (fun args => ask null (host.sendKeys (textArg args 0)))

end Registry

end Chord
