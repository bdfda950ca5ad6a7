import Chord.Fault

/-!
# Hosts

The services that scripts get from a desktop.

**Input.** A type of states.

**Results.** A `Host` says for each service what it answers in a state and which state it leaves. A
service that fails may leave another state too. `Host.deny` makes some services of a host fail, and
`Host.quiet` takes the services away that a host need not have.
-/

namespace Chord

/-- A service with an answer: it can fail, and it changes the state. -/
abbrev Service (σ α : Type) : Type := σ → Except Fault α × σ

/-- The services of a desktop with states in `σ`. -/
structure Host (σ : Type) where
  /-- Announces a bound hotkey. -/
  register : String → σ → σ
  /-- Withdraws a hotkey. -/
  unregister : String → σ → σ
  clipboardGet : Service σ String
  clipboardSet : String → Service σ Unit
  sendKeys : String → Service σ Unit
  /-- Brings the first window with a fitting title to the front; tells whether there is one. -/
  focusWindow : String → Service σ Bool
  nextWindow : Service σ Unit
  prevWindow : Service σ Unit
  listWindows : Service σ (List String)
  /-- Waits for some milliseconds. -/
  sleep : Nat → Service σ Unit
  log : String → σ → σ

/-- The services that can fail. -/
inductive ServiceName where
  | clipboardGet
  | clipboardSet
  | sendKeys
  | focusWindow
  | nextWindow
  | prevWindow
  | listWindows
  | sleep
deriving DecidableEq, Repr

namespace ServiceName

/-- All services that can fail. -/
def all : List ServiceName := [
  .clipboardGet, .clipboardSet, .sendKeys, .focusWindow, .nextWindow, .prevWindow, .listWindows,
  .sleep]

/-- The name of a service in messages. -/
def name : ServiceName → String
  | .clipboardGet => "clipboard_get"
  | .clipboardSet => "clipboard_set"
  | .sendKeys => "send_keys"
  | .focusWindow => "focus_window"
  | .nextWindow => "next_window"
  | .prevWindow => "prev_window"
  | .listWindows => "list_windows"
  | .sleep => "sleep"

end ServiceName

namespace Host

variable {σ : Type}

/-- A service, or its refusal without any effect. -/
def guarded {α : Type} (denied : ServiceName → Bool) (service : ServiceName) (run : Service σ α) :
    Service σ α :=
  fun s => if denied service then (.error (.host (service.name ++ " denied")), s) else run s

/-- The host with some services refused. -/
def deny (denied : ServiceName → Bool) (h : Host σ) : Host σ :=
  { h with
    clipboardGet := guarded denied .clipboardGet h.clipboardGet
    clipboardSet := fun text => guarded denied .clipboardSet (h.clipboardSet text)
    sendKeys := fun text => guarded denied .sendKeys (h.sendKeys text)
    focusWindow := fun title => guarded denied .focusWindow (h.focusWindow title)
    nextWindow := guarded denied .nextWindow h.nextWindow
    prevWindow := guarded denied .prevWindow h.prevWindow
    listWindows := guarded denied .listWindows h.listWindows
    sleep := fun ms => guarded denied .sleep (h.sleep ms) }

/-- The host without announcements, waiting and log. -/
def quiet (h : Host σ) : Host σ :=
  { h with
    register := fun _ s => s
    unregister := fun _ s => s
    sleep := fun _ s => (.ok (), s)
    log := fun _ s => s }

end Host

end Chord
