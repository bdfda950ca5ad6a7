import Chord.Host.Basic
import Chord.Text.Case
import Chord.Text.Search

/-!
# A desktop in memory

A desktop with a clipboard and windows that records everything done to it.

**Input.** A clipboard text and window titles.

**Results.** `Desktop` is the record and `Desktop.host` the services on it; none of them fails.
-/

namespace Chord

/-- What a desktop shows and what was done to it, oldest first. -/
structure Desktop where
  clipboard : String := ""
  windows : List String := []
  /-- The place of the focused window in the list. -/
  focused : Option Nat := none
  sent : List String := []
  logs : List String := []
  /-- The hotkeys announced, repeats included. -/
  registered : List String := []
  /-- The waits in milliseconds. -/
  slept : List Nat := []
deriving DecidableEq, Repr, Inhabited

namespace Desktop

/-- A fresh desktop; the first window is focused. -/
def fresh (clipboard : String) (windows : List String) : Desktop :=
  { clipboard, windows, focused := if windows.isEmpty then none else some 0 }

/-- The title of the focused window. -/
def focusedTitle? (d : Desktop) : Option String :=
  d.focused.bind fun i => d.windows[i]?

/-- Moves the focus by some places around the list of windows. -/
def cycle (places : Nat) (d : Desktop) : Desktop :=
  if d.windows.isEmpty then d
  else { d with focused := some ((d.focused.getD 0 + places) % d.windows.length) }

/-- The place of the first window whose title contains a text, letter case aside. -/
def find? (d : Desktop) (title : String) : Option Nat :=
  let needle := Text.lowercase title
  d.windows.findIdx? fun w => Text.contains (Text.lowercase w) needle

/-- The services of a desktop in memory. -/
def host : Host Desktop where
  register := fun key d => { d with registered := d.registered ++ [key] }
  unregister := fun key d => { d with registered := d.registered.filter (· != key) }
  clipboardGet := fun d => (.ok d.clipboard, d)
  clipboardSet := fun text d => (.ok (), { d with clipboard := text })
  sendKeys := fun text d => (.ok (), { d with sent := d.sent ++ [text] })
  focusWindow := fun title d =>
    match d.find? title with
    | some i => (.ok true, { d with focused := some i })
    | none => (.ok false, d)
  nextWindow := fun d => (.ok (), d.cycle 1)
  prevWindow := fun d => (.ok (), d.cycle (d.windows.length - 1))
  listWindows := fun d => (.ok d.windows, d)
  sleep := fun ms d => (.ok (), { d with slept := d.slept ++ [ms] })
  log := fun message d => { d with logs := d.logs ++ [message] }

end Desktop

end Chord
