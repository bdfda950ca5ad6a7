import Chord.Text.Blank
import Chord.Text.Case

/-!
# Hotkeys

A hotkey is a set of modifier keys together with one more key. The same combination has many
spellings; the canonical one names the modifiers in a fixed order and the key by its usual name.

**Input.** Any text.

**Results.** `Hotkey.parse` reads every text as some combination, `Hotkey.text` writes the canonical
spelling, and `normalize` is the one after the other.
-/

namespace Chord

/-- The modifier keys, in canonical order. -/
inductive Modifier where
  | ctrl
  | alt
  | shift
  | win
deriving DecidableEq, Repr

namespace Modifier

/-- All modifiers in canonical order. -/
def all : List Modifier := [.ctrl, .alt, .shift, .win]

/-- The name in canonical spellings. -/
def name : Modifier → String
  | .ctrl => "Ctrl"
  | .alt => "Alt"
  | .shift => "Shift"
  | .win => "Win"

/-- The modifier that a word names, in any letter case. -/
def ofWord? (word : String) : Option Modifier :=
  match Text.asciiLower word with
  | "ctrl" => some .ctrl
  | "control" => some .ctrl
  | "alt" => some .alt
  | "shift" => some .shift
  | "win" => some .win
  | "super" => some .win
  | _ => none

/-- The modifier that a symbol stands for in front of a key. -/
def ofSymbol? : Char → Option Modifier
  | '^' => some .ctrl
  | '!' => some .alt
  | '+' => some .shift
  | '#' => some .win
  | _ => none

end Modifier

/-- A set of modifiers. -/
structure Modifiers where
  ctrl : Bool := false
  alt : Bool := false
  shift : Bool := false
  win : Bool := false
deriving DecidableEq, Repr

namespace Modifiers

/-- The set without modifiers. -/
def empty : Modifiers := {}

/-- Whether a modifier is in the set. -/
def holds (ms : Modifiers) : Modifier → Bool
  | .ctrl => ms.ctrl
  | .alt => ms.alt
  | .shift => ms.shift
  | .win => ms.win

/-- Adds a modifier. -/
def insert (ms : Modifiers) : Modifier → Modifiers
  | .ctrl => { ms with ctrl := true }
  | .alt => { ms with alt := true }
  | .shift => { ms with shift := true }
  | .win => { ms with win := true }

/-- The modifiers of the set in canonical order. -/
def toList (ms : Modifiers) : List Modifier :=
  Modifier.all.filter ms.holds

end Modifiers

/-- The function keys F1 to F24, in any letter case. -/
def isFunctionKey : List Char → Bool
  | [f, d] => (f == 'f' || f == 'F') && d.isDigit && d != '0'
  | [f, t, d] =>
      (f == 'f' || f == 'F')
        && ((t == '1' && d.isDigit) || (t == '2' && '0' ≤ d && d ≤ '4'))
  | _ => false

/-- Spellings of named keys, in small letters, and the names they stand for. -/
def keyNames : List (String × String) := [
  ("esc", "Escape"), ("escape", "Escape"),
  ("enter", "Enter"), ("return", "Enter"),
  ("tab", "Tab"),
  ("space", "Space"),
  ("bs", "Backspace"), ("backspace", "Backspace"),
  ("del", "Delete"), ("delete", "Delete"),
  ("ins", "Insert"), ("insert", "Insert"),
  ("home", "Home"),
  ("end", "End"),
  ("pgup", "PageUp"), ("pageup", "PageUp"),
  ("pgdn", "PageDown"), ("pagedown", "PageDown"),
  ("up", "Up"),
  ("down", "Down"),
  ("left", "Left"),
  ("right", "Right"),
  ("printscreen", "PrintScreen"), ("prtsc", "PrintScreen"),
  ("pause", "Pause"),
  ("capslock", "CapsLock"),
  ("numlock", "NumLock"),
  ("scrolllock", "ScrollLock")]

/-- The canonical name of a key: a single character in capitals, a function key or a named key by
its name, and any other word with a capital first letter. -/
def canonicalKey (cs : List Char) : List Char :=
  match Text.trim cs with
  | [] => []
  | [c] => Text.upperChar c
  | c :: rest =>
      if isFunctionKey (c :: rest) then (c :: rest).map Char.toUpper
      else
        match keyNames.lookup (String.ofList ((c :: rest).map Char.toLower)) with
        | some name => name.toList
        | none => Text.upperChar c ++ Text.lower rest

/-- A parsed key combination. -/
structure Hotkey where
  modifiers : Modifiers
  key : String
deriving DecidableEq, Repr

namespace Hotkey

/-- Takes modifier symbols off the front, as long as something is left for the key. -/
def takeSymbols (ms : Modifiers) : List Char → Modifiers × List Char
  | c :: d :: cs =>
      match Modifier.ofSymbol? c with
      | some m => takeSymbols (ms.insert m) (d :: cs)
      | none => (ms, c :: d :: cs)
  | cs => (ms, cs)

/-- Takes modifier words with their plus signs off the front. `word` holds, last first, the
characters since the last plus sign taken. A plus sign at the very end belongs to the key. -/
def takeWords (ms : Modifiers) (word : List Char) : List Char → Modifiers × List Char
  | [] => (ms, word.reverse)
  | '+' :: c :: cs =>
      if word.isEmpty then (ms, '+' :: c :: cs)
      else
        match Modifier.ofWord? (String.ofList word.reverse) with
        | some m => takeWords (ms.insert m) [] (c :: cs)
        | none => (ms, word.reverse ++ '+' :: c :: cs)
  | c :: cs => takeWords ms (c :: word) cs

/-- Reads any text as a combination. What is no modifier belongs to the key. -/
def parse (text : String) : Hotkey :=
  let (ms, rest) := takeSymbols .empty (Text.trim text.toList)
  let (ms, rest) := takeWords ms [] rest
  { modifiers := ms, key := String.ofList (canonicalKey rest) }

/-- The canonical spelling of a combination. -/
def text (h : Hotkey) : String :=
  "+".intercalate
    (h.modifiers.toList.map Modifier.name ++ if h.key.isEmpty then [] else [h.key])

end Hotkey

/-- The canonical spelling of the combination that a text denotes. -/
def normalize (text : String) : String :=
  (Hotkey.parse text).text

end Chord
