/-!
# JSON

**Input.** Nothing.

**Results.** `Json` is the tree of a JSON text, with the fields of objects in the order written,
repeats included. Two kinds of leaves are well formed but denote nothing here: a number beyond the
range of floats, and a string with half of a surrogate pair. `isSound` tells that a tree has no such
leaves and is not nested too deeply.
-/

namespace Chord

/-- A number: an integer of 64 bits, with or without sign, or a float. -/
inductive Json.Number where
  | integer (n : Int)
  | float (x : Float)
deriving DecidableEq, Repr

/-- The tree of a JSON text. -/
inductive Json where
  | null
  | boolean (b : Bool)
  /-- A number, unless it is out of range. -/
  | number (n : Option Json.Number)
  /-- A string, unless it has an unpaired surrogate. -/
  | string (s : Option String)
  | array (items : List Json)
  | object (fields : List (String × Json))
deriving Inhabited, Repr

namespace Json

/-- A string that denotes itself. -/
def text (s : String) : Json := .string (some s)

/-- An integer. -/
def int (n : Int) : Json := .number (some (.integer n))

/-- How many arrays and objects may contain each other. -/
def maxDepth : Nat := 127

mutual

/-- Every leaf denotes something and at most `depth` levels are nested. -/
def isSoundWithin (depth : Nat) : Json → Bool
  | .number n => n.isSome
  | .string s => s.isSome
  | .array items => 0 < depth && allSoundWithin (depth - 1) items
  | .object fields => 0 < depth && fieldsSoundWithin (depth - 1) fields
  | _ => true

/-- Every item is sound. -/
def allSoundWithin (depth : Nat) : List Json → Bool
  | [] => true
  | j :: js => j.isSoundWithin depth && allSoundWithin depth js

/-- The value of every field is sound. -/
def fieldsSoundWithin (depth : Nat) : List (String × Json) → Bool
  | [] => true
  | (_, j) :: fs => j.isSoundWithin depth && fieldsSoundWithin depth fs

end

/-- Every leaf denotes something and the tree is not nested too deeply. -/
def isSound (j : Json) : Bool :=
  j.isSoundWithin maxDepth

end Json

end Chord
