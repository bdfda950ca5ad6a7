import Chord.Fault
import Chord.Script.Basic
import Chord.Value.Basic

/-!
# Lowered actions

The form of an action in which every name has been looked up.

**Input.** Nothing.

**Results.** In `Code` constants, functions and failures are numbers, and variables are slots. A
read of a variable carries what to do if no assignment has run yet. An `Action` is code with its
pools.
-/

namespace Chord
namespace Native

/-- Lowered code. Each piece produces a value. -/
inductive Code where
  | null
  | const (index : Nat)
  /-- Reads a slot; an empty one is read by the fallback. -/
  | read (slot : Nat) (fallback : Code)
  | write (slot : Nat) (value : Code)
  | binary (op : BinOp) (left right : Code)
  /-- The right side decides only if the left one is true. -/
  | both (left right : Code)
  /-- The right side decides only if the left one is false. -/
  | either (left right : Code)
  | call (id : Nat) (args : List Code)
  /-- Fails with an entry of the failure pool. -/
  | raise (index : Nat)
  /-- One piece after the other; the value is that of the second. -/
  | seq (first second : Code)
  | branch (condition consequence alternative : Code)
  | loop (condition body : Code)
  /-- Leaves the action with a value. -/
  | leave (value : Code)
deriving Inhabited, Repr

/-- A compiled action. -/
structure Action where
  code : Code
  /-- How many variables it has. -/
  slots : Nat
  constants : Array Value
  failures : Array Fault
deriving Inhabited, Repr

end Native
end Chord
