import Chord.Desk
import Chord.Value.Arithmetic

/-!
# Frames

The values of one run of a compiled action.

**Input.** A registry, the pools of an action and a desk.

**Results.** A frame keeps values in the order of their creation and hands out their numbers as
handles; handle zero is null. Each operation takes any integers: an index out of range reads as null
or fails. An operation that fails keeps the fault in the frame and gives the handle `failed`.
-/

namespace Chord
namespace Native

/-- The handle of an operation that failed. -/
def failed : Int := -1

/-- The handle of the null that every frame starts with. -/
def nullHandle : Int := 0

/-- The mark of a variable without a value. -/
def undefined : Int := -2

/-- The largest number of arguments of a compiled call. -/
def maxCallArgs : Nat := 3

/-- The operations on frames and how many integers each takes. -/
def operations : List (String × Nat) := [
  ("hk_rt_const", 1), ("hk_rt_bool", 1), ("hk_rt_truthy", 1), ("hk_rt_binary", 3),
  ("hk_rt_call", 2 + maxCallArgs), ("hk_rt_raise", 1)]

/-- The values of one run. -/
structure Frame (σ : Type) where
  registry : Registry σ
  constants : Array Value
  failures : Array Fault
  desk : Desk σ
  values : Array Value := #[.null]
  error : Option Fault := none

/-- The entry of an array at an integer, if it is in range. -/
def itemAt? {α : Type} (xs : Array α) (i : Int) : Option α :=
  if i < 0 then none else xs[i.toNat]?

namespace Frame

variable {σ : Type}

/-- The value of a handle; any other integer reads as null. -/
def get (f : Frame σ) (handle : Int) : Value :=
  (itemAt? f.values handle).getD .null

/-- Adds a value and gives its handle. -/
def push (f : Frame σ) (v : Value) : Int × Frame σ :=
  (f.values.size, { f with values := f.values.push v })

/-- Keeps a fault. -/
def fail (f : Frame σ) (cause : Fault) : Int × Frame σ :=
  (failed, { f with error := some cause })

/-- Adds a result, or keeps its fault. -/
def settle (f : Frame σ) : Except Fault Value → Int × Frame σ
  | .ok v => f.push v
  | .error cause => f.fail cause

/-- Adds a constant of the pool. -/
def const (f : Frame σ) (index : Int) : Int × Frame σ :=
  f.push ((itemAt? f.constants index).getD .null)

/-- Adds a boolean, which is true for every integer but zero. -/
def bool (f : Frame σ) (flag : Int) : Int × Frame σ :=
  f.push (.boolean (flag != 0))

/-- One if the value of a handle is true, and zero if it is false. -/
def truthy (f : Frame σ) (handle : Int) : Int :=
  if (f.get handle).asBool then 1 else 0

/-- Applies the operator with a code. -/
def binary (f : Frame σ) (code left right : Int) : Int × Frame σ :=
  match BinOp.ofCode? code with
  | some op => f.settle (applyBinOp op (f.get left) (f.get right))
  | none => f.fail (.host ("invalid operator code " ++ toString code))

/-- Calls the function with a number on the first `count` of three handles. -/
def call (f : Frame σ) (id count a b c : Int) : Int × Frame σ :=
  match if id < 0 then none else f.registry.get? id.toNat with
  | some builtin =>
      let args := ([a, b, c].take (min count.toNat maxCallArgs)).map f.get
      let (result, desk) := f.desk.call builtin args
      { f with desk }.settle result
  | none => f.fail (.host ("invalid builtin id " ++ toString id))

/-- Fails with an entry of the failure pool. -/
def raise (f : Frame σ) (index : Int) : Int × Frame σ :=
  f.fail ((itemAt? f.failures index).getD (.host ("invalid failure index " ++ toString index)))

/-- The result that a handle stands for: the fault kept last if it is `failed`, else its value. -/
def finish (f : Frame σ) (handle : Int) : Except Fault Value :=
  if handle == failed then .error (f.error.getD (.host "native action aborted"))
  else .ok (f.get handle)

end Frame

end Native
end Chord
