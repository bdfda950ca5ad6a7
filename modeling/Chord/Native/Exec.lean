import Chord.Native.Code
import Chord.Native.Frame

/-!
# Running compiled actions

**Input.** An action and a desk.

**Algorithm.** Code runs on a frame and on slots that hold handles. After every operation that can
fail the handle is checked, and a failed one ends the run.

**Results.** `Action.invoke` gives the result of an action and the desk after it.
-/

namespace Chord
namespace Native

variable {σ : Type}

/-- The state of running code. -/
structure Active (σ : Type) where
  frame : Frame σ
  slots : Array Int

/-- Why code ends before its last piece. -/
inductive Leave where
  /-- The action is left with a handle. -/
  | returned (handle : Int)
  /-- An operation failed. -/
  | aborted
  /-- A loop used up its repetitions. -/
  | unfinished
deriving DecidableEq, Repr

/-- A piece of running code. -/
abbrev Step (σ α : Type) : Type := ExceptT Leave (StateM (Active σ)) α

/-- An operation that cannot fail. -/
def safe (op : Frame σ → Int × Frame σ) : Step σ Int :=
  fun s =>
    let (handle, frame) := op s.frame
    (.ok handle, { s with frame })

/-- An operation that can fail, with the check of its handle. -/
def checked (op : Frame σ → Int × Frame σ) : Step σ Int :=
  fun s =>
    let (handle, frame) := op s.frame
    (if handle == failed then .error .aborted else .ok handle, { s with frame })

/-- The truth of a handle as one or zero. -/
def truth (handle : Int) : Step σ Int :=
  fun s => (.ok (s.frame.truthy handle), s)

/-- Repeats a step until it gives a handle, at most `n` times. -/
def repeatUntil (step : Active σ → Except Leave (Option Int) × Active σ) :
    Nat → Active σ → Except Leave Int × Active σ
  | 0, s => (.error .unfinished, s)
  | n + 1, s =>
      match step s with
      | (.ok none, s) => repeatUntil step n s
      | (.ok (some handle), s) => (.ok handle, s)
      | (.error e, s) => (.error e, s)

mutual

/-- Runs code; `loops` bounds the repetitions of each loop. -/
def exec (loops : Nat) : Code → Step σ Int
  | .null => pure nullHandle
  | .const index => safe (·.const index)
  | .read slot fallback => do
      let s ← get
      let handle := s.slots.getD slot undefined
      if handle == undefined then exec loops fallback else return handle
  | .write slot value => do
      let handle ← exec loops value
      modify fun s => { s with slots := s.slots.setIfInBounds slot handle }
      return handle
  | .binary op left right => do
      let l ← exec loops left
      let r ← exec loops right
      checked (·.binary op.code l r)
  | .both left right => do
      let l ← truth (← exec loops left)
      if l == 0 then safe (·.bool 0)
      else
        let r ← truth (← exec loops right)
        safe (·.bool r)
  | .either left right => do
      let l ← truth (← exec loops left)
      if l == 0 then
        let r ← truth (← exec loops right)
        safe (·.bool r)
      else safe (·.bool 1)
  | .call id args => do
      let handles ← execArgs loops args
      checked (·.call id handles.length (handles.getD 0 nullHandle) (handles.getD 1 nullHandle)
        (handles.getD 2 nullHandle))
  | .raise index => checked (·.raise index)
  | .seq first second => do
      let _ ← exec loops first
      exec loops second
  | .branch condition consequence alternative => do
      let c ← truth (← exec loops condition)
      if c == 0 then exec loops alternative else exec loops consequence
  | .loop condition body =>
      repeatUntil
        (do
          let c ← truth (← exec loops condition)
          if c == 0 then return some nullHandle
          else
            let _ ← exec loops body
            return none : Step σ (Option Int))
        loops
  | .leave value => do
      let handle ← exec loops value
      throw (.returned handle)

/-- Runs the code of arguments, from left to right. -/
def execArgs (loops : Nat) : List Code → Step σ (List Int)
  | [] => pure []
  | c :: cs => do
      let handle ← exec loops c
      let handles ← execArgs loops cs
      return handle :: handles

end

attribute [simp] exec execArgs

/-- Runs an action. -/
def Action.invoke (a : Action) (registry : Registry σ) (loops : Nat) (desk : Desk σ) :
    Except Stop Value × Desk σ :=
  let frame : Frame σ :=
    { registry, constants := a.constants, failures := a.failures, desk }
  let finish (frame : Frame σ) (handle : Int) : Except Stop Value :=
    (frame.finish handle).mapError .fault
  match exec loops a.code ⟨frame, Array.replicate a.slots undefined⟩ with
  | (.ok handle, s) => (finish s.frame handle, s.frame.desk)
  | (.error (.returned handle), s) => (finish s.frame handle, s.frame.desk)
  | (.error .aborted, s) => (finish s.frame failed, s.frame.desk)
  | (.error .unfinished, s) => (.error .unfinished, s.frame.desk)

end Native
end Chord
