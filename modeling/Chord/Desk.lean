import Chord.Host.Basic
import Chord.Library.Registry

/-!
# Desks

What running scripts share: the state of a host and the journal.

**Input.** A host, a registry and bounds.

**Results.** An `Act` is a run that may stop short and keeps what it did up to there. `Desk.call`
calls a built-in function, and `repeatUntil` repeats a step a bounded number of times.
-/

namespace Chord

/-- The state of a host and the journal. -/
structure Desk (σ : Type) where
  host : σ
  journal : Array Note := #[]

namespace Desk

variable {σ : Type}

/-- Adds a note to the journal. -/
def note (d : Desk σ) (level : Level) (text : String) : Desk σ :=
  { d with journal := d.journal.push ⟨level, text⟩ }

/-- Adds notes to the journal. -/
def noteAll (d : Desk σ) (notes : List Note) : Desk σ :=
  { d with journal := d.journal ++ notes.toArray }

/-- Calls a built-in function. -/
def call (d : Desk σ) (b : Builtin σ) (args : List Value) : Except Fault Value × Desk σ :=
  let effect := b.call args d.host
  (effect.result, { d with host := effect.state }.noteAll effect.notes)

end Desk

/-- Bounds on a run. -/
structure Limits where
  /-- How many calls of declared functions may be open at once. -/
  calls : Nat := 256
  /-- How often a single loop may repeat before the run is given up. -/
  loops : Nat
deriving DecidableEq, Repr

/-- What the back ends work with. -/
structure Setup (σ : Type) where
  host : Host σ
  registry : Registry σ
  limits : Limits

/-- Why a run stops short. -/
inductive Stop where
  | fault (cause : Fault)
  /-- A loop used up its repetitions. -/
  | unfinished
deriving DecidableEq, Repr

/-- The wording of a stop. -/
def Stop.message : Stop → String
  | .fault cause => cause.message
  | .unfinished => "a loop did not end"

/-- A run on states of type `S` that may stop short; the state up to there is kept. -/
abbrev Act (S α : Type) : Type := ExceptT Stop (StateM S) α

namespace Act

variable {S α : Type}

/-- Stops with a fault. -/
def fault (cause : Fault) : Act S α :=
  throw (.fault cause)

/-- Goes on with a result, or stops with its fault. -/
def ofExcept (r : Except Fault α) : Act S α :=
  match r with
  | .ok a => pure a
  | .error cause => fault cause

/-- Repeats a step until it gives a result, at most `n` times. -/
def repeatUntil (step : S → Except Stop (Option α) × S) : Nat → S → Except Stop α × S
  | 0, s => (.error .unfinished, s)
  | n + 1, s =>
      match step s with
      | (.ok none, s) => repeatUntil step n s
      | (.ok (some a), s) => (.ok a, s)
      | (.error e, s) => (.error e, s)

end Act

end Chord
