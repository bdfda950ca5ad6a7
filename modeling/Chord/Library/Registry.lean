import Chord.Journal
import Chord.Script.Render
import Chord.Table
import Chord.Value.Basic
import Chord.Fault

/-!
# Built-in functions

The functions that scripts find without declaring them, grouped in modules.

**Input.** Functions with a module, a name and a number of arguments.

**Results.** A `Registry` numbers its functions in the order of their registration. `lookup` finds a
function of a module, `lookupGlobal` one that needs no module, and `resolve` the function that an
expression names. A later registration hides an earlier one of the same name. `enterAll` carries out
several registrations and gives the number that each of them was answered with.
-/

namespace Chord

/-- What a built-in function does: its result, the state of the host after it and its notes. -/
structure Effect (σ : Type) where
  result : Except Fault Value
  state : σ
  notes : List Note := []

/-- A built-in function with a fixed number of arguments. -/
structure Builtin (σ : Type) where
  /-- The number of the function in its registry. -/
  id : Nat
  module : String
  name : String
  arity : Nat
  body : List Value → σ → Effect σ

/-- The module of the functions that need no module in front. -/
def globalModule : String := "global"

namespace Builtin

variable {σ : Type}

/-- The name that scripts call the function by. -/
def qualifiedName (b : Builtin σ) : String :=
  if b.module == globalModule then b.name else b.module ++ "." ++ b.name

/-- The fault of a call with a wrong number of arguments. -/
def mismatch (b : Builtin σ) (found : Nat) : Fault :=
  .arityMismatch b.qualifiedName b.arity found

/-- Calls the function if the number of arguments is right. -/
def call (b : Builtin σ) (args : List Value) (s : σ) : Effect σ :=
  if args.length == b.arity then b.body args s
  else { result := .error (b.mismatch args.length), state := s }

end Builtin

/-- Functions by number, and their numbers by module and name. -/
structure Registry (σ : Type) where
  builtins : Array (Builtin σ) := #[]
  modules : Table (Table Nat) := .empty
  /-- Every function stands at the place that its number names. -/
  numbered : ∀ (place : Nat) (b : Builtin σ), builtins[place]? = some b → b.id = place := by simp

namespace Registry

variable {σ : Type}

/-- The registry without functions. -/
def empty : Registry σ := {}

/-- Adds a function; its number is the number of functions before it. -/
def register (r : Registry σ) (module name : String) (arity : Nat)
    (body : List Value → σ → Effect σ) : Registry σ :=
  let id := r.builtins.size
  { builtins := r.builtins.push { id, module, name, arity, body }
    modules := r.modules.insert module (((r.modules.get? module).getD .empty).insert name id)
    numbered := by
      intro place b h
      rw [Array.getElem?_push] at h
      split at h
      · rename_i hplace
        cases h
        exact hplace.symm
      · exact r.numbered place b h }

end Registry

/-- A call that registers a function, in a module or without one. -/
inductive Registration (σ : Type) where
  | member (module name : String) (arity : Nat) (body : List Value → σ → Effect σ)
  | global (name : String) (arity : Nat) (body : List Value → σ → Effect σ)

namespace Registry

variable {σ : Type}

/-- Carries out a registration: the number of the new function, and the registry with it. -/
def enter (r : Registry σ) : Registration σ → Nat × Registry σ
  | .member module name arity body => (r.builtins.size, r.register module name arity body)
  | .global name arity body => (r.builtins.size, r.register globalModule name arity body)

/-- Carries out registrations one after the other; their numbers, and the registry at the end. -/
def enterAll (r : Registry σ) : List (Registration σ) → List Nat × Registry σ
  | [] => ([], r)
  | call :: calls =>
      let (id, r) := r.enter call
      let (ids, r) := r.enterAll calls
      (id :: ids, r)

/-- Whether a name is that of a module. -/
def hasModule (r : Registry σ) (name : String) : Bool :=
  name != globalModule && r.modules.contains name

/-- The function with a number. -/
def get? (r : Registry σ) (id : Nat) : Option (Builtin σ) :=
  r.builtins[id]?

/-- The function registered last under a module and a name. -/
def find? (r : Registry σ) (module name : String) : Option (Builtin σ) :=
  ((r.modules.get? module).bind (·.get? name)).bind r.get?

/-- The function of a module. -/
def lookup (r : Registry σ) (module function : String) : Except Fault (Builtin σ) :=
  if r.hasModule module then
    match r.find? module function with
    | some b => .ok b
    | none => .error (.unknownFunction module function)
  else .error (.unknownModule module)

/-- The function that a bare name stands for. -/
def lookupGlobal (r : Registry σ) (name : String) : Option (Builtin σ) :=
  r.find? globalModule name

/-- The names of the modules, ascending. -/
def moduleNames (r : Registry σ) : List String :=
  r.modules.keys.filter (· != globalModule)

/-- The names of the functions of a module, ascending. -/
def functionNames (r : Registry σ) (module : String) : List String :=
  ((r.modules.get? module).getD .empty).keys

/-- The functions that need no module, by ascending name. -/
def globals (r : Registry σ) : List (Builtin σ) :=
  ((r.modules.get? globalModule).getD .empty).values.filterMap r.get?

/-- The built-in function that an expression names. -/
def resolve (r : Registry σ) : Expr → Except Fault (Builtin σ)
  | .identifier name =>
      match r.lookupGlobal name with
      | some b => .ok b
      | none => .error (.unknownIdentifier name)
  | .member (.identifier module) (.identifier function) => r.lookup module function
  | .member object _ => .error (.unknownModule object.text)
  | other => .error (.unknownIdentifier other.text)

theorem get?_id_of_get? {r : Registry σ} {place : Nat} {b : Builtin σ}
    (h : r.get? place = some b) : r.get? b.id = some b := by
  rw [r.numbered place b h]
  exact h

theorem get?_id_of_find? {r : Registry σ} {module name : String} {b : Builtin σ}
    (h : r.find? module name = some b) : r.get? b.id = some b := by
  obtain ⟨place, _, hplace⟩ := Option.bind_eq_some_iff.1 h
  exact get?_id_of_get? hplace

/-- Whatever an expression names is found again under its number. -/
theorem get?_id_of_resolve {r : Registry σ} {e : Expr} {b : Builtin σ}
    (h : r.resolve e = .ok b) : r.get? b.id = some b := by
  unfold resolve at h
  split at h
  · split at h
    · rename_i hfound
      cases h
      exact get?_id_of_find? hfound
    · cases h
  · unfold lookup at h
    split at h
    · split at h
      · rename_i hfound
        cases h
        exact get?_id_of_find? hfound
      · cases h
    · cases h
  · cases h
  · cases h

end Registry

end Chord
