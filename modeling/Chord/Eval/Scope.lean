import Chord.Script.Basic
import Chord.Table
import Chord.Value.Basic

/-!
# Scopes

The variables and functions that a script has declared.

**Input.** Names, values and functions.

**Results.** A `Scope` is flat: declaring a name again replaces what it stood for.
-/

namespace Chord

/-- Variables and declared functions. -/
structure Scope where
  values : Table Value := .empty
  functions : Table Function := .empty

namespace Scope

/-- The scope without names. -/
def empty : Scope := {}

instance : Inhabited Scope := ⟨empty⟩

/-- The value of a variable. -/
def get? (s : Scope) (name : String) : Option Value :=
  s.values.get? name

/-- Sets a variable. -/
def set (s : Scope) (name : String) (value : Value) : Scope :=
  { s with values := s.values.insert name value }

@[simp] theorem get?_set_self (s : Scope) (name : String) (value : Value) :
    (s.set name value).get? name = some value :=
  Table.get?_insert_self s.values name value

theorem get?_set_of_ne (s : Scope) {name other : String} (h : other ≠ name) (value : Value) :
    (s.set name value).get? other = s.get? other :=
  Table.get?_insert_of_ne s.values h value

/-- A declared function. -/
def function? (s : Scope) (name : String) : Option Function :=
  s.functions.get? name

/-- Declares a function. -/
def define (s : Scope) (f : Function) : Scope :=
  { s with functions := s.functions.insert f.name f }

@[simp] theorem function?_define_self (s : Scope) (f : Function) :
    (s.define f).function? f.name = some f :=
  Table.get?_insert_self s.functions f.name f

theorem function?_define_of_ne (s : Scope) {name : String} {f : Function} (h : name ≠ f.name) :
    (s.define f).function? name = s.function? name :=
  Table.get?_insert_of_ne s.functions h f

/-- Sets parameters to arguments, from left to right. -/
def enter (s : Scope) : List String → List Value → Scope
  | name :: names, value :: values => (s.set name value).enter names values
  | _, _ => s

/-- Parameters are variables, so they leave the functions alone. -/
theorem functions_enter (s : Scope) : (names : List String) → (values : List Value) →
    (s.enter names values).functions = s.functions
  | [], _ => rfl
  | _ :: _, [] => rfl
  | name :: names, value :: values => functions_enter (s.set name value) names values

end Scope

end Chord
