import Chord.Eval.Machine
import Chord.Proofs.Script.Concatenation
import Chord.Proofs.Table

/-!
# Other line numbers

The lines of bindings are carried along by everything that stores statements: declared functions,
scopes and bound actions.

**Input.** A function on line numbers.

**Results.** `renumbered` applies it to every line that something stores. A scope is renumbered
along with whatever is declared in it: `Scope.renumbered_define` and its companions. Renumbering a
statement that was moved down is renumbering the statement (`Stmt.renumbered_moved`). Statements
that are equal up to their lines are the same when `unlined`.
-/

namespace Chord

/-! ## Statements -/

/-- A statement with other line numbers. -/
def Stmt.renumbered (f : Nat → Nat) : Stmt → Stmt
  | .bind hotkey action line => .bind hotkey (action.renumbered f) (f line)
  | .block body => .block (body.map fun s => s.renumbered f)
  | .branch condition consequence none => .branch condition (consequence.renumbered f) none
  | .branch condition consequence (some alternative) =>
      .branch condition (consequence.renumbered f) (some (alternative.renumbered f))
  | .loop condition body => .loop condition (body.renumbered f)
  | .function name params body => .function name params (body.renumbered f)
  | .expr value => .expr value
  | .assign name value => .assign name value
  | .leave value => .leave value

namespace Stmt

theorem renumbered_id : (s : Stmt) → s.renumbered (fun line => line) = s
  | .bind _ action _ => by rw [renumbered, renumbered_id action]
  | .block body => by
      rw [renumbered, List.map_congr_left fun s _ => renumbered_id s, List.map_id']
  | .branch _ consequence none => by rw [renumbered, renumbered_id consequence]
  | .branch _ consequence (some alternative) => by
      rw [renumbered, renumbered_id consequence, renumbered_id alternative]
  | .loop _ body => by rw [renumbered, renumbered_id body]
  | .function _ _ body => by rw [renumbered, renumbered_id body]
  | .expr _ => by rw [renumbered]
  | .assign _ _ => by rw [renumbered]
  | .leave _ => by rw [renumbered]

theorem renumbered_moved (f : Nat → Nat) (lines : Nat) :
    (s : Stmt) → (s.moved lines).renumbered f = s.renumbered fun line => f (line + lines)
  | .bind _ action _ => by
      rw [moved, renumbered, renumbered, renumbered_moved f lines action]
  | .block body => by
      rw [moved, renumbered, renumbered, List.map_map]
      exact congrArg _ (List.map_congr_left fun s _ => renumbered_moved f lines s)
  | .branch _ consequence none => by
      rw [moved, renumbered, renumbered, renumbered_moved f lines consequence]
  | .branch _ consequence (some alternative) => by
      rw [moved, renumbered, renumbered, renumbered_moved f lines consequence,
        renumbered_moved f lines alternative]
  | .loop _ body => by rw [moved, renumbered, renumbered, renumbered_moved f lines body]
  | .function _ _ body => by rw [moved, renumbered, renumbered, renumbered_moved f lines body]
  | .expr _ => by rw [moved, renumbered, renumbered]
  | .assign _ _ => by rw [moved, renumbered, renumbered]
  | .leave _ => by rw [moved, renumbered, renumbered]

/-- A statement with line 0 everywhere. -/
def unlined (s : Stmt) : Stmt :=
  s.renumbered fun _ => 0

theorem unlined_moved (lines : Nat) (s : Stmt) : (s.moved lines).unlined = s.unlined :=
  renumbered_moved _ lines s

end Stmt

/-! ## What stores statements -/

/-- A function with other line numbers in its body. -/
def Function.renumbered (f : Nat → Nat) (g : Function) : Function :=
  { g with body := g.body.renumbered f }

/-- A scope with other line numbers in its functions. -/
def Scope.renumbered (f : Nat → Nat) (s : Scope) : Scope :=
  { s with functions := s.functions.map (Function.renumbered f) }

/-- A binding with other line numbers in its action and its scope. -/
def Binding.renumbered (f : Nat → Nat) (b : Binding) : Binding :=
  { b with action := b.action.renumbered f, scope := b.scope.renumbered f }

namespace Scope

theorem renumbered_id (s : Scope) : s.renumbered (fun line => line) = s := by
  have hfunction : Function.renumbered (fun line => line) = fun g => g := by
    funext g
    rw [Function.renumbered, Stmt.renumbered_id]
  rw [renumbered, hfunction, Table.map_id]

theorem function?_renumbered (f : Nat → Nat) (s : Scope) (name : String) :
    (s.renumbered f).function? name = (s.function? name).map (Function.renumbered f) :=
  Table.get?_map _ s.functions name

theorem renumbered_define (f : Nat → Nat) (s : Scope) (g : Function) :
    (s.define g).renumbered f = (s.renumbered f).define (g.renumbered f) := by
  unfold define renumbered
  rw [← Table.insert_map]
  rfl

theorem renumbered_enter (f : Nat → Nat) : (s : Scope) → (names : List String) →
    (values : List Value) → (s.enter names values).renumbered f =
      (s.renumbered f).enter names values
  | s, name :: names, value :: values => renumbered_enter f (s.set name value) names values
  | _, [], _ => rfl
  | _, _ :: _, [] => rfl

end Scope

theorem Binding.renumbered_id (b : Binding) : b.renumbered (fun line => line) = b := by
  rw [renumbered, Stmt.renumbered_id, Scope.renumbered_id]

end Chord
