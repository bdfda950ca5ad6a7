import Chord.Script.Operator

/-!
# Scripts

The trees that scripts are read into.

**Input.** Nothing.

**Results.** Expressions, statements and programs. The types allow more than scripts can spell: the
callee of a call or the hotkey of a binding may be any expression.
-/

namespace Chord

/-- Expressions. -/
inductive Expr where
  | identifier (name : String)
  | number (value : Float)
  | string (value : String)
  /-- A hotkey, kept as it was written. -/
  | hotkey (text : String)
  | binary (left : Expr) (op : BinOp) (right : Expr)
  | call (callee : Expr) (args : List Expr)
  | member (object property : Expr)
  /-- Stages that hand their results on. -/
  | pipeline (stages : List Expr)
deriving Inhabited, Repr

namespace Expr

/-- Stages as one expression; a single stage stands for itself. -/
def ofStages : List Expr → Expr
  | [stage] => stage
  | stages => .pipeline stages

/-- Expressions that can name something to call. -/
def isCallablePath : Expr → Bool
  | .identifier _ => true
  | .member _ _ => true
  | _ => false

end Expr

/-- Statements. -/
inductive Stmt where
  /-- Binds an action to a hotkey; the line is that of the hotkey. -/
  | bind (hotkey : Expr) (action : Stmt) (line : Nat)
  | block (body : List Stmt)
  | expr (value : Expr)
  /-- Creates or overwrites a variable; without a value it becomes null. -/
  | assign (name : String) (value : Option Expr)
  | branch (condition : Expr) (consequence : Stmt) (alternative : Option Stmt)
  | loop (condition : Expr) (body : Stmt)
  /-- Leaves the function or action. -/
  | leave (value : Option Expr)
  | function (name : String) (params : List String) (body : Stmt)
deriving Inhabited, Repr

namespace Stmt

/-- Statements that bind a hotkey. -/
def isBinding : Stmt → Bool
  | .bind _ _ _ => true
  | _ => false

/-- The hotkey of a binding as it was written. -/
def hotkeyText? : Stmt → Option String
  | .bind (.hotkey text) _ _ => some text
  | _ => none

end Stmt

/-- A function that a script declares. -/
structure Function where
  name : String
  params : List String
  body : Stmt
deriving Inhabited, Repr

/-- A whole script. -/
structure Program where
  statements : List Stmt
deriving Inhabited, Repr

/-- The bindings on the top level, in order. -/
def Program.bindings (p : Program) : List Stmt :=
  p.statements.filter Stmt.isBinding

/-- The statements on the top level that bind nothing, in order. -/
def Program.others (p : Program) : List Stmt :=
  p.statements.filter fun s => !s.isBinding

end Chord
