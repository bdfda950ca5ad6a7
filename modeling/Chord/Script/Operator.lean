/-!
# Binary operators

**Input.** Symbols and codes.

**Results.** The operators of scripts with their symbols, their codes in compiled actions and the
way back from both.
-/

namespace Chord

/-- The binary operators. -/
inductive BinOp where
  | equal
  | notEqual
  | lessThan
  | greaterThan
  | lessEqual
  | greaterEqual
  | add
  | subtract
  | multiply
  | divide
  | and
  | or
deriving DecidableEq, Repr

namespace BinOp

/-- All operators in the order of their codes. -/
def all : List BinOp := [
  .equal, .notEqual, .lessThan, .greaterThan, .lessEqual, .greaterEqual,
  .add, .subtract, .multiply, .divide, .and, .or]

/-- The usual symbol. -/
def symbol : BinOp → String
  | .equal => "=="
  | .notEqual => "!="
  | .lessThan => "<"
  | .greaterThan => ">"
  | .lessEqual => "<="
  | .greaterEqual => ">="
  | .add => "+"
  | .subtract => "-"
  | .multiply => "*"
  | .divide => "/"
  | .and => "and"
  | .or => "or"

/-- The operator that a symbol spells. The logical ones have two spellings. -/
def ofSymbol? : String → Option BinOp
  | "==" => some .equal
  | "!=" => some .notEqual
  | "<" => some .lessThan
  | ">" => some .greaterThan
  | "<=" => some .lessEqual
  | ">=" => some .greaterEqual
  | "+" => some .add
  | "-" => some .subtract
  | "*" => some .multiply
  | "/" => some .divide
  | "and" => some .and
  | "&&" => some .and
  | "or" => some .or
  | "||" => some .or
  | _ => none

/-- The number of an operator in compiled actions. -/
def code : BinOp → Nat
  | .equal => 0
  | .notEqual => 1
  | .lessThan => 2
  | .greaterThan => 3
  | .lessEqual => 4
  | .greaterEqual => 5
  | .add => 6
  | .subtract => 7
  | .multiply => 8
  | .divide => 9
  | .and => 10
  | .or => 11

/-- The operator with a number. -/
def ofCode? (code : Int) : Option BinOp :=
  if code < 0 then none else all[code.toNat]?

/-- Operators that look at their right side only when the left one leaves the result open. -/
def isShortCircuit : BinOp → Bool
  | .and => true
  | .or => true
  | _ => false

@[simp] theorem ofSymbol?_symbol (op : BinOp) : ofSymbol? op.symbol = some op := by
  cases op <;> rfl

@[simp] theorem ofCode?_code (op : BinOp) : ofCode? op.code = some op := by
  cases op <;> rfl

end BinOp

end Chord
