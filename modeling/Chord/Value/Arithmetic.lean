import Chord.Decimal.Fixed
import Chord.Fault
import Chord.Script.Operator
import Chord.Value.Basic

/-!
# Operators on values

What each binary operator makes of two values.

**Input.** An operator and two values.

**Algorithm.** Two integers stay integers as long as the exact result is one and in range. Two
floats are calculated as floats. An integer and a float meet as decimals, and the result is an
integer if it is whole; where the decimals do not fit the floats decide.

**Results.** `applyBinOp` gives a value or a fault, and division by zero is the only fault.
-/

namespace Chord

/-- An operand seen as a number. -/
inductive Number where
  | int (n : Int64)
  | float (x : Float)
deriving DecidableEq, Repr

namespace Number

/-- Whole texts are integers; null and lists are zero. -/
def ofValue : Value → Number
  | .integer n => .int n
  | .float x => .float x
  | .boolean b => .int (if b then 1 else 0)
  | .null => .int 0
  | .list _ => .int 0
  | .string s =>
      match Value.ofNumber (Value.numberOfText s) with
      | .integer n => .int n
      | _ => .float (Value.numberOfText s)

/-- The number as a float. -/
def toFloat : Number → Float
  | .int n => Float.ofInt n.toInt
  | .float x => x

/-- Whether the number is zero. -/
def isZero : Number → Bool
  | .int n => n == 0
  | .float x => x == Float.ofNat 0

/-- The number as a decimal, if it has one. -/
def toFixed? : Number → Option Decimal.Fixed
  | .int n => some (.ofInt n.toInt)
  | .float x => Decimal.Fixed.ofFloat? x

end Number

/-- The arithmetic operators. -/
inductive Arith where
  | add
  | subtract
  | multiply
  | divide
deriving DecidableEq, Repr

namespace Arith

/-- The operation on floats. -/
def onFloats (op : Arith) (a b : Float) : Float :=
  match op with
  | .add => a + b
  | .subtract => a - b
  | .multiply => a * b
  | .divide => a / b

/-- The exact result on integers, if it is an integer; the divisor is not zero. -/
def onInts? (op : Arith) (a b : Int) : Option Int :=
  match op with
  | .add => some (a + b)
  | .subtract => some (a - b)
  | .multiply => some (a * b)
  | .divide => if a.tmod b == 0 then some (a.tdiv b) else none

/-- The operation on decimals, if the result fits. -/
def onFixed? (op : Arith) (a b : Decimal.Fixed) : Option Decimal.Fixed :=
  match op with
  | .add => a.add b
  | .subtract => a.sub b
  | .multiply => a.mul b
  | .divide => a.div b

/-- A decimal as a value: an integer if it is whole and in range. -/
def ofFixed (d : Decimal.Fixed) : Value :=
  match d.whole?.bind int64? with
  | some n => .integer n
  | none => .float d.toFloat

/-- The operation on an integer and a float, through decimals. -/
def onMixed? (op : Arith) (a b : Number) : Option Value := do
  let a ← a.toFixed?
  let b ← b.toFixed?
  let result ← op.onFixed? a b
  return ofFixed result

/-- The operation on numbers. -/
def apply (op : Arith) (a b : Number) : Except Fault Value :=
  if op == .divide && b.isZero then .error .divisionByZero
  else
    match a, b with
    | .int m, .int n =>
        match (op.onInts? m.toInt n.toInt).bind int64? with
        | some k => .ok (.integer k)
        | none => .ok (.float (op.onFloats a.toFloat b.toFloat))
    | .float x, .float y => .ok (.float (op.onFloats x y))
    | _, _ =>
        match op.onMixed? a b with
        | some v => .ok v
        | none => .ok (.float (op.onFloats a.toFloat b.toFloat))

end Arith

namespace Value

/-- Strings and lists are compared as such, all else by number. -/
def equals : Value → Value → Bool
  | .string a, .string b => a == b
  | .list a, .list b => a == b
  | a, b => a.asNumber == b.asNumber

/-- Whether a value is a string. -/
def isString : Value → Bool
  | .string _ => true
  | _ => false

end Value

/-- Applies an operator to two values. A plus sign joins texts if either side is one. -/
def applyBinOp (op : BinOp) (l r : Value) : Except Fault Value :=
  match op with
  | .add =>
      if l.isString || r.isString then .ok (.string (l.asString ++ r.asString))
      else Arith.add.apply (.ofValue l) (.ofValue r)
  | .subtract => Arith.subtract.apply (.ofValue l) (.ofValue r)
  | .multiply => Arith.multiply.apply (.ofValue l) (.ofValue r)
  | .divide => Arith.divide.apply (.ofValue l) (.ofValue r)
  | .equal => .ok (.boolean (l.equals r))
  | .notEqual => .ok (.boolean (!l.equals r))
  | .lessThan => .ok (.boolean (decide (l.asNumber < r.asNumber)))
  | .greaterThan => .ok (.boolean (decide (l.asNumber > r.asNumber)))
  | .lessEqual => .ok (.boolean (decide (l.asNumber ≤ r.asNumber)))
  | .greaterEqual => .ok (.boolean (decide (l.asNumber ≥ r.asNumber)))
  | .and => .ok (.boolean (l.asBool && r.asBool))
  | .or => .ok (.boolean (l.asBool || r.asBool))

end Chord
