import Chord.Decimal.Layout
import Chord.Decimal.Read
import Chord.Text.Blank

/-!
# Values

What scripts calculate with. Every value can be read as a boolean, as a number and as a string.

**Input.** Values and floats.

**Results.** The conversions `asBool`, `asNumber` and `asString`, and `ofNumber`, which makes whole
numbers integers.
-/

namespace Chord

/-- The values of scripts. -/
inductive Value where
  | null
  | boolean (b : Bool)
  | integer (n : Int64)
  | float (x : Float)
  | string (s : String)
  /-- A list of strings, such as window titles. -/
  | list (items : List String)
deriving DecidableEq, Repr, Inhabited

/-- The 64-bit integer equal to an integer, if it is in range. -/
def int64? (n : Int) : Option Int64 :=
  if -0x8000000000000000 ≤ n && n < 0x8000000000000000 then some (Int64.ofInt n) else none

namespace Value

/-- A number from a literal: an integer if it is whole and in range. -/
def ofNumber (x : Float) : Value :=
  match (Decimal.whole? x).bind int64? with
  | some n => .integer n
  | none => .float x

/-- Null, zero, the empty string and the empty list are false. -/
def asBool : Value → Bool
  | .null => false
  | .boolean b => b
  | .integer n => n != 0
  | .float x => x != Float.ofNat 0
  | .string s => !s.isEmpty
  | .list items => !items.isEmpty

/-- The number that a text denotes, blanks around it ignored, and zero if it denotes none. -/
def numberOfText (s : String) : Float :=
  (Decimal.read? (Text.trim s.toList)).getD (Float.ofNat 0)

/-- A value as a float. -/
def asNumber : Value → Float
  | .null => Float.ofNat 0
  | .boolean b => if b then Float.ofNat 1 else Float.ofNat 0
  | .integer n => Float.ofInt n.toInt
  | .float x => x
  | .string s => numberOfText s
  | .list _ => Float.ofNat 0

/-- A value as text. -/
def asString : Value → String
  | .null => "null"
  | .boolean b => if b then "true" else "false"
  | .integer n => toString n.toInt
  | .float x => Decimal.text x
  | .string s => s
  | .list items => "[" ++ ", ".intercalate items ++ "]"

/-- The name of the type of a value. -/
def typeName : Value → String
  | .null => "null"
  | .boolean _ => "boolean"
  | .integer _ => "integer"
  | .float _ => "float"
  | .string _ => "string"
  | .list _ => "list"

/-- Whether a value is null. -/
def isNull : Value → Bool
  | .null => true
  | _ => false

end Value

end Chord
