import Chord.Json.Write
import Chord.Value.Basic

/-!
# Values and JSON

**Input.** Values and sound JSON trees.

**Results.** `Value.toJson` and `Json.toValue`. Lists of scripts hold strings only, so the items of
an array become their texts; objects have no counterpart and become their JSON text.
-/

namespace Chord

/-- A value as JSON; floats that are not finite are null. -/
def Value.toJson : Value → Json
  | .null => .null
  | .boolean b => .boolean b
  | .integer n => .int n.toInt
  | .float x =>
      match Decimal.parts x with
      | .finite _ _ _ => .number (some (.float x))
      | _ => .null
  | .string s => .text s
  | .list items => .array (items.map .text)

/-- The JSON text of a value. -/
def Value.jsonText (v : Value) : String :=
  v.toJson.render

namespace Json

/-- A number as a value. -/
def Number.toValue : Number → Value
  | .integer n =>
      match int64? n with
      | some k => .integer k
      | none => .float (Float.ofInt n)
  | .float x => .float x

mutual

/-- JSON as a value. -/
def toValue : Json → Value
  | .null => .null
  | .boolean b => .boolean b
  | .number n => (n.map Number.toValue).getD .null
  | .string s => (s.map .string).getD .null
  | .array items => .list (itemTexts items)
  | .object fields => .string (render (.object fields))

/-- The texts of the items of an array. -/
def itemTexts : List Json → List String
  | [] => []
  | j :: js => j.toValue.asString :: itemTexts js

end

end Json

end Chord
