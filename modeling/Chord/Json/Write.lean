import Chord.Decimal.Layout
import Chord.Json.Basic
import Chord.Table

/-!
# Writing JSON

**Input.** JSON trees.

**Results.** `Json.render` writes a tree without blanks, fields by ascending name and of repeated
names only the last. `Json.pretty` writes one field or item a line, in the order given.
-/

namespace Chord
namespace Json

/-- A character inside a JSON string. -/
def escaped (c : Char) : List Char :=
  if c == '"' then ['\\', '"']
  else if c == '\\' then ['\\', '\\']
  else if c == '\x08' then ['\\', 'b']
  else if c == '\t' then ['\\', 't']
  else if c == '\n' then ['\\', 'n']
  else if c == '\x0c' then ['\\', 'f']
  else if c == '\r' then ['\\', 'r']
  else if c.toNat < 0x20 then
    ['\\', 'u', '0', '0', Nat.digitChar (c.toNat / 16), Nat.digitChar (c.toNat % 16)]
  else [c]

/-- A string in quotes. -/
def quote (s : String) : String :=
  String.ofList ('"' :: s.toList.flatMap escaped ++ ['"'])

/-- The text of a number; one that denotes nothing is null. -/
def numberText : Option Number → String
  | some (.integer n) => toString n
  | some (.float x) => Decimal.json.render x
  | none => "null"

/-- The text of a string; one that denotes nothing is null. -/
def stringText : Option String → String
  | some s => quote s
  | none => "null"

/-- Fields by ascending name; of repeated names the last one stays. -/
def sortFields (fields : List (String × String)) : List (String × String) :=
  (fields.foldl (fun t f => t.insert f.1 f.2) (Table.empty : Table String)).entries

mutual

/-- A tree without blanks. -/
def render : Json → String
  | .null => "null"
  | .boolean b => if b then "true" else "false"
  | .number n => numberText n
  | .string s => stringText s
  | .array items => "[" ++ ",".intercalate (renderAll items) ++ "]"
  | .object fields =>
      "\x7b" ++ ",".intercalate
        ((sortFields (renderFields fields)).map fun f => quote f.1 ++ ":" ++ f.2) ++ "\x7d"

/-- The texts of items. -/
def renderAll : List Json → List String
  | [] => []
  | j :: js => j.render :: renderAll js

/-- The texts of the values of fields. -/
def renderFields : List (String × Json) → List (String × String)
  | [] => []
  | (k, j) :: fs => (k, j.render) :: renderFields fs

end

/-- Two spaces for each level. -/
def indent (depth : Nat) : String :=
  String.ofList (List.replicate (2 * depth) ' ')

/-- Lines between brackets, one level deeper than `depth`. -/
def lines (left right : String) (depth : Nat) (items : List String) : String :=
  if items.isEmpty then left ++ right
  else
    left ++ "\n" ++ ",\n".intercalate (items.map (indent (depth + 1) ++ ·))
      ++ "\n" ++ indent depth ++ right

mutual

/-- A tree with a line for each item and field. -/
def prettyAt (depth : Nat) : Json → String
  | .null => "null"
  | .boolean b => if b then "true" else "false"
  | .number n => numberText n
  | .string s => stringText s
  | .array items => lines "[" "]" depth (prettyAll (depth + 1) items)
  | .object fields => lines "\x7b" "\x7d" depth (prettyFields (depth + 1) fields)

/-- The texts of items. -/
def prettyAll (depth : Nat) : List Json → List String
  | [] => []
  | j :: js => j.prettyAt depth :: prettyAll depth js

/-- The texts of fields. -/
def prettyFields (depth : Nat) : List (String × Json) → List String
  | [] => []
  | (k, j) :: fs => (quote k ++ ": " ++ j.prettyAt depth) :: prettyFields depth fs

end

/-- A tree with a line for each item and field. -/
def pretty (j : Json) : String :=
  j.prettyAt 0

end Json
end Chord
