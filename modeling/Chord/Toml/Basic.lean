/-!
# TOML

**Input.** Nothing.

**Results.** `Toml` is the tree of a TOML value, and a `Node` is a tree under construction: tables
can be filled piece by piece, under headers and by dotted keys, but each only in one of these ways.
`assignAt`, `openTable` and `openItem` are the three ways to go on, and each fails where something
would be defined twice.
-/

namespace Chord

/-- The value of a key. Numbers with a fraction and points in time are only told apart. -/
inductive Toml where
  | string (s : String)
  | integer (n : Int)
  | float
  | boolean (b : Bool)
  | datetime
  | array (items : List Toml)
  | table (fields : List (String × Toml))
deriving Inhabited, Repr

namespace Toml

/-- How a table came about. -/
inductive Origin where
  /-- By a header, or as the whole document. -/
  | header
  /-- As a part of the name of another header. -/
  | implied
  /-- By dotted keys. -/
  | dotted
deriving DecidableEq, Repr

/-- A tree under construction. -/
inductive Node where
  | value (v : Toml)
  | table (origin : Origin) (fields : List (String × Node))
  /-- An array of tables, which grows by headers in double brackets. -/
  | tables (items : List (List (String × Node)))
deriving Inhabited, Repr

/-- The fields of a table under construction. -/
abbrev Fields : Type := List (String × Node)

/-- Changes the value of a field, or adds the field. -/
def setField (key : String) (node : Node) : Fields → Fields
  | [] => [(key, node)]
  | (k, n) :: rest => if k == key then (k, node) :: rest else (k, n) :: setField key node rest

/-- Changes the table at the end of a path, with tables on the way made as needed. Dotted keys must
not enter a table that has a header. -/
def descend (byDots : Bool) (change : Origin → Fields → Option Fields) :
    List String → Origin → Fields → Option Fields
  | [], origin, fields => change origin fields
  | key :: path, _, fields =>
      match fields.lookup key with
      | none => do
          let origin := if byDots then Origin.dotted else .implied
          let inner ← descend byDots change path origin []
          return setField key (.table origin inner) fields
      | some (.value _) => none
      | some (.tables items) =>
          match items.reverse with
          | [] => none
          | last :: before => do
              let inner ← descend byDots change path .header last
              return setField key (.tables (inner :: before).reverse) fields
      | some (.table origin inner) =>
          if byDots && origin == .header then none
          else do
            let inner ← descend byDots change path origin inner
            return setField key (.table origin inner) fields

/-- Adds a field that must be new. -/
def addField (key : String) (node : Node) (fields : Fields) : Option Fields :=
  if (fields.lookup key).isSome then none else some (fields ++ [(key, node)])

/-- Assigns a value to a key, which may be dotted. -/
def assign (path : List String) (key : String) (v : Toml) (fields : Fields) : Option Fields :=
  descend true
    (fun origin fields =>
      if (origin == .dotted) == path.isEmpty then none else addField key (.value v) fields)
    path .header fields

/-- Assigns a value to a key of the table at the end of a path. -/
def assignAt (current path : List String) (key : String) (v : Toml) (fields : Fields) :
    Option Fields :=
  descend false (fun _ fields => assign path key v fields) current .header fields

/-- Opens the table of a header. Its name must be new or only implied. -/
def openTable (path : List String) (key : String) (fields : Fields) : Option Fields :=
  descend false
    (fun _ fields =>
      match fields.lookup key with
      | none => some (setField key (.table .header []) fields)
      | some (.table .implied inner) => some (setField key (.table .header inner) fields)
      | some _ => none)
    path .header fields

/-- Opens a further table in the array of tables with a name. -/
def openItem (path : List String) (key : String) (fields : Fields) : Option Fields :=
  descend false
    (fun _ fields =>
      match fields.lookup key with
      | none => some (setField key (.tables [[]]) fields)
      | some (.tables items) => some (setField key (.tables (items ++ [[]])) fields)
      | some _ => none)
    path .header fields

mutual

/-- The finished tree. -/
def Node.toToml : Node → Toml
  | .value v => v
  | .table _ fields => .table (fieldsToToml fields)
  | .tables items => .array (itemsToToml items)

/-- The finished fields. -/
def fieldsToToml : List (String × Node) → List (String × Toml)
  | [] => []
  | (k, n) :: rest => (k, n.toToml) :: fieldsToToml rest

/-- The finished tables of an array. -/
def itemsToToml : List (List (String × Node)) → List Toml
  | [] => []
  | fields :: rest => .table (fieldsToToml fields) :: itemsToToml rest

end

end Toml

end Chord
