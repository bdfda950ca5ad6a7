import Chord.Json.Read
import Chord.Json.Write

/-!
# Bundles

A script whose bindings have all been compiled, with the list of these bindings, as a file.

**Input.** Bundles and texts.

**Results.** `Bundle.text` writes a bundle as JSON and `Bundle.ofText?` reads one. A bundle and its
bindings may be written as objects, with further fields that are ignored, or as arrays of their
fields in order.
-/

namespace Chord

/-- A binding of a bundle. -/
structure BundleEntry where
  /-- The hotkey as it was written. -/
  hotkey : String
  /-- The canonical hotkey. -/
  normalized : String
  line : Nat
deriving DecidableEq, Repr

/-- A script with its compiled bindings. -/
structure Bundle where
  format : String
  version : Nat
  bindings : List BundleEntry
  source : String
deriving DecidableEq, Repr

namespace Bundle

/-- The format of every bundle. -/
def currentFormat : String := "hotkey-bundle"

/-- The version of every bundle. -/
def currentVersion : Nat := 1

end Bundle

/-! ## Writing -/

/-- A binding as JSON. -/
def BundleEntry.toJson (e : BundleEntry) : Json :=
  .object [("hotkey", .text e.hotkey), ("normalized", .text e.normalized), ("line", .int e.line)]

/-- A bundle as JSON. -/
def Bundle.toJson (b : Bundle) : Json :=
  .object [
    ("format", .text b.format),
    ("version", .int b.version),
    ("bindings", .array (b.bindings.map BundleEntry.toJson)),
    ("source", .text b.source)]

/-- The text of a bundle file. -/
def Bundle.text (b : Bundle) : String :=
  b.toJson.pretty

/-! ## Reading -/

namespace Json

/-- The string that a tree denotes. -/
def string? : Json → Option String
  | .string s => s
  | _ => none

/-- The integer from zero to below a bound that a tree denotes. -/
def natBelow? (bound : Nat) : Json → Option Nat
  | .number (some (.integer n)) => if 0 ≤ n && n < bound then some n.toNat else none
  | _ => none

/-- The trees of named fields: from an object where each name stands exactly once, or from an array
with one item for each name. -/
def fields? (names : List String) : Json → Option (List Json)
  | .object fields =>
      names.mapM fun name =>
        match fields.filter (·.1 == name) with
        | [(_, value)] => some value
        | _ => none
  | .array items => if items.length == names.length then some items else none
  | _ => none

end Json

/-- Reads a binding. -/
def BundleEntry.ofJson? (j : Json) : Option BundleEntry := do
  match ← j.fields? ["hotkey", "normalized", "line"] with
  | [hotkey, normalized, line] =>
      return ⟨← hotkey.string?, ← normalized.string?, ← line.natBelow? 0x10000000000000000⟩
  | _ => none

/-- Reads the bindings of a bundle. -/
def BundleEntry.listOfJson? : Json → Option (List BundleEntry)
  | .array items => items.mapM BundleEntry.ofJson?
  | _ => none

/-- Reads a bundle. -/
def Bundle.ofJson? (j : Json) : Option Bundle := do
  match ← j.fields? ["format", "version", "bindings", "source"] with
  | [format, version, bindings, source] =>
      return {
        format := ← format.string?
        version := ← version.natBelow? 0x100000000
        bindings := ← BundleEntry.listOfJson? bindings
        source := ← source.string? }
  | _ => none

/-- Reads the text of a bundle file. -/
def Bundle.ofText? (text : String) : Option Bundle :=
  (Json.parse? text).bind Bundle.ofJson?

end Chord
