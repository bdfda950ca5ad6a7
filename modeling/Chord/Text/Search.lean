/-!
# Finding and replacing

Plain search of one text in another.

**Input.** Texts as lists of characters, and strings.

**Results.** `holds` tells whether a text occurs in another, `swap` replaces the occurrences found
from left to right without overlap.
-/

namespace Chord
namespace Text

/-- Whether `needle` occurs in the text. The empty text occurs everywhere. -/
def holds (needle : List Char) : List Char → Bool
  | [] => needle.isEmpty
  | c :: cs => needle.isPrefixOf (c :: cs) || holds needle cs

/-- Replaces occurrences of `needle`. The first `covered` characters belong to an occurrence that
has been replaced already. -/
def swapFrom (needle replacement : List Char) : Nat → List Char → List Char
  | _, [] => []
  | covered + 1, _ :: cs => swapFrom needle replacement covered cs
  | 0, c :: cs =>
      if needle.isPrefixOf (c :: cs) then
        replacement ++ swapFrom needle replacement (needle.length - 1) cs
      else c :: swapFrom needle replacement 0 cs

/-- Replaces every occurrence of `needle`, which must not be empty, from left to right. -/
def swap (needle replacement text : List Char) : List Char :=
  swapFrom needle replacement 0 text

/-- `holds` on strings. -/
def contains (text needle : String) : Bool :=
  holds needle.toList text.toList

/-- `swap` on strings; an empty search text changes nothing. -/
def replaced (text needle replacement : String) : String :=
  if needle.isEmpty then text
  else String.ofList (swap needle.toList replacement.toList text.toList)

end Text
end Chord
