import Chord.Text.Case
import Chord.Text.ShownTable

/-!
# Quoted text

How a text is shown inside double quotes so that every character can be told from its neighbours.

**Input.** Strings.

**Results.** `quoted` escapes the quote, the backslash and the usual controls by a letter, and every
other character that would not be seen by its number in braces.
-/

namespace Chord
namespace Text

/-- Digits of `n` in base sixteen, small letters, no padding. -/
def hex (n : Nat) : List Char :=
  Nat.toDigits 16 n

/-- Whether a character can stand for itself. -/
def isShown (c : Char) : Bool :=
  let n := c.toNat
  if n < 0x7F then 0x20 ≤ n else !inRanges n hiddenRanges

/-- One character of a quoted text. -/
def quotedChar (c : Char) : List Char :=
  if c == '\x00' then ['\\', '0']
  else if c == '\t' then ['\\', 't']
  else if c == '\n' then ['\\', 'n']
  else if c == '\r' then ['\\', 'r']
  else if c == '"' then ['\\', '"']
  else if c == '\\' then ['\\', '\\']
  else if isShown c then [c]
  else ['\\', 'u', '\x7b'] ++ hex c.toNat ++ ['\x7d']

/-- A text between double quotes, escaped. -/
def quoted (s : String) : String :=
  String.ofList ('"' :: s.toList.flatMap quotedChar ++ ['"'])

end Text
end Chord
