/-!
# Blank and control characters

The two character classes that scripts are sensitive to, and what is built on them.

**Input.** Characters and texts as lists of characters.

**Results.** `isBlank` is the Unicode property White_Space and `isControl` the category Cc. `trim`
takes blanks off both ends. `words` splits a text into its maximal runs without blanks, and
`tidy` joins the words of the visible part of a text with single spaces.
-/

namespace Chord
namespace Text

/-- White space in the sense of the Unicode property White_Space. -/
def isBlank (c : Char) : Bool :=
  let n := c.toNat
  (0x09 ≤ n && n ≤ 0x0D) || n == 0x20 || n == 0x85 || n == 0xA0 || n == 0x1680
    || (0x2000 ≤ n && n ≤ 0x200A) || n == 0x2028 || n == 0x2029 || n == 0x202F
    || n == 0x205F || n == 0x3000

/-- Control characters: the two blocks U+0000 to U+001F and U+007F to U+009F. -/
def isControl (c : Char) : Bool :=
  let n := c.toNat
  n ≤ 0x1F || (0x7F ≤ n && n ≤ 0x9F)

/-- A text without the blanks at its end. -/
def trimEnd (cs : List Char) : List Char :=
  (cs.reverse.dropWhile isBlank).reverse

/-- A text without the blanks at its two ends. -/
def trim (cs : List Char) : List Char :=
  trimEnd (cs.dropWhile isBlank)

/-- The words of a text that follow an unfinished word. -/
def wordsAfter : List Char → List Char → List (List Char)
  | word, [] => if word.isEmpty then [] else [word]
  | word, c :: cs =>
      if isBlank c then
        if word.isEmpty then wordsAfter [] cs else word :: wordsAfter [] cs
      else wordsAfter (word ++ [c]) cs

/-- The maximal runs of characters that are not blank, in order. -/
def words (cs : List Char) : List (List Char) :=
  wordsAfter [] cs

/-- The characters of a text that are blank or can be seen. -/
def visible (cs : List Char) : List Char :=
  cs.filter fun c => isBlank c || !isControl c

/-- Runs of blanks become one space each. -/
def collapse : List Char → List Char
  | [] => []
  | c :: cs =>
      if isBlank c then
        match cs with
        | [] => [' ']
        | d :: _ => if isBlank d then collapse cs else ' ' :: collapse cs
      else c :: collapse cs

/-- A text without control characters, with single spaces between its words and none around it. -/
def tidy (cs : List Char) : List Char :=
  trim (collapse (visible cs))

/-- `trim` on strings. -/
def trimmed (s : String) : String :=
  String.ofList (trim s.toList)

/-- `tidy` on strings. -/
def sanitize (s : String) : String :=
  String.ofList (tidy s.toList)

end Text
end Chord
