/-!
# Writing TOML

**Input.** Strings and lists of strings.

**Algorithm.** Of the four kinds of quotes the plainest one that needs no escapes is taken. A string
that needs escapes stands in double quotes, which are tripled if it has several lines.

**Results.** `stringText` and `listText`.
-/

namespace Chord
namespace Toml

/-- Control characters other than a newline. A tab is one of them. -/
def isHidden (c : Char) : Bool :=
  c != '\n' && (c.toNat < 0x20 || c.toNat == 0x7F)

/-- Whether the same character stands three times in a row. -/
def tripled (c : Char) : List Char → Bool
  | x :: y :: z :: cs => (x == c && y == c && z == c) || tripled c (y :: z :: cs)
  | _ => false

/-- The kinds of quotes around a string. -/
inductive Quotes where
  /-- Double quotes, in which escapes are read. -/
  | basic
  /-- Single quotes, in which a backslash stands for itself. -/
  | literal
  /-- Three double quotes, in which lines may end. -/
  | basicLines
  /-- Three single quotes, in which lines may end. -/
  | literalLines
deriving DecidableEq, Repr

namespace Quotes

/-- The quotes for a string. -/
def choose (cs : List Char) : Quotes :=
  if cs.contains '\n' then
    if cs.any isHidden then .basicLines
    else if !cs.contains '\\' && !tripled '"' cs then .basicLines
    else if !tripled '\'' cs then .literalLines
    else .basicLines
  else if cs.any isHidden then .basic
  else if !cs.contains '\\' && !cs.contains '"' then .basic
  else if !cs.contains '\'' then .literal
  else .basic

/-- What stands before and after the string. -/
def delimiters : Quotes → String × String
  | .basic => ("\"", "\"")
  | .literal => ("'", "'")
  | .basicLines => ("\"\"\"\n", "\"\"\"")
  | .literalLines => ("'''\n", "'''")

end Quotes

/-- A digit in base sixteen, in capitals. -/
def hexDigit (n : Nat) : Char :=
  if n < 10 then Char.ofNat (48 + n) else Char.ofNat (55 + n)

/-- A character by its number. -/
def codeEscape (c : Char) : List Char :=
  let n := c.toNat
  ['\\', 'u', hexDigit (n / 4096 % 16), hexDigit (n / 256 % 16), hexDigit (n / 16 % 16),
    hexDigit (n % 16)]

/-- A character other than a double quote, in double quotes. -/
def escapedChar (lines : Bool) (c : Char) : List Char :=
  if c == '\n' then if lines then ['\n'] else ['\\', 'n']
  else if c == '\x08' then ['\\', 'b']
  else if c == '\t' then ['\\', 't']
  else if c == '\x0c' then ['\\', 'f']
  else if c == '\r' then ['\\', 'r']
  else if c == '\\' then ['\\', '\\']
  else if isHidden c then codeEscape c
  else [c]

/-- A string in double quotes. Two quotes in a row may stand among lines; `row` counts those just
written. -/
def escapedFrom (lines : Bool) (row : Nat) : List Char → List Char
  | [] => []
  | c :: cs =>
      if c == '"' then
        if lines && row < 2 then '"' :: escapedFrom lines (row + 1) cs
        else '\\' :: '"' :: escapedFrom lines 0 cs
      else escapedChar lines c ++ escapedFrom lines 0 cs

/-- A string as a value. -/
def stringText (s : String) : String :=
  let quotes := Quotes.choose s.toList
  let inner :=
    match quotes with
    | .basic => String.ofList (escapedFrom false 0 s.toList)
    | .basicLines => String.ofList (escapedFrom true 0 s.toList)
    | .literal => s
    | .literalLines => s
  quotes.delimiters.1 ++ inner ++ quotes.delimiters.2

/-- A list of strings as a value; two or more stand on lines of their own. -/
def listText : List String → String
  | [] => "[]"
  | [item] => "[" ++ stringText item ++ "]"
  | items =>
      "[\n" ++ String.join (items.map fun item => "    " ++ stringText item ++ ",\n") ++ "]"

end Toml
end Chord
