import Chord.Text.CaseTable

/-!
# Capital and small letters

Full case mapping: a letter may become several characters, and a capital sigma at the end of a word
becomes the final small sigma.

**Input.** Characters and texts as lists of characters.

**Results.** `upperChar` and `lowerChar` map one character, `upper` and `lower` a text.
`asciiLower` leaves all but the ASCII letters alone.
-/

namespace Chord
namespace Text

/-- Membership of a code point in a list of closed ranges. -/
def inRanges (n : Nat) : List (Nat × Nat) → Bool
  | [] => false
  | (first, last) :: rest => (first ≤ n && n ≤ last) || inRanges n rest

/-- The code point that a list of runs assigns to `n`. -/
def findRun (n : Nat) : List CaseRun → Option Nat
  | [] => none
  | run :: rest =>
      if run.first ≤ n && n ≤ run.last && (n - run.first) % run.step == 0 then
        some ((n : Int) + run.shift).toNat
      else findRun n rest

/-- The image of a character under runs and expansions; a character in neither is kept. -/
def mapChar (runs : List CaseRun) (expansions : List (Nat × List Nat)) (c : Char) : List Char :=
  match findRun c.toNat runs with
  | some n => [Char.ofNat n]
  | none =>
      match expansions.lookup c.toNat with
      | some ns => ns.map Char.ofNat
      | none => [c]

/-- The capital form of a character. -/
def upperChar (c : Char) : List Char :=
  if c.toNat < 0x80 then [c.toUpper] else mapChar upperRuns upperExpansions c

/-- The small form of a character that stands alone. -/
def lowerChar (c : Char) : List Char :=
  if c.toNat < 0x80 then [c.toLower] else mapChar lowerRuns lowerExpansions c

/-- The capital form of a text. -/
def upper (cs : List Char) : List Char :=
  cs.flatMap upperChar

/-- Whether the first character that is not passed over has a case. -/
def startsCased (cs : List Char) : Bool :=
  match cs.dropWhile fun c => inRanges c.toNat caseIgnorableRanges with
  | [] => false
  | c :: _ => inRanges c.toNat casedRanges

/-- The small form of a text whose preceding characters are `before`, nearest first. -/
def lowerAfter (before : List Char) : List Char → List Char
  | [] => []
  | c :: cs =>
      let small :=
        if c == 'Σ' then
          [if startsCased before && !startsCased cs then 'ς' else 'σ']
        else lowerChar c
      small ++ lowerAfter (c :: before) cs

/-- The small form of a text. A capital sigma that ends a word becomes the final sigma. -/
def lower (cs : List Char) : List Char :=
  lowerAfter [] cs

/-- The capital form of a string. -/
def uppercase (s : String) : String :=
  String.ofList (upper s.toList)

/-- The small form of a string. -/
def lowercase (s : String) : String :=
  String.ofList (lower s.toList)

/-- The ASCII capitals of a string become small; all else stays. -/
def asciiLower (s : String) : String :=
  String.ofList (s.toList.map Char.toLower)

end Text
end Chord
