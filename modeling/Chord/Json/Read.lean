import Chord.Decimal.Read
import Chord.Json.Basic

/-!
# Reading JSON

**Input.** Characters.

**Algorithm.** Recursive descent; the depth is bounded by the number of characters. The digits of a
number are collected in 64 bits as long as they fit and the rest only counts; the float is the
collected number times or over a power of ten, so it may be off by a rounding.

**Results.** `Json.parse?` gives the tree of a text that is well-formed JSON from end to end, and
`Json.read?` only a sound one.
-/

namespace Chord
namespace Json

/-! ## Numbers -/

/-- The value of digits that follow a number, as long as it fits in 64 bits, and the digits left. -/
def collect (n : Nat) : List Char → Nat × List Char
  | [] => (n, [])
  | d :: ds =>
      let next := 10 * n + (d.toNat - '0'.toNat)
      if next < 0x10000000000000000 then collect next ds else (n, d :: ds)

/-- `x * 10 ^ e` for powers of ten in the range of floats; further down, step by step. -/
def scaled : Nat → Float → Int → Option Float
  | 0, x, _ => some x
  | fuel + 1, x, e =>
      if e.natAbs ≤ 308 then
        if 0 ≤ e then
          let y := x * Decimal.nearest 1 e
          if y == Decimal.infinity then none else some y
        else some (x / Decimal.nearest 1 (-e))
      else if x == Float.ofNat 0 then some x
      else if 0 ≤ e then none
      else scaled fuel (x / Decimal.nearest 1 308) (e + 308)

/-- The pieces of a number: sign, whole digits, fraction and exponent. -/
structure Pieces where
  negative : Bool
  whole : List Char
  fraction : Option (List Char)
  exponent : Option (Bool × List Char)

/-- The number that pieces denote, unless it is out of range. A whole number that fits in 64 bits is
an integer, but minus zero is a float. -/
def Pieces.value? (p : Pieces) : Option Number :=
  let (n, left) := collect 0 p.whole
  let signed (x : Float) : Number := .float (if p.negative then -x else x)
  if left.isEmpty && p.fraction.isNone && p.exponent.isNone then
    if !p.negative then some (.integer n)
    else if 0 < n && n ≤ 0x8000000000000000 then some (.integer (-n))
    else some (signed (Float.ofNat n))
  else
    let digits := p.fraction.getD []
    let (n, unread) := collect n digits
    let e : Int := left.length - (digits.length - unread.length : Nat)
    match p.exponent with
    | none => (scaled 4 (Float.ofNat n) e).map signed
    | some (negative, ds) =>
        let power := Decimal.digitsValue ds
        if 0x80000000 ≤ power then
          if n != 0 && !negative then none else some (signed (Float.ofNat 0))
        else
          let power : Int := if negative then -(power : Int) else power
          (scaled 4 (Float.ofNat n) (e + power)).map signed

/-- The digits in front and what follows them. -/
def splitDigits (cs : List Char) : List Char × List Char :=
  (cs.takeWhile Char.isDigit, cs.dropWhile Char.isDigit)

/-- The exponent of a number, if there is one. -/
def exponentPart : List Char → Option (Option (Bool × List Char) × List Char)
  | [] => some (none, [])
  | c :: cs =>
      if c == 'e' || c == 'E' then
        let (negative, cs) := Decimal.splitSign cs
        let (digits, rest) := splitDigits cs
        if digits.isEmpty then none else some (some (negative, digits), rest)
      else some (none, c :: cs)

/-- A number after its sign. A leading zero stands alone. -/
def unsignedNumber (negative : Bool) (cs : List Char) : Option (Json × List Char) := do
  let (whole, rest) := splitDigits cs
  match whole with
  | [] => none
  | d :: more =>
      if d == '0' && !more.isEmpty then none
      else
        let (fraction, rest) ←
          match rest with
          | '.' :: cs =>
              let (digits, rest) := splitDigits cs
              if digits.isEmpty then none else some (some digits, rest)
          | cs => some (none, cs)
        let (exponent, rest) ← exponentPart rest
        return (.number (Pieces.value? ⟨negative, whole, fraction, exponent⟩), rest)

/-! ## Strings -/

/-- The value of a digit in base sixteen. -/
def hexDigit? (c : Char) : Option Nat :=
  if c.isDigit then some (c.toNat - '0'.toNat)
  else if 'a' ≤ c && c ≤ 'f' then some (c.toNat - 'a'.toNat + 10)
  else if 'A' ≤ c && c ≤ 'F' then some (c.toNat - 'A'.toNat + 10)
  else none

/-- The value of four digits in base sixteen. -/
def hexFour? : List Char → Option (Nat × List Char)
  | a :: b :: c :: d :: rest => do
      let a ← hexDigit? a
      let b ← hexDigit? b
      let c ← hexDigit? c
      let d ← hexDigit? d
      return (((a * 16 + b) * 16 + c) * 16 + d, rest)
  | _ => none

/-- The second half of a surrogate pair. -/
def lowSurrogate? : List Char → Option (Nat × List Char)
  | '\\' :: 'u' :: cs => do
      let (n, rest) ← hexFour? cs
      if 0xDC00 ≤ n && n ≤ 0xDFFF then some (n, rest) else none
  | _ => none

/-- The character that an escape of one letter stands for. -/
def shortEscape? : Char → Option Char
  | '"' => some '"'
  | '\\' => some '\\'
  | '/' => some '/'
  | 'b' => some '\x08'
  | 'f' => some '\x0c'
  | 'n' => some '\n'
  | 'r' => some '\r'
  | 't' => some '\t'
  | _ => none

/-- A string after its opening quote; `acc` holds its characters so far, last first, as long as it
denotes something. -/
def stringRest : Nat → Option (List Char) → List Char → Option (Option String × List Char)
  | 0, _, _ => none
  | _, _, [] => none
  | fuel + 1, acc, c :: cs =>
      if c == '"' then some (acc.map fun acc => String.ofList acc.reverse, cs)
      else if c.toNat < 0x20 then none
      else if c != '\\' then stringRest fuel (acc.map (c :: ·)) cs
      else
        match cs with
        | 'u' :: cs =>
            match hexFour? cs with
            | none => none
            | some (n, rest) =>
                if 0xD800 ≤ n && n ≤ 0xDBFF then
                  match lowSurrogate? rest with
                  | some (low, rest) =>
                      let n := 0x10000 + (n - 0xD800) * 0x400 + (low - 0xDC00)
                      stringRest fuel (acc.map (Char.ofNat n :: ·)) rest
                  | none => stringRest fuel none rest
                else if 0xDC00 ≤ n && n ≤ 0xDFFF then stringRest fuel none rest
                else stringRest fuel (acc.map (Char.ofNat n :: ·)) rest
        | e :: cs =>
            match shortEscape? e with
            | some c => stringRest fuel (acc.map (c :: ·)) cs
            | none => none
        | [] => none

/-! ## Values -/

/-- What follows the blanks of JSON in front. -/
def skipBlanks (cs : List Char) : List Char :=
  cs.dropWhile fun c => c == ' ' || c == '\n' || c == '\t' || c == '\r'

/-- What follows a word in front. -/
def afterWord? (word : List Char) (cs : List Char) : Option (List Char) :=
  if word.isPrefixOf cs then some (cs.drop word.length) else none

mutual

/-- A value with blanks before it. -/
def valueFrom : Nat → List Char → Option (Json × List Char)
  | 0, _ => none
  | fuel + 1, cs =>
      match skipBlanks cs with
      | [] => none
      | c :: rest =>
          if c == '"' then do
            let (s, rest) ← stringRest (rest.length + 1) (some []) rest
            return (.string s, rest)
          else if c == '-' then unsignedNumber true rest
          else if c.isDigit then unsignedNumber false (c :: rest)
          else if c == '[' then
            match skipBlanks rest with
            | ']' :: rest => some (.array [], rest)
            | rest => do
                let (items, rest) ← itemsFrom fuel rest
                return (.array items, rest)
          else if c == '\x7b' then
            match skipBlanks rest with
            | '\x7d' :: rest => some (.object [], rest)
            | rest => do
                let (fields, rest) ← fieldsFrom fuel rest
                return (.object fields, rest)
          else if c == 'n' then do
            let rest ← afterWord? ['u', 'l', 'l'] rest
            return (.null, rest)
          else if c == 't' then do
            let rest ← afterWord? ['r', 'u', 'e'] rest
            return (.boolean true, rest)
          else if c == 'f' then do
            let rest ← afterWord? ['a', 'l', 's', 'e'] rest
            return (.boolean false, rest)
          else none

/-- The items of an array up to its closing bracket. -/
def itemsFrom : Nat → List Char → Option (List Json × List Char)
  | 0, _ => none
  | fuel + 1, cs => do
      let (item, rest) ← valueFrom fuel cs
      match skipBlanks rest with
      | ',' :: rest => do
          let (items, rest) ← itemsFrom fuel rest
          return (item :: items, rest)
      | ']' :: rest => some ([item], rest)
      | _ => none

/-- The fields of an object up to its closing brace. -/
def fieldsFrom : Nat → List Char → Option (List (String × Json) × List Char)
  | 0, _ => none
  | fuel + 1, cs =>
      match skipBlanks cs with
      | '"' :: rest => do
          let (key, rest) ← stringRest (rest.length + 1) (some []) rest
          let key ← key
          match skipBlanks rest with
          | ':' :: rest => do
              let (value, rest) ← valueFrom fuel rest
              match skipBlanks rest with
              | ',' :: rest => do
                  let (fields, rest) ← fieldsFrom fuel rest
                  return ((key, value) :: fields, rest)
              | '\x7d' :: rest => some ([(key, value)], rest)
              | _ => none
          | _ => none
      | _ => none

end

/-- The tree of a text that is JSON from end to end. -/
def parse? (text : String) : Option Json :=
  let cs := text.toList
  match valueFrom (2 * cs.length + 1) cs with
  | some (j, rest) => if (skipBlanks rest).isEmpty then some j else none
  | none => none

/-- The tree of a text that is JSON from end to end and denotes something. -/
def read? (text : String) : Option Json :=
  (parse? text).bind fun j => if j.isSound then some j else none

end Json
end Chord
