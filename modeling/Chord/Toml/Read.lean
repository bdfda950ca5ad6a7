import Chord.Decimal.Read
import Chord.Json.Read
import Chord.Toml.Basic

/-!
# Reading TOML

**Input.** Characters.

**Algorithm.** A document is read line by line into a tree under construction. Values are read by
recursive descent. Arrays and tables in braces may be nested up to `maxNesting` levels, and a dotted
key may have as many parts.

**Results.** `Toml.read?` gives the fields of a document that is well formed and defines nothing
twice.
-/

namespace Chord
namespace Toml

/-! ## Characters -/

/-- Spaces and tabs. -/
def isGap (c : Char) : Bool :=
  c == ' ' || c == '\t'

/-- What follows spaces and tabs. -/
def skipGap (cs : List Char) : List Char :=
  cs.dropWhile isGap

/-- What follows the end of a line in front. -/
def afterNewline? : List Char → Option (List Char)
  | '\n' :: cs => some cs
  | '\r' :: '\n' :: cs => some cs
  | _ => none

/-- Characters of comments and of strings on one line, quotes and backslashes included. -/
def isPlain (c : Char) : Bool :=
  c == '\t' || (0x20 ≤ c.toNat && c.toNat != 0x7F)

/-- What follows a comment, if one is in front. It ends where its line ends. -/
def skipComment : List Char → List Char
  | '#' :: cs => cs.dropWhile isPlain
  | cs => cs

/-- What follows the end of a line with an optional comment before it. -/
def lineEnd? (cs : List Char) : Option (List Char) :=
  match skipComment (skipGap cs) with
  | [] => some []
  | rest => afterNewline? rest

/-- What follows blanks, comments and newlines. -/
def skipFiller : Nat → List Char → List Char
  | 0, cs => cs
  | fuel + 1, cs =>
      let rest := skipGap cs
      match afterNewline? rest with
      | some rest => skipFiller fuel rest
      | none =>
          match rest with
          | '#' :: _ => skipFiller fuel (skipComment rest)
          | _ => rest

/-! ## Strings -/

/-- The character with a code point given by digits in base sixteen. -/
def codePoint? (count : Nat) (cs : List Char) : Option (Char × List Char) := do
  let digits ← (cs.take count).mapM Json.hexDigit?
  if digits.length != count then none
  else
    let n := digits.foldl (fun n d => 16 * n + d) 0
    if n < 0xD800 || (0xE000 ≤ n && n < 0x110000) then some (Char.ofNat n, cs.drop count) else none

/-- What an escape after a backslash stands for. -/
def escape? : List Char → Option (Char × List Char)
  | 'b' :: cs => some ('\x08', cs)
  | 't' :: cs => some ('\t', cs)
  | 'n' :: cs => some ('\n', cs)
  | 'f' :: cs => some ('\x0c', cs)
  | 'r' :: cs => some ('\r', cs)
  | '"' :: cs => some ('"', cs)
  | '\\' :: cs => some ('\\', cs)
  | 'u' :: cs => codePoint? 4 cs
  | 'U' :: cs => codePoint? 8 cs
  | _ => none

/-- A string with escapes on one line, after its opening quote. -/
def basicRest : Nat → List Char → List Char → Option (String × List Char)
  | 0, _, _ => none
  | _, _, [] => none
  | fuel + 1, acc, c :: cs =>
      if c == '"' then some (String.ofList acc.reverse, cs)
      else if c == '\\' then do
        let (c, rest) ← escape? cs
        basicRest fuel (c :: acc) rest
      else if isPlain c then basicRest fuel (c :: acc) cs
      else none

/-- A string without escapes on one line, after its opening quote. -/
def literalRest (acc : List Char) : List Char → Option (String × List Char)
  | [] => none
  | c :: cs =>
      if c == '\'' then some (String.ofList acc.reverse, cs)
      else if isPlain c then literalRest (c :: acc) cs
      else none

/-- The number of quotes in front, five at most. -/
def quoteRun (quote : Char) (cs : List Char) : Nat :=
  ((cs.take 5).takeWhile (· == quote)).length

/-- What follows a newline in front, if one is there. -/
def dropNewline (cs : List Char) : List Char :=
  (afterNewline? cs).getD cs

/-- What follows a backslash at the end of a line: all blanks and newlines are passed over. -/
def lineContinuation? (cs : List Char) : Option (List Char) :=
  match afterNewline? (skipGap cs) with
  | some rest => some (blankLines rest.length rest)
  | none => none
where
  /-- What follows blanks and newlines. -/
  blankLines : Nat → List Char → List Char
    | 0, cs => cs
    | fuel + 1, cs =>
        match afterNewline? (skipGap cs) with
        | some rest => blankLines fuel rest
        | none => skipGap cs

/-- A string over several lines, after its opening quotes. Three quotes end it, and up to two more
directly before them belong to it. -/
def multilineRest (quote : Char) (escapes : Bool) :
    Nat → List Char → List Char → Option (String × List Char)
  | 0, _, _ => none
  | _, _, [] => none
  | fuel + 1, acc, c :: cs =>
      if c == quote then
        let run := quoteRun quote (c :: cs)
        if 3 ≤ run then
          some (String.ofList (List.replicate (run - 3) quote ++ acc).reverse, (c :: cs).drop run)
        else multilineRest quote escapes fuel (c :: acc) cs
      else if escapes && c == '\\' then
        match lineContinuation? cs with
        | some rest => multilineRest quote escapes fuel acc rest
        | none => do
            let (c, rest) ← escape? cs
            multilineRest quote escapes fuel (c :: acc) rest
      else if c == '\n' then multilineRest quote escapes fuel (c :: acc) cs
      else if c == '\r' then
        match cs with
        | '\n' :: cs => multilineRest quote escapes fuel ('\n' :: acc) cs
        | _ => none
      else if isPlain c then multilineRest quote escapes fuel (c :: acc) cs
      else none

/-- A string of any of the four kinds. -/
def string? (cs : List Char) : Option (String × List Char) :=
  match cs with
  | '"' :: '"' :: '"' :: rest =>
      multilineRest '"' true (rest.length + 1) [] (dropNewline rest)
  | '\'' :: '\'' :: '\'' :: rest =>
      multilineRest '\'' false (rest.length + 1) [] (dropNewline rest)
  | '"' :: rest => basicRest (rest.length + 1) [] rest
  | '\'' :: rest => literalRest [] rest
  | _ => none

/-! ## Keys -/

/-- Characters of keys without quotes. -/
def isKeyChar (c : Char) : Bool :=
  c.isAlphanum || c == '_' || c == '-'

/-- One part of a key. -/
def keyPart? (cs : List Char) : Option (String × List Char) :=
  match cs with
  | '"' :: rest => basicRest (rest.length + 1) [] rest
  | '\'' :: rest => literalRest [] rest
  | _ =>
      let word := cs.takeWhile isKeyChar
      if word.isEmpty then none else some (String.ofList word, cs.dropWhile isKeyChar)

/-- A key with dots between its parts. Gives the parts before the last one, and the last one. -/
def key? : Nat → List Char → Option ((List String × String) × List Char)
  | 0, _ => none
  | fuel + 1, cs => do
      let (part, rest) ← keyPart? (skipGap cs)
      match skipGap rest with
      | '.' :: rest => do
          let ((path, last), rest) ← key? fuel rest
          return ((part :: path, last), rest)
      | rest => return (([], part), rest)

/-! ## Numbers -/

/-- Digits with single underscores between them. -/
def digits? (isDigit : Char → Bool) (cs : List Char) : Option (List Char × List Char) :=
  match cs with
  | [] => none
  | c :: cs => if isDigit c then some (more (c :: cs)) else none
where
  /-- Digits, each with an optional underscore before it. -/
  more : List Char → List Char × List Char
    | [] => ([], [])
    | c :: cs =>
        if isDigit c then
          let (ds, rest) := more cs
          (c :: ds, rest)
        else if c == '_' then
          match cs with
          | [] => ([], c :: cs)
          | d :: rest =>
              if isDigit d then
                let (ds, rest) := more rest
                (d :: ds, rest)
              else ([], c :: d :: rest)
        else ([], c :: cs)

/-- A whole decimal number without leading zeros: its sign and its digits. -/
def decimal? (cs : List Char) : Option ((Bool × List Char) × List Char) :=
  let (negative, cs) := Decimal.splitSign cs
  match cs with
  | '0' :: rest => some ((negative, ['0']), rest)
  | _ => do
      let (ds, rest) ← digits? Char.isDigit cs
      return ((negative, ds), rest)

/-- A number of 64 bits. -/
def inRange? (n : Int) : Option Toml :=
  if -0x8000000000000000 ≤ n && n < 0x8000000000000000 then some (.integer n) else none

/-- An integer in base sixteen, eight or two. -/
def based? (base : Nat) (cs : List Char) : Option (Toml × List Char) := do
  let isDigit (c : Char) : Bool :=
    match Json.hexDigit? c with
    | some d => d < base
    | none => false
  let (ds, rest) ← digits? isDigit cs
  let n := ds.foldl (fun n d => base * n + (Json.hexDigit? d).getD 0) 0
  let v ← inRange? n
  return (v, rest)

/-- An integer. -/
def integer? (cs : List Char) : Option (Toml × List Char) :=
  match cs with
  | '0' :: 'x' :: rest => based? 16 rest
  | '0' :: 'o' :: rest => based? 8 rest
  | '0' :: 'b' :: rest => based? 2 rest
  | _ => do
      let ((negative, ds), rest) ← decimal? cs
      let n := Decimal.digitsValue ds
      let v ← inRange? (if negative then -(n : Int) else n)
      return (v, rest)

/-- The exponent of a float. -/
def exponent? : List Char → Option (List Char × List Char)
  | c :: cs =>
      if c == 'e' || c == 'E' then do
        let (sign, cs) :=
          match cs with
          | '+' :: cs => (['+'], cs)
          | '-' :: cs => (['-'], cs)
          | cs => ([], cs)
        let (ds, rest) ← digits? Char.isDigit cs
        return ('e' :: sign ++ ds, rest)
      else none
  | [] => none

/-- The text of a float after its whole digits: a fraction, an exponent or both. -/
def fractional? (whole : List Char) : List Char → Option (List Char × List Char)
  | '.' :: more => do
      let (fraction, rest) ← digits? Char.isDigit more
      let text := whole ++ '.' :: fraction
      match exponent? rest with
      | some (e, rest) => some (text ++ e, rest)
      | none => some (text, rest)
  | rest => do
      let (e, rest) ← exponent? rest
      return (whole ++ e, rest)

/-- A float, which must not be too large. -/
def float? (cs : List Char) : Option (Toml × List Char) :=
  let unsigned := (Decimal.splitSign cs).2
  if ['i', 'n', 'f'].isPrefixOf unsigned || ['n', 'a', 'n'].isPrefixOf unsigned then
    some (.float, unsigned.drop 3)
  else do
    let ((_, whole), rest) ← decimal? cs
    let (text, rest) ← fractional? whole rest
    if Decimal.read? text == some Decimal.infinity then none else some (.float, rest)

/-! ## Points in time -/

/-- A number of some digits within bounds. -/
def field? (count low high : Nat) (cs : List Char) : Option (Nat × List Char) :=
  let ds := cs.take count
  let n := Decimal.digitsValue ds
  if ds.length == count && ds.all Char.isDigit && low ≤ n && n ≤ high then
    some (n, cs.drop count)
  else none

/-- What follows a character in front. -/
def after? (c : Char) : List Char → Option (List Char)
  | d :: cs => if c == d then some cs else none
  | [] => none

/-- The number of days of a month. -/
def monthDays (year month : Nat) : Nat :=
  if month == 2 then
    if year % 4 == 0 && (year % 100 != 0 || year % 400 == 0) then 29 else 28
  else if month == 4 || month == 6 || month == 9 || month == 11 then 30
  else 31

/-- What follows a date. -/
def afterDate? (cs : List Char) : Option (List Char) := do
  let (year, cs) ← field? 4 0 9999 cs
  let cs ← after? '-' cs
  let (month, cs) ← field? 2 1 12 cs
  let cs ← after? '-' cs
  let (_, cs) ← field? 2 1 (monthDays year month) cs
  return cs

/-- What follows a time of day. -/
def afterTime? (cs : List Char) : Option (List Char) := do
  let (_, cs) ← field? 2 0 23 cs
  let cs ← after? ':' cs
  let (_, cs) ← field? 2 0 59 cs
  let cs ← after? ':' cs
  let (_, cs) ← field? 2 0 60 cs
  match cs with
  | '.' :: more =>
      if (more.takeWhile Char.isDigit).isEmpty then return cs
      else return more.dropWhile Char.isDigit
  | _ => return cs

/-- What follows the distance from universal time. -/
def afterOffset? : List Char → Option (List Char)
  | c :: cs =>
      if c == 'Z' || c == 'z' then some cs
      else if c == '+' || c == '-' then do
        let (_, cs) ← field? 2 0 23 cs
        let cs ← after? ':' cs
        let (_, cs) ← field? 2 0 59 cs
        return cs
      else none
  | [] => none

/-- What follows a date, a time, or both. -/
def afterDatetime? (cs : List Char) : Option (List Char) :=
  match afterDate? cs with
  | some rest =>
      match rest with
      | d :: more =>
          if d == 'T' || d == 't' || d == ' ' then
            match afterTime? more with
            | some rest => some ((afterOffset? rest).getD rest)
            | none => some rest
          else some rest
      | [] => some []
  | none => afterTime? cs

/-! ## Values -/

/-- What follows a word in front. -/
def afterWord? (word : List Char) (cs : List Char) : Option (List Char) :=
  if word.isPrefixOf cs then some (cs.drop word.length) else none

/-- A number or a point in time. -/
def number? (cs : List Char) : Option (Toml × List Char) :=
  match afterDatetime? cs with
  | some rest => some (.datetime, rest)
  | none => (float? cs).or (integer? cs)

/-- How deeply arrays and tables in braces may be nested. -/
def maxNesting : Nat := 79

/-- A dotted key with no more parts than values may be nested. -/
def keyPath? (cs : List Char) : Option ((List String × String) × List Char) := do
  let ((path, key), rest) ← key? (cs.length + 1) cs
  if path.length < maxNesting then some ((path, key), rest) else none

mutual

/-- A value with at most `depth` levels. -/
def valueFrom (depth : Nat) : Nat → List Char → Option (Toml × List Char)
  | 0, _ => none
  | fuel + 1, cs =>
      match cs with
      | [] => none
      | c :: rest =>
          if c == '"' || c == '\'' then do
            let (s, rest) ← string? cs
            return (.string s, rest)
          else if c == '[' then
            if depth == 0 then none
            else do
              let (items, rest) ← itemsFrom (depth - 1) fuel rest
              return (.array items, rest)
          else if c == '\x7b' then
            if depth == 0 then none
            else
              match skipGap rest with
              | '\x7d' :: rest => some (.table [], rest)
              | rest => do
                  let (fields, rest) ← pairsFrom (depth - 1) fuel [] rest
                  return (.table (fieldsToToml fields), rest)
          else if c == 't' then do
            let rest ← afterWord? ['t', 'r', 'u', 'e'] cs
            return (.boolean true, rest)
          else if c == 'f' then do
            let rest ← afterWord? ['f', 'a', 'l', 's', 'e'] cs
            return (.boolean false, rest)
          else number? cs

/-- The items of an array up to its closing bracket. A comma may follow the last one. -/
def itemsFrom (depth : Nat) : Nat → List Char → Option (List Toml × List Char)
  | 0, _ => none
  | fuel + 1, cs =>
      match skipFiller (cs.length + 1) cs with
      | ']' :: rest => some ([], rest)
      | cs => do
          let (item, rest) ← valueFrom depth fuel cs
          match skipFiller (rest.length + 1) rest with
          | ',' :: rest => do
              let (items, rest) ← itemsFrom depth fuel rest
              return (item :: items, rest)
          | ']' :: rest => return ([item], rest)
          | _ => none

/-- The keys and values of a table in braces up to its closing brace. -/
def pairsFrom (depth : Nat) : Nat → Fields → List Char → Option (Fields × List Char)
  | 0, _, _ => none
  | fuel + 1, fields, cs => do
      let ((path, key), rest) ← keyPath? cs
      let rest ← after? '=' rest
      let (v, rest) ← valueFrom depth fuel (skipGap rest)
      let fields ← assign path key v fields
      match skipGap rest with
      | ',' :: rest => pairsFrom depth fuel fields rest
      | '\x7d' :: rest => return (fields, rest)
      | _ => none

end

/-! ## Documents -/

/-- A document that has been read in part: its fields and the header that is open. -/
structure Document where
  fields : Fields := []
  current : List String := []

/-- A header in brackets, after the opening ones. -/
def header? (double : Bool) (doc : Document) (cs : List Char) : Option (Document × List Char) := do
  let ((path, key), rest) ← keyPath? cs
  let rest ← after? ']' rest
  let rest ← if double then after? ']' rest else some rest
  let fields ← if double then openItem path key doc.fields else openTable path key doc.fields
  return (⟨fields, path ++ [key]⟩, rest)

/-- A key with its value. -/
def pair? (doc : Document) (cs : List Char) : Option (Document × List Char) := do
  let ((path, key), rest) ← keyPath? cs
  let rest ← after? '=' rest
  let (v, rest) ← valueFrom maxNesting (rest.length + 1) (skipGap rest)
  let fields ← assignAt doc.current path key v doc.fields
  return ({ doc with fields }, rest)

/-- Reads lines up to the end. -/
def linesFrom : Nat → Document → List Char → Option Document
  | 0, _, _ => none
  | fuel + 1, doc, cs =>
      match skipGap cs with
      | [] => some doc
      | '[' :: '[' :: rest => do
          let (doc, rest) ← header? true doc rest
          let rest ← lineEnd? rest
          linesFrom fuel doc rest
      | '[' :: rest => do
          let (doc, rest) ← header? false doc rest
          let rest ← lineEnd? rest
          linesFrom fuel doc rest
      | c :: rest =>
          if c == '#' || c == '\n' || c == '\r' then do
            let rest ← lineEnd? (c :: rest)
            linesFrom fuel doc rest
          else do
            let (doc, rest) ← pair? doc (c :: rest)
            let rest ← lineEnd? rest
            linesFrom fuel doc rest

/-- The fields of a document. A byte order mark may stand before it. -/
def read? (text : String) : Option (List (String × Toml)) :=
  let cs := text.toList
  let cs :=
    match cs with
    | '\ufeff' :: rest => rest
    | cs => cs
  (linesFrom (cs.length + 1) {} cs).map fun doc => fieldsToToml doc.fields

end Toml
end Chord
