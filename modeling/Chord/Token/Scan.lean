import Chord.Hotkey
import Chord.Token.Basic

/-!
# Scanning

A script is cut into consecutive segments, each of them the spelling of a token, a run of blanks, a
comment or a character that fits nowhere.

**Input.** The characters of a script.

**Algorithm.** The character in front and those behind it decide the sort of the next segment and
how many further characters it covers. One flag is carried along: whether the next token begins a
statement, because only there a plus sign can begin a hotkey.

**Results.** `segments` lists the segments with their positions. The tokens, with or without
comments, and the complaints about the script are read off this list.
-/

namespace Chord

/-- What a segment of a script is. -/
inductive Segment.Sort where
  /-- A token whose text is the segment itself. -/
  | word (kind : Kind)
  /-- A string between quotes, or up to the end of the line. -/
  | string (closed : Bool)
  | comment
  | blank
  /-- A character that fits nowhere and is passed over. -/
  | stray
deriving DecidableEq, Repr

/-- A piece of a script. -/
structure Segment where
  sort : Segment.Sort
  lexeme : List Char
  pos : Position
deriving DecidableEq, Repr

namespace Scan

/-! ## Extents

Each function tells how many characters from the front of a text belong to something. -/

/-- Letters, digits and the underscore of ASCII. -/
def isWordChar (c : Char) : Bool :=
  c.isAlphanum || c == '_'

/-- A character that can follow a modifier: anything but a blank. -/
def isKeyChar (c : Char) : Bool :=
  !Text.isBlank c

/-- The first of some characters passes a test. -/
def headIs (p : Char → Bool) : List Char → Bool
  | [] => false
  | c :: _ => p c

/-- The word characters in front. -/
def wordExtent (cs : List Char) : Nat :=
  (cs.takeWhile isWordChar).length

/-- Digits with at most one point, which must stand between digits. -/
def numberExtent (pointSeen : Bool) : List Char → Nat
  | [] => 0
  | c :: cs =>
      if c.isDigit then 1 + numberExtent pointSeen cs
      else if c == '.' && !pointSeen && headIs Char.isDigit cs then 1 + numberExtent true cs
      else 0

/-- The rest of a hotkey after one of its keys: plus signs, each followed by a word or by a single
key character. `inWord` tells whether the key before is a word that may go on. -/
def comboExtent (inWord : Bool) : List Char → Nat
  | [] => 0
  | c :: cs =>
      if inWord && isWordChar c then 1 + comboExtent true cs
      else if c == '+' then
        match cs with
        | [] => 0
        | d :: ds => if isKeyChar d then 2 + comboExtent (isWordChar d) ds else 0
      else 0

/-- A hotkey that begins with modifier symbols. The last symbol before a blank is itself the key. -/
def symbolicExtent : List Char → Nat
  | [] => 0
  | c :: cs =>
      if (Modifier.ofSymbol? c).isSome && headIs isKeyChar cs then 1 + symbolicExtent cs
      else if isKeyChar c then 1 + comboExtent (isWordChar c) cs
      else 0

/-- The characters of a string after its opening quote, without the closing one. -/
def stringExtent (cs : List Char) : Nat :=
  (cs.takeWhile fun c => c != '"' && c != '\n').length

/-- Only spaces and tabs stand before an arrow. -/
def arrowFollows (cs : List Char) : Bool :=
  match cs.dropWhile fun c => c == ' ' || c == '\t' with
  | '=' :: '>' :: _ => true
  | _ => false

/-! ## Words -/

/-- Words with a meaning of their own. -/
def keyword? : String → Option Kind
  | "let" => some .letWord
  | "if" => some .ifWord
  | "else" => some .elseWord
  | "while" => some .whileWord
  | "fn" => some .fnWord
  | "function" => some .fnWord
  | "return" => some .returnWord
  | "and" => some .operator
  | "or" => some .operator
  | _ => none

/-- The kind and extent of a token that begins with a word. `rest` follows the word. A modifier with
a plus sign begins a hotkey; a function key is one, and so is any other word before an arrow. -/
def wordToken (word rest : List Char) : Kind × Nat :=
  if (Modifier.ofWord? (String.ofList word)).isSome && 0 < comboExtent false rest then
    (.hotkey, word.length + comboExtent false rest)
  else if isFunctionKey word then (.hotkey, word.length)
  else
    match keyword? (String.ofList word) with
    | some kind => (kind, word.length)
    | none => (if arrowFollows rest then .hotkey else .identifier, word.length)

/-! ## Segments -/

/-- A segment of a sort that covers `extra` characters after the first. -/
structure Cut where
  sort : Segment.Sort
  extra : Nat
deriving DecidableEq, Repr

/-- A token of one character. -/
def one (kind : Kind) : Cut := ⟨.word kind, 0⟩

/-- A token of two characters. -/
def two (kind : Kind) : Cut := ⟨.word kind, 1⟩

/-- The token with a symbol in front that may be doubled with another one. -/
def oneOrTwo (single : Kind) (second : Char) (double : Kind) (cs : List Char) : Cut :=
  if headIs (· == second) cs then two double else one single

/-- A hotkey with modifier symbols in front of it. -/
def symbolic (c : Char) (cs : List Char) : Cut :=
  ⟨.word .hotkey, symbolicExtent (c :: cs) - 1⟩

/-- The characters that are tokens whatever is behind them. -/
def marks : List (Char × Kind) := [
  ('-', .operator), ('*', .operator), ('/', .operator), ('(', .leftParen), (')', .rightParen),
  ('\x7b', .leftBrace), ('\x7d', .rightBrace), ('.', .dot), (',', .comma), (';', .semicolon)]

/-- The segment that begins with a symbol. -/
def symbol (fresh : Bool) (c : Char) (cs : List Char) : Cut :=
  if c == '#' || c == '^' then symbolic c cs
  else if c == '!' then
    if headIs (· == '=') cs then two .operator
    else if headIs isKeyChar cs then symbolic c cs
    else ⟨.stray, 0⟩
  else if c == '+' then
    if fresh && headIs isKeyChar cs then symbolic c cs else one .operator
  else if c == '=' then
    if headIs (· == '>') cs then two .arrow else oneOrTwo .assign '=' .operator cs
  else if c == '<' || c == '>' then oneOrTwo .operator '=' .operator cs
  else if c == '|' then oneOrTwo .pipe '|' .operator cs
  else if c == '&' then if headIs (· == '&') cs then two .operator else ⟨.stray, 0⟩
  else if c == ':' then if headIs (· == ':') cs then two .dot else ⟨.stray, 0⟩
  else
    match marks.lookup c with
    | some kind => one kind
    | none => ⟨.stray, 0⟩

/-- The segment that begins with `c`, before the characters `cs`. `fresh` tells whether a statement
begins here. -/
def cut (fresh : Bool) (c : Char) (cs : List Char) : Cut :=
  if c == '\n' then one .newline
  else if Text.isBlank c then
    ⟨.blank, (cs.takeWhile fun d => Text.isBlank d && d != '\n').length⟩
  else if c == '/' && headIs (· == '/') cs then
    ⟨.comment, (cs.takeWhile fun d => d != '\n').length⟩
  else if c == '"' then
    let inner := stringExtent cs
    if headIs (· == '"') (cs.drop inner) then ⟨.string true, inner + 1⟩
    else ⟨.string false, inner⟩
  else if c.isDigit then ⟨.word .number, numberExtent false cs⟩
  else if isWordChar c then
    let n := wordExtent cs
    let (kind, extent) := wordToken (c :: cs.take n) (cs.drop n)
    ⟨.word kind, extent - 1⟩
  else symbol fresh c cs

/-- Whether a statement begins after a segment; segments that are no tokens change nothing. -/
def freshAfter (fresh : Bool) : Segment.Sort → Bool
  | .word kind => kind == .newline || kind == .leftBrace || kind == .semicolon
  | .string _ => false
  | _ => fresh

/-- The segments of a text. The first `covered` characters belong to a segment listed already. -/
def segmentsFrom (fresh : Bool) (pos : Position) : Nat → List Char → List Segment
  | _, [] => []
  | covered + 1, c :: cs => segmentsFrom fresh (pos.next c) covered cs
  | 0, c :: cs =>
      let next := cut fresh c cs
      ⟨next.sort, c :: cs.take next.extra, pos⟩
        :: segmentsFrom (freshAfter fresh next.sort) (pos.next c) next.extra cs

/-- The segments of a script. -/
def segments (source : List Char) : List Segment :=
  segmentsFrom true .start 0 source

end Scan

/-! ## Tokens -/

/-- The text between the quotes of a string. -/
def Segment.unquoted (s : Segment) (closed : Bool) : List Char :=
  let inner := s.lexeme.drop 1
  if closed then inner.dropLast else inner

/-- The token that a segment spells. Comments are tokens only if they are kept. -/
def Segment.token? (keepComments : Bool) (s : Segment) : Option Token :=
  match s.sort with
  | .word kind => some ⟨kind, String.ofList s.lexeme, s.pos⟩
  | .string closed => some ⟨.string, String.ofList (s.unquoted closed), s.pos⟩
  | .comment => if keepComments then some ⟨.comment, String.ofList s.lexeme, s.pos⟩ else none
  | _ => none

/-- The place after a text. -/
def Position.after (p : Position) (cs : List Char) : Position :=
  cs.foldl Position.next p

/-- The tokens of a script, comments among them if they are kept, with an end token after its last
character. -/
def tokens (keepComments : Bool) (source : String) : List Token :=
  (Scan.segments source.toList).filterMap (Segment.token? keepComments)
    ++ [⟨.eof, "", Position.start.after source.toList⟩]

/-- The tokens of a script without its comments. -/
def tokenize (source : String) : List Token :=
  tokens false source

/-! ## Complaints -/

/-- What is wrong with a segment. -/
inductive Complaint.Cause where
  | stray (c : Char)
  | unclosedString
deriving DecidableEq, Repr

/-- A fault in the spelling of a script. Scanning goes on after it. -/
structure Complaint where
  cause : Complaint.Cause
  pos : Position
deriving DecidableEq, Repr

namespace Complaint

/-- The wording of a complaint. -/
def message (c : Complaint) : String :=
  match c.cause with
  | .stray '!' => "unexpected '!'"
  | .stray ch => "unexpected character '" ++ String.singleton ch ++ "'"
  | .unclosedString => "unterminated string"

/-- A complaint with its place. -/
def describe (c : Complaint) : String :=
  c.pos.describe ++ ": " ++ c.message

end Complaint

/-- What is wrong with a segment, if anything is. -/
def Segment.complaint? (s : Segment) : Option Complaint :=
  match s.sort, s.lexeme with
  | .stray, c :: _ => some ⟨.stray c, s.pos⟩
  | .string false, _ => some ⟨.unclosedString, s.pos⟩
  | _, _ => none

/-- The complaints about a script, in order. -/
def complaints (source : String) : List Complaint :=
  (Scan.segments source.toList).filterMap Segment.complaint?

end Chord
