/-!
# Tokens

The words of a script with their places.

**Input.** Characters.

**Results.** A `Position` counts lines and columns from one; `Position.next` moves it over one
character. A `Token` has a kind, a text and the position of its first character. `Kind.describe`
and `Token.describe` are the spellings used in messages.
-/

namespace Chord

/-- A place in a text; lines and columns count from one. -/
structure Position where
  line : Nat
  column : Nat
deriving DecidableEq, Repr

namespace Position

/-- The place of the first character. -/
def start : Position := ⟨1, 1⟩

/-- The place after a character. -/
def next (p : Position) (c : Char) : Position :=
  if c == '\n' then ⟨p.line + 1, 1⟩ else ⟨p.line, p.column + 1⟩

/-- The spelling of a place in messages. -/
def describe (p : Position) : String :=
  "line " ++ toString p.line ++ ", column " ++ toString p.column

end Position

/-- The kinds of tokens. -/
inductive Kind where
  | letWord
  | ifWord
  | elseWord
  | whileWord
  | fnWord
  | returnWord
  | identifier
  | number
  | string
  | hotkey
  | assign
  | arrow
  | operator
  | pipe
  | leftParen
  | rightParen
  | leftBrace
  | rightBrace
  | dot
  | comma
  | semicolon
  | comment
  | newline
  | eof
deriving DecidableEq, Repr

namespace Kind

/-- All kinds, keywords first. -/
def all : List Kind := [
  .letWord, .ifWord, .elseWord, .whileWord, .fnWord, .returnWord,
  .identifier, .number, .string, .hotkey,
  .assign, .arrow, .operator, .pipe,
  .leftParen, .rightParen, .leftBrace, .rightBrace, .dot, .comma, .semicolon,
  .comment, .newline, .eof]

/-- The name of a kind in messages. -/
def describe : Kind → String
  | .letWord => "'let'"
  | .ifWord => "'if'"
  | .elseWord => "'else'"
  | .whileWord => "'while'"
  | .fnWord => "'fn'"
  | .returnWord => "'return'"
  | .identifier => "identifier"
  | .number => "number"
  | .string => "string"
  | .hotkey => "hotkey literal"
  | .assign => "'='"
  | .arrow => "'=>'"
  | .operator => "operator"
  | .pipe => "'|'"
  | .leftParen => "'('"
  | .rightParen => "')'"
  | .leftBrace => "'\x7b'"
  | .rightBrace => "'\x7d'"
  | .dot => "'.'"
  | .comma => "','"
  | .semicolon => "';'"
  | .comment => "comment"
  | .newline => "newline"
  | .eof => "end of input"

end Kind

/-- A token of a script. -/
structure Token where
  kind : Kind
  text : String
  pos : Position
deriving DecidableEq, Repr

/-- How a token is called in messages. -/
def Token.describe (t : Token) : String :=
  match t.kind with
  | .newline => "newline"
  | .eof => "end of input"
  | .string => "\"" ++ t.text ++ "\""
  | _ => "'" ++ t.text ++ "'"

end Chord
