import Chord.Decimal.Read
import Chord.Script.Basic
import Chord.Token.Scan

/-!
# Reading scripts

Tokens become trees by recursive descent.

**Input.** A list of tokens.

**Algorithm.** Every parser takes the tokens that are left and gives back a tree and the tokens
after it. The end token is not in the list: an empty list means that the end has been reached. The
depth of the descent is bounded by a number that is computed from the number of tokens and never
runs out.

A call may be written as a command, with its arguments behind it on the same line. The arguments of
a command are no commands themselves, except in parentheses. A command with one argument at the head
of a pipeline takes the whole pipeline as its argument.

**Results.** `parse` reads a program, `parseStatement` and `parseExpression` the first statement or
expression. Each gives a tree or a `SyntaxError`, which names the first token that does not fit.
-/

namespace Chord

/-- What was looked for where something else was found. -/
inductive Wanted where
  | separator
  | arrow
  | blockStart
  | blockEnd
  | variableName
  | functionName
  | parametersStart
  | parameterName
  | parametersEnd
  | propertyName
  | argumentsEnd
  | parenEnd
  | number
  | expression
deriving DecidableEq, Repr

/-- The wording of what was looked for. -/
def Wanted.describe : Wanted → String
  | .separator => "newline or ';' after statement"
  | .arrow => "'=>' after hotkey literal"
  | .blockStart => "'\x7b'"
  | .blockEnd => "'\x7d' to close block"
  | .variableName => "variable name after 'let'"
  | .functionName => "function name after 'fn'"
  | .parametersStart => "'(' after function name"
  | .parameterName => "parameter name"
  | .parametersEnd => "')' to close parameter list"
  | .propertyName => "property name after '.'"
  | .argumentsEnd => "')' to close argument list"
  | .parenEnd => "')' to close parenthesized expression"
  | .number => "number"
  | .expression => "expression"

/-- The first token that does not fit and what would have fitted. -/
structure SyntaxError where
  wanted : Wanted
  found : Token
deriving DecidableEq, Repr

/-- The wording of a syntax error. -/
def SyntaxError.message (e : SyntaxError) : String :=
  e.found.pos.describe ++ ": expected " ++ e.wanted.describe ++ ", found " ++ e.found.describe

/-- Why a parser stops: a token that does not fit, or a bound on its depth that was too small. -/
inductive Parse.Halt where
  | mismatch (error : SyntaxError)
  | spent
deriving DecidableEq, Repr

namespace Parse

/-! ## Looking at tokens -/

/-- The kind of the next token. -/
def kindOf : List Token → Kind
  | [] => .eof
  | t :: _ => t.kind

@[simp] theorem kindOf_nil : kindOf [] = .eof :=
  rfl

@[simp] theorem kindOf_cons (t : Token) (ts : List Token) : kindOf (t :: ts) = t.kind :=
  rfl

/-- The tokens after the newlines in front. -/
def skipNewlines (ts : List Token) : List Token :=
  ts.dropWhile fun t => t.kind == .newline

/-- The tokens after the newlines and semicolons in front. -/
def skipSeparators (ts : List Token) : List Token :=
  ts.dropWhile fun t => t.kind == .newline || t.kind == .semicolon

/-- The tokens after a comma in front. -/
def skipComma : List Token → List Token
  | [] => []
  | t :: ts => if t.kind == .comma then ts else t :: ts

/-- Tokens that can begin an argument of a command. -/
def startsArgument (ts : List Token) : Bool :=
  match kindOf ts with
  | .string => true
  | .number => true
  | .identifier => true
  | .hotkey => true
  | _ => false

/-- The tokens after a pipe, which newlines may surround. -/
def afterPipe? (ts : List Token) : Option (List Token) :=
  match skipNewlines ts with
  | [] => none
  | t :: rest => if t.kind == .pipe then some (skipNewlines rest) else none

/-- One of some operators, and the tokens after it and the newlines behind it. -/
def afterOperator? (ops : List BinOp) : List Token → Option (BinOp × List Token)
  | [] => none
  | t :: rest =>
      if t.kind == .operator then
        match BinOp.ofSymbol? t.text with
        | some op => if ops.contains op then some (op, skipNewlines rest) else none
        | none => none
      else none

/-- The operators from the loosest to the tightest level. -/
def levels : List (List BinOp) := [
  [.or],
  [.and],
  [.equal, .notEqual, .lessThan, .greaterThan, .lessEqual, .greaterEqual],
  [.add, .subtract],
  [.multiply, .divide]]

/-- A head and the stages after it. A command with one argument takes the stages for itself. -/
def assemble (head : Expr) (isCommand : Bool) (stages : List Expr) : Expr :=
  match isCommand, head, stages with
  | true, .call callee [arg], stage :: more => .call callee [.pipeline (arg :: stage :: more)]
  | _, _, _ => .ofStages (head :: stages)

variable (stop : Token)

/-- Stops at the next token. -/
def fail {α : Type} (wanted : Wanted) (ts : List Token) : Except Halt α :=
  .error (.mismatch ⟨wanted, ts.headD stop⟩)

/-- The next token, which has to be of a kind. -/
def expect (kind : Kind) (wanted : Wanted) : List Token → Except Halt (Token × List Token)
  | [] => fail stop wanted []
  | t :: ts => if t.kind == kind then .ok (t, ts) else fail stop wanted (t :: ts)

/-- Parameter names with commas between them. -/
def parameters : List Token → Except Halt (List String × List Token)
  | [] => fail stop .parameterName []
  | t :: ts =>
      if t.kind == .identifier then
        match ts with
        | [] => .ok ([t.text], [])
        | c :: rest =>
            if c.kind == .comma then do
              let (names, rest) ← parameters rest
              return (t.text :: names, rest)
            else .ok ([t.text], c :: rest)
      else fail stop .parameterName (t :: ts)

/-! ## Expressions

The parsers between `binary` and `call` also tell whether the expression is a command. -/

mutual

/-- An expression: a pipeline of one or more stages. -/
def expression : Nat → List Token → Except Halt (Expr × List Token)
  | 0, _ => .error .spent
  | n + 1, ts => do
      let ((head, isCommand), ts) ← binary n levels true ts
      let (stages, ts) ← pipelineTail n ts
      return (assemble head isCommand stages, ts)

/-- The stages after the first one. -/
def pipelineTail : Nat → List Token → Except Halt (List Expr × List Token)
  | 0, _ => .error .spent
  | n + 1, ts =>
      match afterPipe? ts with
      | none => .ok ([], ts)
      | some rest => do
          let ((stage, _), ts) ← binary n levels true rest
          let (more, ts) ← pipelineTail n ts
          return (stage :: more, ts)

/-- Operands joined by the operators of some levels, looser levels first. -/
def binary : Nat → List (List BinOp) → Bool → List Token → Except Halt ((Expr × Bool) × List Token)
  | 0, _, _, _ => .error .spent
  | n + 1, [], commands, ts => unary n commands ts
  | n + 1, ops :: tighter, commands, ts => do
      let ((left, isCommand), ts) ← binary n tighter commands ts
      binaryTail n ops tighter commands left isCommand ts

/-- The operators of one level and their right operands after a left operand. -/
def binaryTail : Nat → List BinOp → List (List BinOp) → Bool → Expr → Bool → List Token →
    Except Halt ((Expr × Bool) × List Token)
  | 0, _, _, _, _, _, _ => .error .spent
  | n + 1, ops, tighter, commands, left, isCommand, ts =>
      match afterOperator? ops ts with
      | none => .ok ((left, isCommand), ts)
      | some (op, rest) => do
          let ((right, _), ts) ← binary n tighter commands rest
          binaryTail n ops tighter commands (.binary left op right) false ts

/-- A minus sign before an operand subtracts it from zero. -/
def unary : Nat → Bool → List Token → Except Halt ((Expr × Bool) × List Token)
  | 0, _, _ => .error .spent
  | n + 1, commands, ts =>
      match ts with
      | t :: rest =>
          if t.kind == .operator && t.text == "-" then do
            let ((operand, _), ts) ← unary n commands rest
            return ((.binary (.number (Float.ofNat 0)) .subtract operand, false), ts)
          else call n commands (t :: rest)
      | [] => call n commands []

/-- A primary expression with what is behind it, and the arguments of a command. -/
def call : Nat → Bool → List Token → Except Halt ((Expr × Bool) × List Token)
  | 0, _, _ => .error .spent
  | n + 1, commands, ts => do
      let (head, ts) ← primary n ts
      let (e, ts) ← suffixes n head ts
      if commands && e.isCallablePath && startsArgument ts then
        let (args, ts) ← commandArguments n ts
        return ((.call e args, true), ts)
      else return ((e, false), ts)

/-- Properties and argument lists behind an expression. -/
def suffixes : Nat → Expr → List Token → Except Halt (Expr × List Token)
  | 0, _, _ => .error .spent
  | n + 1, e, ts =>
      match ts with
      | [] => .ok (e, [])
      | t :: rest =>
          if t.kind == .dot then do
            let (property, ts) ← expect stop .identifier .propertyName rest
            suffixes n (.member e (.identifier property.text)) ts
          else if t.kind == .leftParen && e.isCallablePath then do
            let (args, ts) ← arguments n rest
            suffixes n (.call e args) ts
          else .ok (e, t :: rest)

/-- The arguments of a command, each with an optional comma behind it. -/
def commandArguments : Nat → List Token → Except Halt (List Expr × List Token)
  | 0, _ => .error .spent
  | n + 1, ts => do
      let ((arg, _), ts) ← binary n levels false ts
      let ts := skipComma ts
      if startsArgument ts then
        let (more, ts) ← commandArguments n ts
        return (arg :: more, ts)
      else return ([arg], ts)

/-- The arguments behind an opening parenthesis. -/
def arguments : Nat → List Token → Except Halt (List Expr × List Token)
  | 0, _ => .error .spent
  | n + 1, ts =>
      match skipNewlines ts with
      | [] => argumentList n []
      | t :: rest => if t.kind == .rightParen then .ok ([], rest) else argumentList n (t :: rest)

/-- One or more arguments with commas between them and the closing parenthesis. -/
def argumentList : Nat → List Token → Except Halt (List Expr × List Token)
  | 0, _ => .error .spent
  | n + 1, ts => do
      let (arg, ts) ← expression n ts
      let ts := skipNewlines ts
      if kindOf ts == .comma then
        let (more, ts) ← argumentList n (skipNewlines (ts.drop 1))
        return (arg :: more, ts)
      else
        let (_, ts) ← expect stop .rightParen .argumentsEnd ts
        return ([arg], ts)

/-- A literal, a name or an expression in parentheses. -/
def primary : Nat → List Token → Except Halt (Expr × List Token)
  | 0, _ => .error .spent
  | n + 1, ts =>
      match ts with
      | [] => fail stop .expression []
      | t :: rest =>
          match t.kind with
          | .number =>
              match Decimal.read? t.text.toList with
              | some value => .ok (.number value, rest)
              | none => fail stop .number (t :: rest)
          | .string => .ok (.string t.text, rest)
          | .hotkey => .ok (.hotkey t.text, rest)
          | .identifier => .ok (.identifier t.text, rest)
          | .leftParen => do
              let (e, ts) ← expression n (skipNewlines rest)
              let (_, ts) ← expect stop .rightParen .parenEnd (skipNewlines ts)
              return (e, ts)
          | _ => fail stop .expression (t :: rest)

end

/-! ## Statements -/

/-- The end of a statement: a separator, the end of the script or of the block around it. -/
def statementEnd (inBlock : Bool) (ts : List Token) : Except Halt Unit :=
  match kindOf ts with
  | .newline => .ok ()
  | .semicolon => .ok ()
  | .eof => .ok ()
  | .rightBrace => if inBlock then .ok () else fail stop .separator ts
  | _ => fail stop .separator ts

mutual

/-- A statement. -/
def statement : Nat → List Token → Except Halt (Stmt × List Token)
  | 0, _ => .error .spent
  | n + 1, ts =>
      match ts with
      | [] => do
          let (e, ts) ← expression stop n []
          return (.expr e, ts)
      | t :: rest =>
          match t.kind with
          | .hotkey => do
              let (_, ts) ← expect stop .arrow .arrow rest
              let (action, ts) ← statement n (skipNewlines ts)
              return (.bind (.hotkey t.text) action t.pos.line, ts)
          | .leftBrace => block n (t :: rest)
          | .letWord => do
              let (name, ts) ← expect stop .identifier .variableName rest
              if kindOf ts == .assign then
                let (value, ts) ← expression stop n (skipNewlines (ts.drop 1))
                return (.assign name.text (some value), ts)
              else return (.assign name.text none, ts)
          | .ifWord => branch n rest
          | .whileWord => do
              let (condition, ts) ← expression stop n rest
              let (body, ts) ← block n (skipNewlines ts)
              return (.loop condition body, ts)
          | .fnWord => do
              let (name, ts) ← expect stop .identifier .functionName rest
              let (_, ts) ← expect stop .leftParen .parametersStart ts
              let (params, ts) ←
                if kindOf ts == .rightParen then .ok ([], ts) else parameters stop ts
              let (_, ts) ← expect stop .rightParen .parametersEnd ts
              let (body, ts) ← block n (skipNewlines ts)
              return (.function name.text params body, ts)
          | .returnWord =>
              match kindOf rest with
              | .newline => .ok (.leave none, rest)
              | .semicolon => .ok (.leave none, rest)
              | .rightBrace => .ok (.leave none, rest)
              | .eof => .ok (.leave none, rest)
              | _ => do
                  let (value, ts) ← expression stop n rest
                  return (.leave (some value), ts)
          | _ => do
              let (e, ts) ← expression stop n (t :: rest)
              return (.expr e, ts)

/-- The rest of a conditional after its first word. -/
def branch : Nat → List Token → Except Halt (Stmt × List Token)
  | 0, _ => .error .spent
  | n + 1, ts => do
      let (condition, ts) ← expression stop n ts
      let (consequence, ts) ← block n (skipNewlines ts)
      if kindOf (skipNewlines ts) == .elseWord then
        let rest := skipNewlines ((skipNewlines ts).drop 1)
        let (alternative, ts) ←
          if kindOf rest == .ifWord then branch n (rest.drop 1) else block n rest
        return (.branch condition consequence (some alternative), ts)
      else return (.branch condition consequence none, ts)

/-- Statements in braces. -/
def block : Nat → List Token → Except Halt (Stmt × List Token)
  | 0, _ => .error .spent
  | n + 1, ts => do
      let (_, ts) ← expect stop .leftBrace .blockStart ts
      let (body, ts) ← blockTail n (skipSeparators ts)
      return (.block body, ts)

/-- Statements up to a closing brace. -/
def blockTail : Nat → List Token → Except Halt (List Stmt × List Token)
  | 0, _ => .error .spent
  | n + 1, ts =>
      match ts with
      | [] => fail stop .blockEnd []
      | t :: rest =>
          if t.kind == .rightBrace then .ok ([], rest)
          else do
            let (first, ts) ← statement n (t :: rest)
            statementEnd stop true ts
            let (more, ts) ← blockTail n (skipSeparators ts)
            return (first :: more, ts)

end

/-- Statements up to the end of the script. -/
def statements : Nat → List Token → Except Halt (List Stmt × List Token)
  | 0, _ => .error .spent
  | n + 1, ts =>
      match ts with
      | [] => .ok ([], [])
      | t :: rest => do
          let (first, ts) ← statement stop n (t :: rest)
          statementEnd stop false ts
          let (more, ts) ← statements n (skipSeparators ts)
          return (first :: more, ts)

/-- A depth that no descent over these tokens exceeds. -/
def depthBound (ts : List Token) : Nat :=
  16 * (ts.length + 1)

end Parse

/-! ## Token streams -/

/-- The tokens that a parser sees: those before the end token, and the end token. -/
structure Stream where
  tokens : List Token
  stop : Token
deriving DecidableEq, Repr

namespace Stream

/-- The end token for a list that has none: it stands behind the last token. -/
def endAfter (ts : List Token) : Token :=
  match ts.getLast? with
  | none => ⟨.eof, "", .start⟩
  | some t => ⟨.eof, "", ⟨t.pos.line, t.pos.column + t.text.length⟩⟩

/-- The tokens of a list up to its first end token, without comments. -/
def ofTokens (ts : List Token) : Stream :=
  let kept := ts.filter fun t => t.kind != .comment
  { tokens := kept.takeWhile fun t => t.kind != .eof
    stop := (kept.find? fun t => t.kind == .eof).getD (endAfter kept) }

/-- Runs a parser on a stream. -/
def run {α : Type} (s : Stream)
    (parser : Token → Nat → List Token → Except Parse.Halt (α × List Token)) :
    Except SyntaxError α :=
  match parser s.stop (Parse.depthBound s.tokens) s.tokens with
  | .ok (a, _) => .ok a
  | .error (.mismatch e) => .error e
  | .error .spent => .error ⟨.expression, s.stop⟩

end Stream

/-- Reads a program from tokens. -/
def parse (ts : List Token) : Except SyntaxError Program :=
  (Stream.ofTokens ts).run fun stop n ts =>
    (Parse.statements stop n (Parse.skipSeparators ts)).map fun (body, rest) => (⟨body⟩, rest)

/-- Reads the first statement from tokens. -/
def parseStatement (ts : List Token) : Except SyntaxError Stmt :=
  (Stream.ofTokens ts).run Parse.statement

/-- Reads the first expression from tokens. -/
def parseExpression (ts : List Token) : Except SyntaxError Expr :=
  (Stream.ofTokens ts).run Parse.expression

/-- Reads a script. -/
def parseSource (source : String) : Except SyntaxError Program :=
  parse (tokenize source)

end Chord
