import Chord.Proofs.Script.Reading

/-!
# Reading with a cursor

Scripts can also be read in place: the list of tokens stays as it is and a cursor moves over it.

**Input.** Any list of tokens, with or without end tokens and comments.

**Algorithm.** A `Tape` is a list of tokens that ends with an end token, and a `Cursor` is a place
on it. Whether calls may be written as commands is a flag of the cursor: it is turned off for the
arguments of a command, on again behind them, and turned on and set back around parentheses. The end
of the last command is remembered to tell a command at the head of a pipeline. Skipping ends because
the cursor is in front of the end of the tape wherever it can move.

**Results.** `Tape.program`, `Tape.statement` and `Tape.expression` read with a cursor. Every parser
moves the cursor forward, past no end token, and leaves the flag as it finds it
(`Tape.expression_advances`, `Tape.statement_advances` and their companions).
-/

namespace Chord

open Parse

/-- A list of tokens that ends with an end token. -/
structure Tape where
  tokens : List Token
  ends : ∃ t ∈ tokens.getLast?, t.kind = .eof

/-- A place on a tape, whether commands may be written there, and where the last command ended. -/
structure Cursor where
  position : Nat
  commands : Bool
  commandEnd : Option Nat
deriving DecidableEq, Repr

/-- The cursor before anything is read. -/
def Cursor.start : Cursor :=
  ⟨0, true, none⟩

/-- The cursor with commands turned on or off. -/
def Cursor.withCommands (c : Cursor) (commands : Bool) : Cursor :=
  { c with commands := commands }

/-- The cursor at the end of a command. -/
def Cursor.endCommand (c : Cursor) : Cursor :=
  { c with commands := true, commandEnd := some c.position }

theorem Stream.endAfter_kind (ts : List Token) : (Stream.endAfter ts).kind = .eof := by
  unfold Stream.endAfter
  split <;> rfl

namespace Tape

/-- The tokens of a list without its comments, and an end token behind them unless there is one. -/
def ofTokens (ts : List Token) : Tape :=
  let kept := ts.filter fun t => t.kind != .comment
  if h : ∃ t ∈ kept.getLast?, t.kind = .eof then ⟨kept, h⟩
  else ⟨kept ++ [Stream.endAfter kept], _, List.getLast?_concat, Stream.endAfter_kind kept⟩

theorem exists_last (tape : Tape) :
    ∃ before last, tape.tokens = before ++ [last] ∧ last.kind = .eof := by
  obtain ⟨last, hlast, heof⟩ := tape.ends
  obtain ⟨before, htokens⟩ := List.getLast?_eq_some_iff.1 hlast
  exact ⟨before, last, htokens, heof⟩

variable (tape : Tape)

theorem length_pos : 0 < tape.tokens.length := by
  obtain ⟨before, last, htokens, -⟩ := tape.exists_last
  rw [htokens, List.length_append, List.length_singleton]
  exact Nat.succ_pos _

/-! ## Moving the cursor -/

/-- The token at the cursor; behind the end of the tape it is the last one. -/
def current (c : Cursor) : Token :=
  tape.tokens.get ⟨min c.position (tape.tokens.length - 1),
    Nat.lt_of_le_of_lt (Nat.min_le_right _ _) (Nat.sub_one_lt_of_lt tape.length_pos)⟩

/-- The kind of the token at the cursor. -/
def kind (c : Cursor) : Kind :=
  (tape.current c).kind

/-- The cursor behind the token that it is at. An end token holds it. -/
def advance (c : Cursor) : Cursor :=
  if tape.kind c == .eof then c else { c with position := c.position + 1 }

theorem getElem?_current (c : Cursor) :
    tape.tokens[min c.position (tape.tokens.length - 1)]? = some (tape.current c) :=
  List.getElem?_eq_getElem _

theorem getElem?_position {c : Cursor} (h : c.position < tape.tokens.length) :
    tape.tokens[c.position]? = some (tape.current c) := by
  have hmin : min c.position (tape.tokens.length - 1) = c.position := by omega
  rw [← tape.getElem?_current c, hmin]

/-- Where the cursor can move, the tape goes on. -/
theorem position_lt {c : Cursor} (h : tape.kind c ≠ .eof) : c.position < tape.tokens.length := by
  refine Nat.lt_of_not_le fun hge => h ?_
  obtain ⟨before, last, htokens, hlast⟩ := tape.exists_last
  have hlength : tape.tokens.length = before.length + 1 := by rw [htokens]; simp
  have hmin : min c.position (tape.tokens.length - 1) = before.length := by omega
  have hcurrent := tape.getElem?_current c
  rw [hmin, htokens, List.getElem?_concat_length] at hcurrent
  rw [kind, ← Option.some.inj hcurrent, hlast]

theorem advance_of_ne {c : Cursor} (h : tape.kind c ≠ .eof) :
    tape.advance c = { c with position := c.position + 1 } :=
  if_neg (by simpa using h)

/-- The cursor behind the tokens of some kinds. -/
def skip (skips : Kind → Bool) (c : Cursor) : Cursor :=
  if skips (tape.kind c) && tape.kind c != .eof then skip skips (tape.advance c) else c
termination_by tape.tokens.length - c.position
decreasing_by
  rename_i h
  have hne : tape.kind c ≠ .eof := by simpa using (Bool.and_eq_true_iff.1 h).2
  rw [tape.advance_of_ne hne]
  exact Nat.sub_succ_lt_self _ _ (tape.position_lt hne)

/-- The cursor behind the newlines that it is at. -/
def skipNewlines (c : Cursor) : Cursor :=
  tape.skip (fun k => k == .newline) c

/-- The cursor behind the newlines and semicolons that it is at. -/
def skipSeparators (c : Cursor) : Cursor :=
  tape.skip (fun k => k == .newline || k == .semicolon) c

/-- The kind of the first token that is no newline. The cursor stays where it is. -/
def kindAfterNewlines (c : Cursor) : Kind :=
  tape.kind (tape.skipNewlines c)

/-- The cursor behind a comma. -/
def skipComma (c : Cursor) : Cursor :=
  if tape.kind c == .comma then tape.advance c else c

/-- Tokens that can begin an argument of a command. -/
def startsArgument (c : Cursor) : Bool :=
  match tape.kind c with
  | .string => true
  | .number => true
  | .identifier => true
  | .hotkey => true
  | _ => false

/-- The cursor behind a pipe, which newlines may surround. -/
def afterPipe? (c : Cursor) : Option Cursor :=
  if tape.kind c == .pipe then some (tape.skipNewlines (tape.advance c))
  else if tape.kind c == .newline && tape.kindAfterNewlines c == .pipe then
    some (tape.skipNewlines (tape.advance (tape.skipNewlines c)))
  else none

/-- The operator at the cursor, if it is one of some operators. -/
def operator? (ops : List BinOp) (c : Cursor) : Option BinOp :=
  match BinOp.ofSymbol? (tape.current c).text with
  | some op => if tape.kind c == .operator && ops.contains op then some op else none
  | none => none

/-- Stops at the cursor. -/
def fail {α : Type} (wanted : Wanted) (c : Cursor) : Except Halt α :=
  .error (.mismatch ⟨wanted, tape.current c⟩)

/-- The token at the cursor, which has to be of a kind. -/
def expect (kind : Kind) (wanted : Wanted) (c : Cursor) : Except Halt (Token × Cursor) :=
  if tape.kind c == kind then .ok (tape.current c, tape.advance c) else tape.fail wanted c

/-- Parameter names with commas between them. -/
def parameters (c : Cursor) : Except Halt (List String × Cursor) :=
  if tape.kind c == .identifier then
    if tape.kind (tape.advance c) == .comma then do
      let (names, after) ← parameters (tape.advance (tape.advance c))
      return ((tape.current c).text :: names, after)
    else .ok ([(tape.current c).text], tape.advance c)
  else tape.fail .parameterName c
termination_by tape.tokens.length - c.position
decreasing_by
  rename_i hname hcomma
  have hname : tape.kind c ≠ .eof := by rw [beq_iff_eq.1 hname]; decide
  have hcomma : tape.kind (tape.advance c) ≠ .eof := by rw [beq_iff_eq.1 hcomma]; decide
  have hlt := tape.position_lt hname
  rw [tape.advance_of_ne hcomma, tape.advance_of_ne hname]
  show tape.tokens.length - (c.position + 1 + 1) < tape.tokens.length - c.position
  omega

/-- The end of a statement: a separator, the end of the tape or of the block around it. -/
def statementEnd (inBlock : Bool) (c : Cursor) : Except Halt Unit :=
  match tape.kind c with
  | .newline => .ok ()
  | .semicolon => .ok ()
  | .eof => .ok ()
  | .rightBrace => if inBlock then .ok () else tape.fail .separator c
  | _ => tape.fail .separator c

/-! ## Parsers -/

mutual

/-- An expression: a pipeline of one or more stages. -/
def expression : Nat → Cursor → Except Halt (Expr × Cursor)
  | 0, _ => .error .spent
  | n + 1, c => do
      let (head, c) ← binary n levels c
      let (stages, after) ← pipelineTail n c
      return (assemble head (c.commandEnd == some c.position) stages, after)

/-- The stages after the first one. -/
def pipelineTail : Nat → Cursor → Except Halt (List Expr × Cursor)
  | 0, _ => .error .spent
  | n + 1, c =>
      match tape.afterPipe? c with
      | none => .ok ([], c)
      | some next => do
          let (stage, c) ← binary n levels next
          let (more, c) ← pipelineTail n c
          return (stage :: more, c)

/-- Operands joined by the operators of some levels, looser levels first. -/
def binary : Nat → List (List BinOp) → Cursor → Except Halt (Expr × Cursor)
  | 0, _, _ => .error .spent
  | n + 1, [], c => unary n c
  | n + 1, ops :: tighter, c => do
      let (left, c) ← binary n tighter c
      binaryTail n ops tighter left c

/-- The operators of one level and their right operands after a left operand. -/
def binaryTail : Nat → List BinOp → List (List BinOp) → Expr → Cursor →
    Except Halt (Expr × Cursor)
  | 0, _, _, _, _ => .error .spent
  | n + 1, ops, tighter, left, c =>
      match tape.operator? ops c with
      | none => .ok (left, c)
      | some op => do
          let (right, c) ← binary n tighter (tape.skipNewlines (tape.advance c))
          binaryTail n ops tighter (.binary left op right) c

/-- A minus sign before an operand subtracts it from zero. -/
def unary : Nat → Cursor → Except Halt (Expr × Cursor)
  | 0, _ => .error .spent
  | n + 1, c =>
      if tape.kind c == .operator && (tape.current c).text == "-" then do
        let (operand, c) ← unary n (tape.advance c)
        return (.binary (.number (Float.ofNat 0)) .subtract operand, c)
      else call n c

/-- A primary expression with what is behind it, and the arguments of a command. -/
def call : Nat → Cursor → Except Halt (Expr × Cursor)
  | 0, _ => .error .spent
  | n + 1, c => do
      let (head, c) ← primary n c
      let (e, c) ← suffixes n head c
      if c.commands && e.isCallablePath && tape.startsArgument c then
        let (args, c) ← commandArguments n (c.withCommands false)
        return (.call e args, c.endCommand)
      else return (e, c)

/-- Properties and argument lists behind an expression. -/
def suffixes : Nat → Expr → Cursor → Except Halt (Expr × Cursor)
  | 0, _, _ => .error .spent
  | n + 1, e, c =>
      if tape.kind c == .dot then do
        let (property, c) ← tape.expect .identifier .propertyName (tape.advance c)
        suffixes n (.member e (.identifier property.text)) c
      else if tape.kind c == .leftParen && e.isCallablePath then do
        let (args, c) ← arguments n c
        suffixes n (.call e args) c
      else .ok (e, c)

/-- The arguments of a command, each with an optional comma behind it. -/
def commandArguments : Nat → Cursor → Except Halt (List Expr × Cursor)
  | 0, _ => .error .spent
  | n + 1, c => do
      let (arg, c) ← binary n levels c
      let c := tape.skipComma c
      if tape.startsArgument c then
        let (more, c) ← commandArguments n c
        return (arg :: more, c)
      else return ([arg], c)

/-- The arguments in parentheses. Commands may be written in them. -/
def arguments : Nat → Cursor → Except Halt (List Expr × Cursor)
  | 0, _ => .error .spent
  | n + 1, c => do
      let inside := tape.skipNewlines ((tape.advance c).withCommands true)
      let (args, after) ←
        if tape.kind inside == .rightParen then .ok ([], tape.advance inside)
        else argumentList n inside
      return (args, after.withCommands c.commands)

/-- One or more arguments with commas between them and the closing parenthesis. -/
def argumentList : Nat → Cursor → Except Halt (List Expr × Cursor)
  | 0, _ => .error .spent
  | n + 1, c => do
      let (arg, c) ← expression n c
      let c := tape.skipNewlines c
      if tape.kind c == .comma then
        let (more, c) ← argumentList n (tape.skipNewlines (tape.advance c))
        return (arg :: more, c)
      else
        let (_, c) ← tape.expect .rightParen .argumentsEnd c
        return ([arg], c)

/-- A literal, a name or an expression in parentheses. Commands may be written in the latter. -/
def primary : Nat → Cursor → Except Halt (Expr × Cursor)
  | 0, _ => .error .spent
  | n + 1, c =>
      match tape.kind c with
      | .number =>
          match Decimal.read? (tape.current c).text.toList with
          | some value => .ok (.number value, tape.advance c)
          | none => tape.fail .number c
      | .string => .ok (.string (tape.current c).text, tape.advance c)
      | .hotkey => .ok (.hotkey (tape.current c).text, tape.advance c)
      | .identifier => .ok (.identifier (tape.current c).text, tape.advance c)
      | .leftParen => do
          let inside := tape.skipNewlines ((tape.advance c).withCommands true)
          let (e, after) ← expression n inside
          let (_, after) ←
            tape.expect .rightParen .parenEnd (tape.skipNewlines (after.withCommands c.commands))
          return (e, after)
      | _ => tape.fail .expression c

end

mutual

/-- A statement. -/
def statement : Nat → Cursor → Except Halt (Stmt × Cursor)
  | 0, _ => .error .spent
  | n + 1, c =>
      match tape.kind c with
      | .hotkey => do
          let hotkey := tape.current c
          let (_, c) ← tape.expect .arrow .arrow (tape.advance c)
          let (action, c) ← statement n (tape.skipNewlines c)
          return (.bind (.hotkey hotkey.text) action hotkey.pos.line, c)
      | .leftBrace => block n c
      | .letWord => do
          let (name, c) ← tape.expect .identifier .variableName (tape.advance c)
          if tape.kind c == .assign then
            let (value, c) ← tape.expression n (tape.skipNewlines (tape.advance c))
            return (.assign name.text (some value), c)
          else return (.assign name.text none, c)
      | .ifWord => branch n (tape.advance c)
      | .whileWord => do
          let (condition, c) ← tape.expression n (tape.advance c)
          let (body, c) ← block n (tape.skipNewlines c)
          return (.loop condition body, c)
      | .fnWord => do
          let (name, c) ← tape.expect .identifier .functionName (tape.advance c)
          let (_, c) ← tape.expect .leftParen .parametersStart c
          let (params, c) ← if tape.kind c == .rightParen then .ok ([], c) else tape.parameters c
          let (_, c) ← tape.expect .rightParen .parametersEnd c
          let (body, c) ← block n (tape.skipNewlines c)
          return (.function name.text params body, c)
      | .returnWord =>
          let next := tape.advance c
          match tape.kind next with
          | .newline => .ok (.leave none, next)
          | .semicolon => .ok (.leave none, next)
          | .rightBrace => .ok (.leave none, next)
          | .eof => .ok (.leave none, next)
          | _ => do
              let (value, c) ← tape.expression n next
              return (.leave (some value), c)
      | _ => do
          let (e, c) ← tape.expression n c
          return (.expr e, c)

/-- The rest of a conditional after its first word. -/
def branch : Nat → Cursor → Except Halt (Stmt × Cursor)
  | 0, _ => .error .spent
  | n + 1, c => do
      let (condition, c) ← tape.expression n c
      let (consequence, c) ← block n (tape.skipNewlines c)
      if tape.kindAfterNewlines c == .elseWord then
        let next := tape.skipNewlines (tape.advance (tape.skipNewlines c))
        let (alternative, c) ←
          if tape.kind next == .ifWord then branch n (tape.advance next) else block n next
        return (.branch condition consequence (some alternative), c)
      else return (.branch condition consequence none, c)

/-- Statements in braces. -/
def block : Nat → Cursor → Except Halt (Stmt × Cursor)
  | 0, _ => .error .spent
  | n + 1, c => do
      let (_, c) ← tape.expect .leftBrace .blockStart c
      let (body, c) ← blockTail n (tape.skipSeparators c)
      return (.block body, c)

/-- Statements up to a closing brace. -/
def blockTail : Nat → Cursor → Except Halt (List Stmt × Cursor)
  | 0, _ => .error .spent
  | n + 1, c =>
      if tape.kind c == .rightBrace then .ok ([], tape.advance c)
      else if tape.kind c == .eof then tape.fail .blockEnd c
      else do
        let (first, c) ← statement n c
        tape.statementEnd true c
        let (more, c) ← blockTail n (tape.skipSeparators c)
        return (first :: more, c)

end

/-- Statements up to an end token. -/
def statements : Nat → Cursor → Except Halt (List Stmt × Cursor)
  | 0, _ => .error .spent
  | n + 1, c =>
      if tape.kind c == .eof then .ok ([], c)
      else do
        let (first, c) ← tape.statement n c
        tape.statementEnd false c
        let (more, c) ← statements n (tape.skipSeparators c)
        return (first :: more, c)

/-- A program. -/
def program (n : Nat) (c : Cursor) : Except Halt (Program × Cursor) := do
  let (body, c) ← tape.statements n (tape.skipSeparators c)
  return (⟨body⟩, c)

/-! ## Progress -/

/-- What a parser may do to the cursor: it moves forward, no end token is passed, and whether
commands may be written is left as it was. -/
structure Moves (c c' : Cursor) : Prop where
  forward : c.position ≤ c'.position
  commands : c'.commands = c.commands
  held : ∀ e t, tape.tokens[e]? = some t → t.kind = .eof → c.position ≤ e → c'.position ≤ e

/-- The cursor moves by at least one token. -/
structure Advances (c c' : Cursor) : Prop extends tape.Moves c c' where
  lt : c.position < c'.position

section Steps

variable {tape : Tape} {c c₁ c₂ : Cursor} {commands : Bool}

theorem Moves.refl (c : Cursor) : tape.Moves c c :=
  ⟨Nat.le_refl _, rfl, fun _ _ _ _ h => h⟩

theorem Moves.trans (h : tape.Moves c c₁) (h' : tape.Moves c₁ c₂) : tape.Moves c c₂ :=
  ⟨Nat.le_trans h.forward h'.forward, h'.commands.trans h.commands,
    fun e t ht heof hle => h'.held e t ht heof (h.held e t ht heof hle)⟩

theorem Advances.trans (h : tape.Advances c c₁) (h' : tape.Moves c₁ c₂) : tape.Advances c c₂ :=
  ⟨h.toMoves.trans h', Nat.lt_of_lt_of_le h.lt h'.forward⟩

theorem Moves.advances (h : tape.Moves c c₁) (h' : tape.Advances c₁ c₂) : tape.Advances c c₂ :=
  ⟨h.trans h'.toMoves, Nat.lt_of_le_of_lt h.forward h'.lt⟩

/-- Commands are turned on or off for a while. -/
theorem Moves.around (h : tape.Moves (c.withCommands commands) c₁) {restored : Bool}
    (hrestored : restored = c.commands) : tape.Moves c (c₁.withCommands restored) :=
  ⟨h.forward, hrestored, h.held⟩

theorem Moves.endCommand (h : tape.Moves (c.withCommands commands) c₁)
    (hcommands : c.commands = true) : tape.Moves c c₁.endCommand :=
  ⟨h.forward, hcommands.symm, h.held⟩

theorem advance_advances (h : tape.kind c ≠ .eof) : tape.Advances c (tape.advance c) := by
  rw [tape.advance_of_ne h]
  refine ⟨⟨Nat.le_succ _, rfl, fun e t ht heof hle => ?_⟩, Nat.lt_succ_self _⟩
  -- The token at the cursor is no end token, so the end token is behind it.
  refine Nat.lt_of_le_of_ne hle ?_
  rintro rfl
  rw [tape.getElem?_position (tape.position_lt h)] at ht
  obtain rfl := Option.some.inj ht
  exact h heof

theorem advance_moves (tape : Tape) (c : Cursor) : tape.Moves c (tape.advance c) := by
  by_cases h : tape.kind c = .eof
  · rw [advance, if_pos (by simp [h])]
    exact .refl c
  · exact (advance_advances h).toMoves

theorem skip_moves (tape : Tape) (skips : Kind → Bool) (c : Cursor) :
    tape.Moves c (tape.skip skips c) := by
  fun_induction skip tape skips c with
  | case1 c hskip ih => exact (tape.advance_moves c).trans ih
  | case2 c hskip => exact .refl c

theorem skipNewlines_moves (tape : Tape) (c : Cursor) : tape.Moves c (tape.skipNewlines c) :=
  tape.skip_moves _ c

theorem skipSeparators_moves (tape : Tape) (c : Cursor) : tape.Moves c (tape.skipSeparators c) :=
  tape.skip_moves _ c

theorem skipComma_moves (tape : Tape) (c : Cursor) : tape.Moves c (tape.skipComma c) := by
  unfold skipComma
  split
  · exact tape.advance_moves c
  · exact .refl c

theorem afterPipe_moves (h : tape.afterPipe? c = some c₁) : tape.Moves c c₁ := by
  unfold afterPipe? at h
  split at h
  · cases h
    exact (tape.advance_moves c).trans (tape.skipNewlines_moves _)
  · split at h
    · cases h
      exact (tape.skipNewlines_moves c).trans
        ((tape.advance_moves _).trans (tape.skipNewlines_moves _))
    · cases h

theorem expect_advances {kind : Kind} {wanted : Wanted} {t : Token}
    (h : tape.expect kind wanted c = .ok (t, c₁)) (hkind : kind ≠ .eof) :
    tape.Advances c c₁ := by
  unfold expect at h
  split at h
  · rename_i heq
    cases h
    exact advance_advances (by rwa [beq_iff_eq.1 heq])
  · cases h

theorem parameters_moves {names : List String} (h : tape.parameters c = .ok (names, c₁)) :
    tape.Moves c c₁ := by
  fun_induction parameters tape c generalizing names c₁ with
  | case1 c hname hcomma ih =>
      obtain ⟨⟨more, c₂⟩, hmore, h⟩ := bind_eq_ok.1 h
      cases h
      exact (tape.advance_moves c).trans ((tape.advance_moves _).trans (ih hmore))
  | case2 c hname hcomma =>
      cases h
      exact tape.advance_moves c
  | case3 c hname => cases h

end Steps

variable {tape : Tape}

mutual

theorem expression_advances : ∀ {n : Nat} {c c' : Cursor} {e : Expr},
    tape.expression n c = .ok (e, c') → tape.Advances c c'
  | 0, _, _, _, h => nomatch h
  | n + 1, c, c', e, h => by
      unfold expression at h
      obtain ⟨⟨head, c₁⟩, hhead, h⟩ := bind_eq_ok.1 h
      obtain ⟨⟨stages, c₂⟩, htail, h⟩ := bind_eq_ok.1 h
      cases h
      exact (binary_advances hhead).trans (pipelineTail_moves htail)

theorem pipelineTail_moves : ∀ {n : Nat} {c c' : Cursor} {stages : List Expr},
    tape.pipelineTail n c = .ok (stages, c') → tape.Moves c c'
  | 0, _, _, _, h => nomatch h
  | n + 1, c, c', stages, h => by
      unfold pipelineTail at h
      split at h
      · cases h
        exact .refl c
      · rename_i next hpipe
        obtain ⟨⟨stage, c₁⟩, hstage, h⟩ := bind_eq_ok.1 h
        obtain ⟨⟨more, c₂⟩, htail, h⟩ := bind_eq_ok.1 h
        cases h
        exact (afterPipe_moves hpipe).trans
          ((binary_advances hstage).toMoves.trans (pipelineTail_moves htail))

theorem binary_advances : ∀ {n : Nat} {ops : List (List BinOp)} {c c' : Cursor} {e : Expr},
    tape.binary n ops c = .ok (e, c') → tape.Advances c c'
  | 0, _, _, _, _, h => nomatch h
  | n + 1, [], c, c', e, h => unary_advances h
  | n + 1, ops :: tighter, c, c', e, h => by
      unfold binary at h
      obtain ⟨⟨left, c₁⟩, hleft, h⟩ := bind_eq_ok.1 h
      exact (binary_advances hleft).trans (binaryTail_moves h)

theorem binaryTail_moves : ∀ {n : Nat} {ops : List BinOp} {tighter : List (List BinOp)}
    {left e : Expr} {c c' : Cursor},
    tape.binaryTail n ops tighter left c = .ok (e, c') → tape.Moves c c'
  | 0, _, _, _, _, _, _, h => nomatch h
  | n + 1, ops, tighter, left, e, c, c', h => by
      unfold binaryTail at h
      split at h
      · cases h
        exact .refl c
      · obtain ⟨⟨right, c₁⟩, hright, h⟩ := bind_eq_ok.1 h
        exact (tape.advance_moves c).trans ((tape.skipNewlines_moves _).trans
          ((binary_advances hright).toMoves.trans (binaryTail_moves h)))

theorem unary_advances : ∀ {n : Nat} {c c' : Cursor} {e : Expr},
    tape.unary n c = .ok (e, c') → tape.Advances c c'
  | 0, _, _, _, h => nomatch h
  | n + 1, c, c', e, h => by
      unfold unary at h
      split at h
      · obtain ⟨⟨operand, c₁⟩, hoperand, h⟩ := bind_eq_ok.1 h
        cases h
        exact (tape.advance_moves c).advances (unary_advances hoperand)
      · exact call_advances h

theorem call_advances : ∀ {n : Nat} {c c' : Cursor} {e : Expr},
    tape.call n c = .ok (e, c') → tape.Advances c c'
  | 0, _, _, _, h => nomatch h
  | n + 1, c, c', e, h => by
      unfold call at h
      obtain ⟨⟨head, c₁⟩, hhead, h⟩ := bind_eq_ok.1 h
      obtain ⟨⟨callee, c₂⟩, hsuffixes, h⟩ := bind_eq_ok.1 h
      have hcallee := (primary_advances hhead).trans (suffixes_moves hsuffixes)
      dsimp only at h
      split at h
      · rename_i hcommand
        have hcommands : c₂.commands = true :=
          (Bool.and_eq_true_iff.1 (Bool.and_eq_true_iff.1 hcommand).1).1
        obtain ⟨⟨args, c₃⟩, hargs, h⟩ := bind_eq_ok.1 h
        cases h
        -- Commands were on before their arguments, so they may be turned on behind them.
        exact hcallee.trans ((commandArguments_moves hargs).endCommand hcommands)
      · cases h
        exact hcallee

theorem suffixes_moves : ∀ {n : Nat} {head e : Expr} {c c' : Cursor},
    tape.suffixes n head c = .ok (e, c') → tape.Moves c c'
  | 0, _, _, _, _, h => nomatch h
  | n + 1, head, e, c, c', h => by
      unfold suffixes at h
      split at h
      · obtain ⟨⟨property, c₁⟩, hproperty, h⟩ := bind_eq_ok.1 h
        exact (tape.advance_moves c).trans
          ((expect_advances hproperty (by decide)).toMoves.trans (suffixes_moves h))
      split at h
      · obtain ⟨⟨args, c₁⟩, hargs, h⟩ := bind_eq_ok.1 h
        exact (arguments_moves hargs).trans (suffixes_moves h)
      · cases h
        exact .refl c

theorem commandArguments_moves : ∀ {n : Nat} {c c' : Cursor} {args : List Expr},
    tape.commandArguments n c = .ok (args, c') → tape.Moves c c'
  | 0, _, _, _, h => nomatch h
  | n + 1, c, c', args, h => by
      unfold commandArguments at h
      obtain ⟨⟨arg, c₁⟩, harg, h⟩ := bind_eq_ok.1 h
      have hcomma := (binary_advances harg).toMoves.trans (tape.skipComma_moves c₁)
      dsimp only at h
      split at h
      · obtain ⟨⟨more, c₂⟩, hmore, h⟩ := bind_eq_ok.1 h
        cases h
        exact hcomma.trans (commandArguments_moves hmore)
      · cases h
        exact hcomma

theorem arguments_moves : ∀ {n : Nat} {c c' : Cursor} {args : List Expr},
    tape.arguments n c = .ok (args, c') → tape.Moves c c'
  | 0, _, _, _, h => nomatch h
  | n + 1, c, c', args, h => by
      unfold arguments at h
      have hopen := tape.advance_moves c
      have hinside := tape.skipNewlines_moves ((tape.advance c).withCommands true)
      dsimp only at h
      split at h
      · obtain ⟨⟨_, c₁⟩, hclose, h⟩ := bind_eq_ok.1 h
        cases hclose
        cases h
        exact hopen.trans ((hinside.trans (tape.advance_moves _)).around hopen.commands.symm)
      · obtain ⟨⟨_, c₁⟩, hlist, h⟩ := bind_eq_ok.1 h
        cases h
        exact hopen.trans ((hinside.trans (argumentList_moves hlist)).around hopen.commands.symm)

theorem argumentList_moves : ∀ {n : Nat} {c c' : Cursor} {args : List Expr},
    tape.argumentList n c = .ok (args, c') → tape.Moves c c'
  | 0, _, _, _, h => nomatch h
  | n + 1, c, c', args, h => by
      unfold argumentList at h
      obtain ⟨⟨arg, c₁⟩, harg, h⟩ := bind_eq_ok.1 h
      have hskip := (expression_advances harg).toMoves.trans (tape.skipNewlines_moves c₁)
      dsimp only at h
      split at h
      · obtain ⟨⟨more, c₂⟩, hmore, h⟩ := bind_eq_ok.1 h
        cases h
        exact hskip.trans ((tape.advance_moves _).trans
          ((tape.skipNewlines_moves _).trans (argumentList_moves hmore)))
      · obtain ⟨⟨_, c₂⟩, hclose, h⟩ := bind_eq_ok.1 h
        cases h
        exact hskip.trans (expect_advances hclose (by decide)).toMoves

theorem primary_advances : ∀ {n : Nat} {c c' : Cursor} {e : Expr},
    tape.primary n c = .ok (e, c') → tape.Advances c c'
  | 0, _, _, _, h => nomatch h
  | n + 1, c, c', e, h => by
      unfold primary at h
      split at h
      all_goals rename_i hkind
      · split at h
        · cases h
          exact advance_advances (by rw [hkind]; decide)
        · cases h
      · cases h
        exact advance_advances (by rw [hkind]; decide)
      · cases h
        exact advance_advances (by rw [hkind]; decide)
      · cases h
        exact advance_advances (by rw [hkind]; decide)
      · obtain ⟨⟨inner, c₁⟩, hinner, h⟩ := bind_eq_ok.1 h
        obtain ⟨⟨_, c₂⟩, hclose, h⟩ := bind_eq_ok.1 h
        cases h
        have hopen : tape.Advances c (tape.advance c) :=
          advance_advances (by rw [hkind]; decide)
        have hinside := (tape.skipNewlines_moves _).trans (expression_advances hinner).toMoves
        have hclosed := (tape.skipNewlines_moves _).trans
          (expect_advances hclose (by decide)).toMoves
        exact hopen.trans ((hinside.around hopen.commands.symm).trans hclosed)
      · cases h

end

mutual

theorem statement_advances : ∀ {n : Nat} {c c' : Cursor} {s : Stmt},
    tape.statement n c = .ok (s, c') → tape.Advances c c'
  | 0, _, _, _, h => nomatch h
  | n + 1, c, c', s, h => by
      unfold statement at h
      have hfirst := tape.advance_moves c
      split at h
      · obtain ⟨⟨_, c₁⟩, harrow, h⟩ := bind_eq_ok.1 h
        obtain ⟨⟨action, c₂⟩, haction, h⟩ := bind_eq_ok.1 h
        cases h
        exact hfirst.advances ((expect_advances harrow (by decide)).trans
          ((tape.skipNewlines_moves c₁).trans (statement_advances haction).toMoves))
      · exact block_advances h
      · obtain ⟨⟨name, c₁⟩, hname, h⟩ := bind_eq_ok.1 h
        have hdeclared := hfirst.advances (expect_advances hname (by decide))
        dsimp only at h
        split at h
        · obtain ⟨⟨value, c₂⟩, hvalue, h⟩ := bind_eq_ok.1 h
          cases h
          exact hdeclared.trans ((tape.advance_moves c₁).trans
            ((tape.skipNewlines_moves _).trans (expression_advances hvalue).toMoves))
        · cases h
          exact hdeclared
      · exact hfirst.advances (branch_advances h)
      · obtain ⟨⟨condition, c₁⟩, hcondition, h⟩ := bind_eq_ok.1 h
        obtain ⟨⟨body, c₂⟩, hbody, h⟩ := bind_eq_ok.1 h
        cases h
        exact hfirst.advances ((expression_advances hcondition).trans
          ((tape.skipNewlines_moves c₁).trans (block_advances hbody).toMoves))
      · obtain ⟨⟨name, c₁⟩, hname, h⟩ := bind_eq_ok.1 h
        obtain ⟨⟨_, c₂⟩, hopen, h⟩ := bind_eq_ok.1 h
        have hopened := (hfirst.advances (expect_advances hname (by decide))).trans
          (expect_advances hopen (by decide)).toMoves
        have hbody : ∀ {params : List String} {c₃ : Cursor}, tape.Advances c c₃ →
            (do
              let (_, c₄) ← tape.expect .rightParen .parametersEnd c₃
              let (body, c₅) ← tape.block n (tape.skipNewlines c₄)
              return (Stmt.function name.text params body, c₅)) = .ok (s, c') →
            tape.Advances c c' := by
          intro params c₃ hadvances h
          obtain ⟨⟨_, c₄⟩, hclose, h⟩ := bind_eq_ok.1 h
          obtain ⟨⟨body, c₅⟩, hbody, h⟩ := bind_eq_ok.1 h
          cases h
          exact hadvances.trans ((expect_advances hclose (by decide)).toMoves.trans
            ((tape.skipNewlines_moves c₄).trans (block_advances hbody).toMoves))
        dsimp only at h
        split at h
        · exact hbody hopened h
        · obtain ⟨⟨params, c₃⟩, hparams, h⟩ := bind_eq_ok.1 h
          exact hbody (hopened.trans (parameters_moves hparams)) h
      · rename_i hkind
        have hreturn : tape.Advances c (tape.advance c) :=
          advance_advances (by rw [hkind]; decide)
        dsimp only at h
        split at h
        · cases h
          exact hreturn
        · cases h
          exact hreturn
        · cases h
          exact hreturn
        · cases h
          exact hreturn
        · obtain ⟨⟨value, c₁⟩, hvalue, h⟩ := bind_eq_ok.1 h
          cases h
          exact hreturn.trans (expression_advances hvalue).toMoves
      · obtain ⟨⟨e, c₁⟩, he, h⟩ := bind_eq_ok.1 h
        cases h
        exact expression_advances he

theorem branch_advances : ∀ {n : Nat} {c c' : Cursor} {s : Stmt},
    tape.branch n c = .ok (s, c') → tape.Advances c c'
  | 0, _, _, _, h => nomatch h
  | n + 1, c, c', s, h => by
      unfold branch at h
      obtain ⟨⟨condition, c₁⟩, hcondition, h⟩ := bind_eq_ok.1 h
      obtain ⟨⟨consequence, c₂⟩, hconsequence, h⟩ := bind_eq_ok.1 h
      have hbody := (expression_advances hcondition).trans
        ((tape.skipNewlines_moves c₁).trans (block_advances hconsequence).toMoves)
      have helse := (tape.skipNewlines_moves c₂).trans
        ((tape.advance_moves _).trans (tape.skipNewlines_moves _))
      dsimp only at h
      split at h
      · split at h
        · obtain ⟨⟨alternative, c₃⟩, halternative, h⟩ := bind_eq_ok.1 h
          cases h
          exact hbody.trans (helse.trans
            ((tape.advance_moves _).trans (branch_advances halternative).toMoves))
        · obtain ⟨⟨alternative, c₃⟩, halternative, h⟩ := bind_eq_ok.1 h
          cases h
          exact hbody.trans (helse.trans (block_advances halternative).toMoves)
      · cases h
        exact hbody

theorem block_advances : ∀ {n : Nat} {c c' : Cursor} {s : Stmt},
    tape.block n c = .ok (s, c') → tape.Advances c c'
  | 0, _, _, _, h => nomatch h
  | n + 1, c, c', s, h => by
      unfold block at h
      obtain ⟨⟨_, c₁⟩, hopen, h⟩ := bind_eq_ok.1 h
      obtain ⟨⟨body, c₂⟩, hbody, h⟩ := bind_eq_ok.1 h
      cases h
      exact (expect_advances hopen (by decide)).trans
        ((tape.skipSeparators_moves c₁).trans (blockTail_moves hbody))

theorem blockTail_moves : ∀ {n : Nat} {c c' : Cursor} {body : List Stmt},
    tape.blockTail n c = .ok (body, c') → tape.Moves c c'
  | 0, _, _, _, h => nomatch h
  | n + 1, c, c', body, h => by
      unfold blockTail at h
      split at h
      · cases h
        exact tape.advance_moves c
      split at h
      · cases h
      · obtain ⟨⟨first, c₁⟩, hfirst, h⟩ := bind_eq_ok.1 h
        obtain ⟨_, -, h⟩ := bind_eq_ok.1 h
        obtain ⟨⟨more, c₂⟩, hmore, h⟩ := bind_eq_ok.1 h
        cases h
        exact (statement_advances hfirst).toMoves.trans
          ((tape.skipSeparators_moves c₁).trans (blockTail_moves hmore))

end

theorem statements_moves : ∀ {n : Nat} {c c' : Cursor} {body : List Stmt},
    tape.statements n c = .ok (body, c') → tape.Moves c c'
  | 0, _, _, _, h => nomatch h
  | n + 1, c, c', body, h => by
      unfold statements at h
      split at h
      · cases h
        exact .refl c
      · obtain ⟨⟨first, c₁⟩, hfirst, h⟩ := bind_eq_ok.1 h
        obtain ⟨_, -, h⟩ := bind_eq_ok.1 h
        obtain ⟨⟨more, c₂⟩, hmore, h⟩ := bind_eq_ok.1 h
        cases h
        exact (statement_advances hfirst).toMoves.trans
          ((tape.skipSeparators_moves c₁).trans (statements_moves hmore))

theorem program_moves {n : Nat} {c c' : Cursor} {p : Program}
    (h : tape.program n c = .ok (p, c')) : tape.Moves c c' := by
  obtain ⟨⟨body, c₁⟩, hbody, h⟩ := bind_eq_ok.1 h
  cases h
  exact (tape.skipSeparators_moves c).trans (statements_moves hbody)

/-- A parser that is called with the cursor at `c` succeeds and leaves it at `c'`. -/
inductive Succeeds (tape : Tape) (c c' : Cursor) : Prop
  | program {n : Nat} {p : Program} (h : tape.program n c = .ok (p, c'))
  | statement {n : Nat} {s : Stmt} (h : tape.statement n c = .ok (s, c'))
  | branch {n : Nat} {s : Stmt} (h : tape.branch n c = .ok (s, c'))
  | block {n : Nat} {s : Stmt} (h : tape.block n c = .ok (s, c'))
  | parameters {names : List String} (h : tape.parameters c = .ok (names, c'))
  | expression {n : Nat} {e : Expr} (h : tape.expression n c = .ok (e, c'))
  | binary {n : Nat} {ops : List (List BinOp)} {e : Expr} (h : tape.binary n ops c = .ok (e, c'))
  | unary {n : Nat} {e : Expr} (h : tape.unary n c = .ok (e, c'))
  | call {n : Nat} {e : Expr} (h : tape.call n c = .ok (e, c'))
  | arguments {n : Nat} {args : List Expr} (h : tape.arguments n c = .ok (args, c'))
  | argumentList {n : Nat} {args : List Expr} (h : tape.argumentList n c = .ok (args, c'))
  | primary {n : Nat} {e : Expr} (h : tape.primary n c = .ok (e, c'))

theorem Succeeds.moves {c c' : Cursor} : tape.Succeeds c c' → tape.Moves c c'
  | .program h => program_moves h
  | .statement h => (statement_advances h).toMoves
  | .branch h => (branch_advances h).toMoves
  | .block h => (block_advances h).toMoves
  | .parameters h => parameters_moves h
  | .expression h => (expression_advances h).toMoves
  | .binary h => (binary_advances h).toMoves
  | .unary h => (unary_advances h).toMoves
  | .call h => (call_advances h).toMoves
  | .arguments h => arguments_moves h
  | .argumentList h => argumentList_moves h
  | .primary h => (primary_advances h).toMoves

end Tape
end Chord
