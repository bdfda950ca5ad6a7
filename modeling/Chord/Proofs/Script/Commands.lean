import Chord.Proofs.Script.Writing

/-!
# Commands

A call may be written as a command: a path and its arguments behind it, with no parentheses and
with commas or without them.

**Input.** The names of the path, the arguments and the stages of the pipeline behind them, each
with its tokens. The commas behind arguments and the newlines around pipes are part of the input.
An argument or a stage may be in any tokens that are read as operands and operators when they stand
alone (`Phrase`).

**Results.** `Command.parses_call`: the parts in a row are read as the call. Stages behind it go to
the argument if there is only one and to the call otherwise; with parentheses around the arguments
they always go to the call. `Phrase.ofWellFormed`: what is written for an operand is a phrase.
-/

namespace Chord
namespace Grammar

open Parse

/-! ## Parts of commands -/

/-- The tokens of one kind. -/
abbrev TokenOf (kind : Kind) : Type :=
  { t : Token // t.kind = kind }

/-- Names with dots between them. -/
structure Path where
  first : TokenOf .identifier
  more : List (TokenOf .dot × TokenOf .identifier)

/-- Tokens that stand for operands joined by operators when they stand alone. -/
structure Phrase (commands : Bool) where
  tokens : List Token
  value : Expr
  reads : ∃ c, Binary levels commands tokens value c []

/-- An argument of a command and the comma that may stand behind it. -/
structure Argument extends Phrase false where
  starts : startsArgument tokens = true
  comma : Option (TokenOf .comma)

/-- A stage of a pipeline with the pipe in front of it, which newlines may surround. -/
structure Stage extends Phrase true where
  before : List (TokenOf .newline)
  pipe : TokenOf .pipe
  behind : List (TokenOf .newline)

/-- A path and one or more arguments. -/
structure Command where
  path : Path
  first : Argument
  more : List Argument

namespace Path

/-- The dot and the name that lengthen a path. -/
def linkTokens (link : TokenOf .dot × TokenOf .identifier) : List Token :=
  [link.1.val, link.2.val]

/-- The tokens of a path. -/
def tokens (p : Path) : List Token :=
  p.first.val :: p.more.flatMap linkTokens

/-- The member of an object that a dot and a name select. -/
def member (object : Expr) (link : TokenOf .dot × TokenOf .identifier) : Expr :=
  .member object (.identifier link.2.val.text)

/-- The expression that a path is read as. -/
def value (p : Path) : Expr :=
  p.more.foldl member (.identifier p.first.val.text)

end Path

/-- The tokens of an argument, and its comma. -/
def Argument.written (a : Argument) : List Token :=
  a.tokens ++ (a.comma.map Subtype.val).toList

/-- The tokens of a stage, from the newlines in front of its pipe. -/
def Stage.written (s : Stage) : List Token :=
  s.before.map Subtype.val ++ s.pipe.val :: (s.behind.map Subtype.val ++ s.tokens)

namespace Command

/-- All arguments of a command. -/
def arguments (k : Command) : List Argument :=
  k.first :: k.more

/-- The call that a command stands for. -/
def call (k : Command) : Expr :=
  .call k.path.value (k.arguments.map (·.value))

/-- The arguments behind the path. -/
def tokens (k : Command) : List Token :=
  k.path.tokens ++ k.arguments.flatMap Argument.written

/-- The arguments in parentheses behind the path, with a comma in front of each but the first. -/
def enclosed (k : Command) (opening : TokenOf .leftParen) (comma : Argument → TokenOf .comma)
    (closing : TokenOf .rightParen) : List Token :=
  k.path.tokens ++ opening.val ::
    (k.first.tokens ++ (k.more.flatMap fun a => (comma a).val :: a.tokens) ++ [closing.val])

/-- A command at the head of a pipeline. The only argument of a command goes through the stages; the
result of a command with several arguments does. -/
def piped (k : Command) (stages : List Expr) : Expr :=
  match stages, k.more with
  | [], _ => k.call
  | stages, [] => .call k.path.value [.pipeline (k.first.value :: stages)]
  | stages, _ :: _ => .pipeline (k.call :: stages)

end Command

/-- The kinds of token that continue an operand. -/
def continuations : List Kind :=
  [.dot, .leftParen, .operator]

/-- The kinds of token that end a command. -/
def commandEnds : List Kind :=
  [.newline, .semicolon, .rightParen, .rightBrace, .leftBrace, .eof, .pipe]

/-! ## Phrases in their places -/

section Phrases

variable {rest : List Token}

theorem stopsOperand_of_notMem {commands : Bool} {r : List Token}
    (hkind : kindOf rest ∉ continuations)
    (hcommands : commands = true → startsArgument rest = false ∧ kindOf rest ≠ .comma) :
    StopsOperand commands r rest where
  kind k hk _ heq := hkind (by
    rw [heq]
    exact (List.sublist_append_left _ [Kind.operator]).subset hk)
  operator _ _ := afterOperator?_eq_none_of_kindOf fun heq => hkind (by rw [heq]; decide)
  argument h _ := (hcommands h).1
  comma h _ := (hcommands h).2

theorem startsArgument_eq_false_of_notMem (h : kindOf rest ∉ argumentStarts) :
    startsArgument rest = false :=
  Bool.eq_false_iff.2 fun hstarts => h (startsArgument_iff.1 hstarts)

/-- A phrase is read in front of everything that ends it. -/
theorem Phrase.reads_append {commands : Bool} (p : Phrase commands)
    (h : StopsOperand commands [] rest) :
    ∃ c, Binary levels commands (p.tokens ++ rest) p.value c rest := by
  obtain ⟨c, hreads⟩ := p.reads
  obtain ⟨taken, heq, -, hagain⟩ := hreads.takesOperand
  rw [heq, List.append_nil]
  exact ⟨c, hagain rest h⟩

/-- Behind an operand stands no argument if none stands behind the operators that follow it. -/
theorem BinaryTail.startsArgument_eq_false {ops : List BinOp} {tighter : List (List BinOp)}
    {commands c d : Bool} {left e : Expr} {ts : List Token}
    (h : BinaryTail ops tighter commands left c ts e d rest)
    (hrest : startsArgument rest = false) : startsArgument ts = false := by
  cases h with
  | nil _ => exact hrest
  | cons hop _ _ =>
      obtain ⟨t, after, rfl, hkind, -⟩ := afterOperator?_eq_some.1 hop
      exact startsArgument_eq_false_of_notMem (by rw [kindOf_cons, hkind]; decide)

-- A command begins only where an argument stands behind a path. Where the tokens are taken up as
-- operands and operators, none does.
mutual

theorem Binary.allowCommands {ops : List (List BinOp)} {commands c : Bool} {ts rest : List Token}
    {e : Expr} : Binary ops commands ts e c rest → startsArgument rest = false →
      Binary ops true ts e c rest
  | .operand hoperand, hrest => .operand (hoperand.allowCommands hrest)
  | .level hleft htail, hrest =>
      .level (hleft.allowCommands (htail.startsArgument_eq_false hrest)) (htail.allowCommands hrest)

theorem BinaryTail.allowCommands {ops : List BinOp} {tighter : List (List BinOp)}
    {commands c d : Bool} {left e : Expr} {ts rest : List Token} :
    BinaryTail ops tighter commands left c ts e d rest → startsArgument rest = false →
      BinaryTail ops tighter true left c ts e d rest
  | .nil hop, _ => .nil hop
  | .cons hop hright htail, hrest =>
      .cons hop (hright.allowCommands (htail.startsArgument_eq_false hrest))
        (htail.allowCommands hrest)

theorem Unary.allowCommands {commands c : Bool} {ts rest : List Token} {e : Expr} :
    Unary commands ts e c rest → startsArgument rest = false → Unary true ts e c rest
  | .minus hkind htext hoperand, hrest => .minus hkind htext (hoperand.allowCommands hrest)
  | .call hfirst hcall, hrest => .call hfirst (hcall.allowCommands hrest)

theorem Call.allowCommands {commands c : Bool} {ts rest : List Token} {e : Expr} :
    Call commands ts e c rest → startsArgument rest = false → Call true ts e c rest
  | .plain hhead hsuffixes _, hrest =>
      .plain hhead hsuffixes fun ⟨_, _, hstarts⟩ => by rw [hrest] at hstarts; cases hstarts
  | .command hhead hsuffixes hpath hstarts hargs, _ =>
      .command hhead hsuffixes hpath hstarts hargs

end

/-- Where commands are allowed, a phrase without them is the same phrase. -/
def Phrase.allowCommands (p : Phrase false) : Phrase true where
  tokens := p.tokens
  value := p.value
  reads := p.reads.imp fun _ h => h.allowCommands rfl

/-- What is written for an operand is a phrase. -/
def Phrase.ofWellFormed (numerals : Numerals) {e : Expr} (h : e.WellFormed) : Phrase false where
  tokens := e.tokens numerals 1
  value := e
  reads := by
    have hreads : ReadsBack numerals e := .of_wellFormed h
    have hoperand := hreads.operand 0 false [] (.closed (by decide))
    rw [List.append_nil] at hoperand
    exact ⟨false, hoperand⟩

theorem assemble_nil (head : Expr) (isCommand : Bool) : assemble head isCommand [] = head := by
  unfold assemble
  split
  · contradiction
  · rfl

/-- In parentheses or between commas a phrase is an expression. -/
theorem Phrase.expression (p : Phrase false) (hrest : kindOf rest ∈ [Kind.comma, .rightParen]) :
    Expression (p.tokens ++ rest) p.value rest := by
  have hapart : ∀ k ∈ [Kind.comma, .rightParen], k ∉ continuations ∧
      k ∉ argumentStarts ∧ k ≠ .newline ∧ k ≠ .pipe := by decide
  obtain ⟨hoperand, hargument, hnewline, hpipe⟩ := hapart _ hrest
  obtain ⟨c, hreads⟩ := p.reads_append (stopsOperand_of_notMem hoperand nofun)
  have hhead := hreads.allowCommands (startsArgument_eq_false_of_notMem hargument)
  have htail : PipelineTail rest [] rest :=
    .nil (afterPipe?_eq_none.2 (by rwa [skipNewlines_of_kindOf_ne hnewline]))
  have hwhole := Expression.stages hhead htail
  rwa [assemble_nil] at hwhole

end Phrases

/-! ## Calls -/

section Calls

variable {rest : List Token}

theorem Path.isCallablePath_foldl {head : Expr} (hhead : head.isCallablePath = true)
    (more : List (TokenOf .dot × TokenOf .identifier)) :
    (more.foldl Path.member head).isCallablePath = true := by
  induction more generalizing head with
  | nil => exact hhead
  | cons link more ih => exact ih rfl

theorem Path.isCallablePath_value (p : Path) : p.value.isCallablePath = true :=
  Path.isCallablePath_foldl rfl p.more

theorem Path.suffixes_foldl {head e : Expr} {x : List Token}
    (more : List (TokenOf .dot × TokenOf .identifier))
    (h : Suffixes (more.foldl Path.member head) x e rest) :
    Suffixes head (more.flatMap Path.linkTokens ++ x) e rest := by
  induction more generalizing head with
  | nil => exact h
  | cons link more ih => exact .member link.1.property link.2.property (ih h)

/-- A path is read name by name, and properties and argument lists may follow. -/
theorem Path.reads (p : Path) : ReadsPath p.tokens p.value := fun _ _ _ hsuffixes =>
  ⟨_, _, .identifier p.first.property, Path.suffixes_foldl p.more hsuffixes⟩

/-- An argument is read with the comma behind it. -/
theorem Argument.reads_written (a : Argument)
    (hrest : kindOf rest ∈ argumentStarts ++ commandEnds) :
    ∃ c ts, Binary levels false (a.written ++ rest) a.value c ts ∧ skipComma ts = rest := by
  have hapart : ∀ k ∈ argumentStarts ++ commandEnds, k ∉ continuations ∧ k ≠ .comma := by decide
  obtain ⟨hoperand, hcomma⟩ := hapart _ hrest
  unfold Argument.written
  cases a.comma with
  | none =>
      obtain ⟨c, hreads⟩ := a.reads_append (stopsOperand_of_notMem hoperand nofun)
      refine ⟨c, rest, ?_, skipComma_of_kindOf_ne hcomma⟩
      simpa using hreads
  | some comma =>
      have hkind : kindOf (comma.val :: rest) ∉ continuations := by
        rw [kindOf_cons, comma.property]
        decide
      obtain ⟨c, hreads⟩ := a.reads_append (stopsOperand_of_notMem hkind nofun)
      refine ⟨c, comma.val :: rest, ?_, skipComma_cons_of_comma comma.property rest⟩
      simpa using hreads

theorem Argument.startsArgument_written (a : Argument) (x : List Token) :
    startsArgument (a.written ++ x) = true := by
  have hstarts := a.starts
  unfold Argument.written
  cases htokens : a.tokens with
  | nil =>
      rw [htokens] at hstarts
      cases hstarts
  | cons t ts =>
      rw [htokens] at hstarts
      exact hstarts

/-- Arguments in a row are the arguments of a command. -/
theorem CommandArguments.written (hrest : kindOf rest ∈ commandEnds) (first : Argument)
    (more : List Argument) :
    CommandArguments ((first :: more).flatMap Argument.written ++ rest)
      ((first :: more).map (·.value)) rest := by
  induction more generalizing first with
  | nil =>
      obtain ⟨c, ts, hreads, hskip⟩ := first.reads_written (List.mem_append_right _ hrest)
      have hends : ∀ k ∈ commandEnds, k ∉ argumentStarts := by decide
      have hlast : startsArgument (skipComma ts) = false := by
        rw [hskip]
        exact startsArgument_eq_false_of_notMem (hends _ hrest)
      have hlist := CommandArguments.last hreads hlast
      rwa [hskip, ← List.flatMap_singleton Argument.written first] at hlist
  | cons next more ih =>
      have hstarts : startsArgument ((next :: more).flatMap Argument.written ++ rest) = true := by
        rw [List.flatMap_cons, List.append_assoc]
        exact next.startsArgument_written _
      obtain ⟨c, ts, hreads, hskip⟩ :=
        first.reads_written (List.mem_append_left _ (startsArgument_iff.1 hstarts))
      rw [List.flatMap_cons, List.append_assoc]
      exact .cons hreads (hskip ▸ hstarts) (hskip ▸ ih next)

/-- A call at the end of an expression is an operand of the operators of all levels. -/
theorem Primary.operand {commands c : Bool} {ts ts₁ : List Token} {head e : Expr}
    (hhead : Primary ts head ts₁) (hcall : Call commands ts e c rest)
    (hrest : kindOf rest ∈ commandEnds) (i : Nat) :
    Binary (levels.drop i) commands ts e c rest := by
  have hends : ∀ k ∈ commandEnds, k ≠ .operator := by decide
  have hbinary := (Binary.operand (hhead.unary hcall)).loosen (levels.drop i)
    fun _ _ => afterOperator?_eq_none_of_kindOf (hends _ hrest)
  rwa [List.append_nil] at hbinary

theorem Command.binary (k : Command) (hrest : kindOf rest ∈ commandEnds) (i : Nat) :
    Binary (levels.drop i) true (k.tokens ++ rest) k.call true rest := by
  have hargs := CommandArguments.written hrest k.first k.more
  have hstarts : startsArgument (k.arguments.flatMap Argument.written ++ rest) = true := by
    rw [Command.arguments, List.flatMap_cons, List.append_assoc]
    exact k.first.startsArgument_written _
  have hapart : ∀ l ∈ argumentStarts, l ≠ .dot ∧ l ≠ .leftParen := by decide
  obtain ⟨hdot, hparen⟩ := hapart _ (startsArgument_iff.1 hstarts)
  obtain ⟨head, m, hhead, hsuffixes⟩ := k.path.reads _ _ _ (.nil hdot fun h => hparen h.1)
  have hcall := Call.command hhead hsuffixes k.path.isCallablePath_value hstarts hargs
  rw [Command.tokens, List.append_assoc]
  exact hhead.operand hcall hrest i

theorem Command.binary_enclosed (k : Command) (opening : TokenOf .leftParen)
    (comma : Argument → TokenOf .comma) (closing : TokenOf .rightParen)
    (hrest : kindOf rest ∈ commandEnds) (i : Nat) :
    Binary (levels.drop i) true (k.enclosed opening comma closing ++ rest) k.call false rest := by
  have hlist := ArgumentList.joined (fun a : Argument => a.tokens) (fun a => a.value)
    (fun a => (comma a).property) closing.property (x := rest) k.first k.more
    fun a _ _ hrest => a.expression hrest
  have hapart : ∀ l ∈ commandEnds, l ≠ .dot ∧ l ≠ .leftParen := by decide
  obtain ⟨hdot, hparen⟩ := hapart _ hrest
  have hsuffixes := Suffixes.call opening.property k.path.isCallablePath_value hlist.arguments
    (.nil hdot fun h => hparen h.1)
  obtain ⟨head, m, hhead, hmore⟩ := k.path.reads _ _ _ hsuffixes
  -- The call is no path any more, so that nothing behind it is taken for its argument.
  have hcall : Call true _ k.call false rest := .plain hhead hmore fun h => by cases h.2.1
  have hbinary := hhead.operand hcall hrest i
  simpa [Command.enclosed] using hbinary

end Calls

/-! ## Pipelines -/

section Pipelines

variable {rest : List Token}

theorem Stage.kindOf_mem (hrest : kindOf rest ∈ commandEnds) (stages : List Stage) :
    kindOf (stages.flatMap Stage.written ++ rest) ∈ commandEnds := by
  cases stages with
  | nil => exact hrest
  | cons stage more =>
      rw [List.flatMap_cons, Stage.written]
      cases stage.before with
      | nil => simp [stage.pipe.property, commandEnds]
      | cons newline _ => simp [newline.property, commandEnds]

theorem skipNewlines_append (newlines : List (TokenOf .newline)) (ts : List Token) :
    skipNewlines (newlines.map Subtype.val ++ ts) = skipNewlines ts := by
  refine List.dropWhile_append_of_pos fun t ht => ?_
  obtain ⟨newline, -, rfl⟩ := List.mem_map.1 ht
  simp [newline.property]

theorem Stage.afterPipe?_written (s : Stage) {x : List Token}
    (hx : kindOf (s.tokens ++ x) ∈ beginnings) :
    afterPipe? (s.written ++ x) = some (s.tokens ++ x) := by
  have hpipe : s.pipe.val.kind ≠ .newline := by simp [s.pipe.property]
  refine afterPipe?_eq_some.2 ⟨_, s.behind.map Subtype.val ++ (s.tokens ++ x), ?_,
    s.pipe.property, ?_⟩
  · rw [Stage.written, List.append_assoc, skipNewlines_append, List.cons_append, List.append_assoc,
      skipNewlines_cons_of_ne hpipe]
  · rw [skipNewlines_append, skipNewlines_of_beginning hx]

/-- Stages in a row are the stages of a pipeline. -/
theorem PipelineTail.written (hrest : kindOf rest ∈ commandEnds) (hpipe : afterPipe? rest = none)
    (stages : List Stage) :
    PipelineTail (stages.flatMap Stage.written ++ rest) (stages.map (·.value)) rest := by
  have hapart : ∀ k ∈ commandEnds, k ∉ continuations ∧ k ∉ argumentStarts ∧ k ≠ .comma := by
    decide
  induction stages with
  | nil => exact .nil hpipe
  | cons stage more ih =>
      obtain ⟨hoperand, hargument, hcomma⟩ := hapart _ (Stage.kindOf_mem hrest more)
      obtain ⟨c, hreads⟩ := stage.reads_append (stopsOperand_of_notMem hoperand fun _ =>
        ⟨startsArgument_eq_false_of_notMem hargument, hcomma⟩)
      rw [List.flatMap_cons, List.append_assoc]
      exact .cons (stage.afterPipe?_written hreads.kindOf_mem) hreads ih

theorem Command.assemble_call (k : Command) (stages : List Expr) :
    assemble k.call true stages = k.piped stages := by
  obtain ⟨path, first, more⟩ := k
  cases stages <;> cases more <;> rfl

/-- **Commands are calls**: where commands are allowed, a path and the arguments behind it are read
as the call. The stages behind a command with one argument are applied to the argument, those behind
a command with several arguments to its result, and those behind arguments in parentheses always to
the result. -/
theorem Command.parses_call (k : Command) (stages : List Stage) (opening : TokenOf .leftParen)
    (comma : Argument → TokenOf .comma) (closing : TokenOf .rightParen)
    (hrest : kindOf rest ∈ commandEnds) (stop : Token) (n : Nat) :
    (∀ i, 16 * (k.tokens ++ rest).length + (levels.drop i).length + 4 ≤ n →
      Parse.binary stop n (levels.drop i) true (k.tokens ++ rest) = .ok ((k.call, true), rest)) ∧
    (afterPipe? rest = none →
      (16 * (k.tokens ++ (stages.flatMap Stage.written ++ rest)).length + 11 ≤ n →
        expression stop n (k.tokens ++ (stages.flatMap Stage.written ++ rest)) =
          .ok (k.piped (stages.map (·.value)), rest)) ∧
      (16 * (k.enclosed opening comma closing ++
          (stages.flatMap Stage.written ++ rest)).length + 11 ≤ n →
        expression stop n
            (k.enclosed opening comma closing ++ (stages.flatMap Stage.written ++ rest)) =
          .ok (.ofStages (k.call :: stages.map (·.value)), rest))) := by
  have hends := Stage.kindOf_mem hrest stages
  refine ⟨fun i hn => (k.binary hrest i).parses stop n hn, fun hpipe => ⟨fun hn => ?_, ?_⟩⟩
  · have hwhole := Expression.stages (k.binary hends 0) (.written hrest hpipe stages)
    rw [k.assemble_call] at hwhole
    exact hwhole.parses stop n hn
  · have hwhole := Expression.stages (k.binary_enclosed opening comma closing hends 0)
      (.written hrest hpipe stages)
    exact hwhole.parses stop n

/-- A command whose only argument has a comma behind it. -/
def announce (numerals : Numerals) : Command where
  path := ⟨⟨word .identifier "ui", rfl⟩, [(⟨word .dot ".", rfl⟩, ⟨word .identifier "say", rfl⟩)]⟩
  first :=
    { Phrase.ofWellFormed numerals (.string "ready") with
      starts := by
        show startsArgument (Expr.tokens _ _ _) = true
        rw [Expr.tokens]
        rfl
      comma := some ⟨word .comma ",", rfl⟩ }
  more := []

/-- A stage with newlines around the pipe. -/
def onNextLine (numerals : Numerals) : Stage :=
  { (Phrase.ofWellFormed numerals (.identifier "upper")).allowCommands with
    before := [⟨word .newline "\n", rfl⟩]
    pipe := ⟨word .pipe "|", rfl⟩
    behind := [⟨word .newline "\n", rfl⟩] }

theorem announce_parses :
    kindOf [word .rightBrace "\x7d"] ∈ commandEnds ∧
    afterPipe? [word .rightBrace "\x7d"] = none ∧
    expression (word .eof "") 200
      [word .identifier "ui", word .dot ".", word .identifier "say", word .string "ready",
        word .comma ",", word .newline "\n", word .pipe "|", word .newline "\n",
        word .identifier "upper", word .rightBrace "\x7d"] =
      .ok (.call (.member (.identifier "ui") (.identifier "say"))
        [.pipeline [.string "ready", .identifier "upper"]], [word .rightBrace "\x7d"]) := by
  have htokens : (announce .chosen).tokens = [word .identifier "ui", word .dot ".",
      word .identifier "say", word .string "ready", word .comma ","] := by
    show [_, _, _] ++ List.flatMap _ [_] = _
    simp [announce, Argument.written, Phrase.ofWellFormed, Expr.tokens]
  have hstage : (onNextLine .chosen).written = [word .newline "\n", word .pipe "|",
      word .newline "\n", word .identifier "upper"] := by
    simp [onNextLine, Stage.written, Phrase.allowCommands, Phrase.ofWellFormed, Expr.tokens]
  have hrest : kindOf [word .rightBrace "\x7d"] ∈ commandEnds := by decide
  have hparses := ((announce .chosen).parses_call [onNextLine .chosen] ⟨word .leftParen "(", rfl⟩
    (fun _ => ⟨word .comma ",", rfl⟩) ⟨word .rightParen ")", rfl⟩ hrest (word .eof "") 200).2 rfl
  have hexpression := hparses.1
  rw [List.flatMap_singleton, htokens, hstage] at hexpression
  exact ⟨hrest, rfl, hexpression (by decide)⟩

end Pipelines

end Grammar
end Chord
