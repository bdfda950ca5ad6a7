import Chord.Script.Parse

/-!
# The grammar of scripts

**Input.** Lists of tokens without comments and without an end token.

**Results.** One relation for each kind of phrase. `Expression ts e rest` says that `ts` begins with
an expression that stands for the tree `e` and that the tokens after it are `rest`; the relations of
the other phrases are read in the same way. Nothing in them depends on how deep a parser may descend
or on the token that ends the script.

Every phrase takes up tokens: `Expression.length_lt`, `Statement.length_lt` and their companions.
-/

namespace Chord
namespace Grammar

open Parse

/-! ## Expressions -/

mutual

/-- A pipeline of one or more stages. -/
inductive Expression : List Token → Expr → List Token → Prop
  | stages {ts ts₁ rest head c stages} :
      Binary levels true ts head c ts₁ → PipelineTail ts₁ stages rest →
      Expression ts (assemble head c stages) rest

/-- The stages after the first one. -/
inductive PipelineTail : List Token → List Expr → List Token → Prop
  | nil {ts} : afterPipe? ts = none → PipelineTail ts [] ts
  | cons {ts ts₁ ts₂ rest stage c more} :
      afterPipe? ts = some ts₁ → Binary levels true ts₁ stage c ts₂ → PipelineTail ts₂ more rest →
      PipelineTail ts (stage :: more) rest

/-- Operands joined by the operators of some levels. The last but one index tells whether the
phrase is a command. -/
inductive Binary : List (List BinOp) → Bool → List Token → Expr → Bool → List Token → Prop
  | operand {commands ts e c rest} :
      Unary commands ts e c rest → Binary [] commands ts e c rest
  | level {ops tighter commands ts ts₁ rest left c e d} :
      Binary tighter commands ts left c ts₁ → BinaryTail ops tighter commands left c ts₁ e d rest →
      Binary (ops :: tighter) commands ts e d rest

/-- The operators of one level and their right operands after a left operand. -/
inductive BinaryTail : List BinOp → List (List BinOp) → Bool → Expr → Bool → List Token → Expr →
    Bool → List Token → Prop
  | nil {ops tighter commands left c ts} :
      afterOperator? ops ts = none → BinaryTail ops tighter commands left c ts left c ts
  | cons {ops tighter commands left c op right c' ts ts₁ ts₂ rest e d} :
      afterOperator? ops ts = some (op, ts₁) → Binary tighter commands ts₁ right c' ts₂ →
      BinaryTail ops tighter commands (.binary left op right) false ts₂ e d rest →
      BinaryTail ops tighter commands left c ts e d rest

/-- An operand after any number of minus signs. -/
inductive Unary : Bool → List Token → Expr → Bool → List Token → Prop
  | minus {commands t ts rest e c} :
      t.kind = .operator → t.text = "-" → Unary commands ts e c rest →
      Unary commands (t :: ts) (.binary (.number (Float.ofNat 0)) .subtract e) false rest
  | call {commands ts rest e c} :
      (∀ t ∈ ts.head?, ¬(t.kind = .operator ∧ t.text = "-")) → Call commands ts e c rest →
      Unary commands ts e c rest

/-- A primary expression with what is behind it, and the arguments of a command. -/
inductive Call : Bool → List Token → Expr → Bool → List Token → Prop
  | plain {commands ts ts₁ rest head e} :
      Primary ts head ts₁ → Suffixes head ts₁ e rest →
      ¬(commands = true ∧ e.isCallablePath = true ∧ startsArgument rest = true) →
      Call commands ts e false rest
  | command {ts ts₁ ts₂ rest head callee args} :
      Primary ts head ts₁ → Suffixes head ts₁ callee ts₂ →
      callee.isCallablePath = true → startsArgument ts₂ = true → CommandArguments ts₂ args rest →
      Call true ts (.call callee args) true rest

/-- Properties and argument lists behind an expression. -/
inductive Suffixes : Expr → List Token → Expr → List Token → Prop
  | nil {e ts} :
      kindOf ts ≠ .dot → ¬(kindOf ts = .leftParen ∧ e.isCallablePath = true) → Suffixes e ts e ts
  | member {head t u ts e rest} :
      t.kind = .dot → u.kind = .identifier →
      Suffixes (.member head (.identifier u.text)) ts e rest → Suffixes head (t :: u :: ts) e rest
  | call {head t ts ts₁ args e rest} :
      t.kind = .leftParen → head.isCallablePath = true → Arguments ts args ts₁ →
      Suffixes (.call head args) ts₁ e rest → Suffixes head (t :: ts) e rest

/-- The arguments of a command, each with an optional comma behind it. -/
inductive CommandArguments : List Token → List Expr → List Token → Prop
  | last {ts ts₁ arg c} :
      Binary levels false ts arg c ts₁ → startsArgument (skipComma ts₁) = false →
      CommandArguments ts [arg] (skipComma ts₁)
  | cons {ts ts₁ rest arg c more} :
      Binary levels false ts arg c ts₁ → startsArgument (skipComma ts₁) = true →
      CommandArguments (skipComma ts₁) more rest → CommandArguments ts (arg :: more) rest

/-- The arguments behind an opening parenthesis. -/
inductive Arguments : List Token → List Expr → List Token → Prop
  | none {ts t rest} : skipNewlines ts = t :: rest → t.kind = .rightParen → Arguments ts [] rest
  | some {ts args rest} :
      kindOf (skipNewlines ts) ≠ .rightParen → ArgumentList (skipNewlines ts) args rest →
      Arguments ts args rest

/-- One or more arguments with commas between them and the closing parenthesis. -/
inductive ArgumentList : List Token → List Expr → List Token → Prop
  | last {ts ts₁ t rest arg} :
      Expression ts arg ts₁ → skipNewlines ts₁ = t :: rest → t.kind = .rightParen →
      ArgumentList ts [arg] rest
  | cons {ts ts₁ t ts₂ rest arg more} :
      Expression ts arg ts₁ → skipNewlines ts₁ = t :: ts₂ → t.kind = .comma →
      ArgumentList (skipNewlines ts₂) more rest → ArgumentList ts (arg :: more) rest

/-- A literal, a name or an expression in parentheses. -/
inductive Primary : List Token → Expr → List Token → Prop
  | number {t rest value} :
      t.kind = .number → Decimal.read? t.text.toList = some value →
      Primary (t :: rest) (.number value) rest
  | string {t rest} : t.kind = .string → Primary (t :: rest) (.string t.text) rest
  | hotkey {t rest} : t.kind = .hotkey → Primary (t :: rest) (.hotkey t.text) rest
  | identifier {t rest} : t.kind = .identifier → Primary (t :: rest) (.identifier t.text) rest
  | paren {t ts ts₁ u rest e} :
      t.kind = .leftParen → Expression (skipNewlines ts) e ts₁ → skipNewlines ts₁ = u :: rest →
      u.kind = .rightParen → Primary (t :: ts) e rest

end

/-! ## Statements -/

/-- Parameter names with commas between them. -/
inductive Names : List Token → List String → List Token → Prop
  | last {t rest} : t.kind = .identifier → kindOf rest ≠ .comma → Names (t :: rest) [t.text] rest
  | cons {t u ts names rest} :
      t.kind = .identifier → u.kind = .comma → Names ts names rest →
      Names (t :: u :: ts) (t.text :: names) rest

/-- The parameters of a function with the closing parenthesis. -/
inductive Parameters : List Token → List String → List Token → Prop
  | none {t rest} : t.kind = .rightParen → Parameters (t :: rest) [] rest
  | some {ts names t rest} :
      Names ts names (t :: rest) → t.kind = .rightParen → Parameters ts names rest

/-- The kinds of token with which a statement begins that is no expression. -/
def openings : List Kind :=
  [.hotkey, .leftBrace, .letWord, .ifWord, .whileWord, .fnWord, .returnWord]

/-- What can stand behind a statement on the top level. -/
def endings : List Kind :=
  [.newline, .semicolon, .eof]

mutual

/-- A statement. -/
inductive Statement : List Token → Stmt → List Token → Prop
  | bind {t u ts action rest} :
      t.kind = .hotkey → u.kind = .arrow → Statement (skipNewlines ts) action rest →
      Statement (t :: u :: ts) (.bind (.hotkey t.text) action t.pos.line) rest
  | block {ts s rest} : Block ts s rest → Statement ts s rest
  | assign {t u v ts value rest} :
      t.kind = .letWord → u.kind = .identifier → v.kind = .assign →
      Expression (skipNewlines ts) value rest →
      Statement (t :: u :: v :: ts) (.assign u.text (some value)) rest
  | declare {t u rest} :
      t.kind = .letWord → u.kind = .identifier → kindOf rest ≠ .assign →
      Statement (t :: u :: rest) (.assign u.text none) rest
  | branch {t ts s rest} : t.kind = .ifWord → Branch ts s rest → Statement (t :: ts) s rest
  | loop {t ts ts₁ rest condition body} :
      t.kind = .whileWord → Expression ts condition ts₁ → Block (skipNewlines ts₁) body rest →
      Statement (t :: ts) (.loop condition body) rest
  | function {t u v ts ts₁ rest params body} :
      t.kind = .fnWord → u.kind = .identifier → v.kind = .leftParen → Parameters ts params ts₁ →
      Block (skipNewlines ts₁) body rest →
      Statement (t :: u :: v :: ts) (.function u.text params body) rest
  | leave {t ts value rest} :
      t.kind = .returnWord → kindOf ts ∉ .rightBrace :: endings → Expression ts value rest →
      Statement (t :: ts) (.leave (some value)) rest
  | leaveNull {t rest} :
      t.kind = .returnWord → kindOf rest ∈ .rightBrace :: endings →
      Statement (t :: rest) (.leave none) rest
  | expr {ts e rest} : kindOf ts ∉ openings → Expression ts e rest → Statement ts (.expr e) rest

/-- The rest of a conditional after its first word. -/
inductive Branch : List Token → Stmt → List Token → Prop
  | plain {ts ts₁ rest condition body} :
      Expression ts condition ts₁ → Block (skipNewlines ts₁) body rest →
      kindOf (skipNewlines rest) ≠ .elseWord → Branch ts (.branch condition body none) rest
  | chain {ts ts₁ ts₂ t ts₃ u ts₄ rest condition body alternative} :
      Expression ts condition ts₁ → Block (skipNewlines ts₁) body ts₂ →
      skipNewlines ts₂ = t :: ts₃ → t.kind = .elseWord → skipNewlines ts₃ = u :: ts₄ →
      u.kind = .ifWord → Branch ts₄ alternative rest →
      Branch ts (.branch condition body (some alternative)) rest
  | otherwise {ts ts₁ ts₂ t ts₃ rest condition body alternative} :
      Expression ts condition ts₁ → Block (skipNewlines ts₁) body ts₂ →
      skipNewlines ts₂ = t :: ts₃ → t.kind = .elseWord → Block (skipNewlines ts₃) alternative rest →
      Branch ts (.branch condition body (some alternative)) rest

/-- Statements in braces. -/
inductive Block : List Token → Stmt → List Token → Prop
  | braces {t ts body rest} :
      t.kind = .leftBrace → BlockTail (skipSeparators ts) body rest →
      Block (t :: ts) (.block body) rest

/-- Statements up to a closing brace. -/
inductive BlockTail : List Token → List Stmt → List Token → Prop
  | nil {t rest} : t.kind = .rightBrace → BlockTail (t :: rest) [] rest
  | cons {ts ts₁ rest s body} :
      kindOf ts ≠ .rightBrace → Statement ts s ts₁ → kindOf ts₁ ∈ .rightBrace :: endings →
      BlockTail (skipSeparators ts₁) body rest → BlockTail ts (s :: body) rest

end

/-- Statements up to the end of the script. -/
inductive Statements : List Token → List Stmt → Prop
  | nil : Statements [] []
  | cons {ts ts₁ s body} :
      Statement ts s ts₁ → kindOf ts₁ ∈ endings → Statements (skipSeparators ts₁) body →
      Statements ts (s :: body)

theorem Statements.exists_statement {ts : List Token} {body : List Stmt} (h : Statements ts body)
    {s : Stmt} (hs : s ∈ body) : ∃ ts' rest, Statement ts' s rest := by
  induction h with
  | nil => cases hs
  | cons hfirst _ _ ih =>
      rcases List.mem_cons.1 hs with rfl | hs
      · exact ⟨_, _, hfirst⟩
      · exact ih hs

/-! ## Phrases take up tokens -/

theorem skipNewlines_length_le (ts : List Token) : (skipNewlines ts).length ≤ ts.length :=
  (List.dropWhile_suffix _).length_le

theorem skipSeparators_length_le (ts : List Token) : (skipSeparators ts).length ≤ ts.length :=
  (List.dropWhile_suffix _).length_le

theorem skipComma_length_le (ts : List Token) : (skipComma ts).length ≤ ts.length := by
  cases ts with
  | nil => exact Nat.le_refl _
  | cons t ts =>
      simp only [skipComma]
      split
      · exact Nat.le_succ _
      · exact Nat.le_refl _

theorem length_lt_of_skipNewlines {ts : List Token} {t : Token} {rest : List Token}
    (h : skipNewlines ts = t :: rest) : rest.length < ts.length := by
  have hle := skipNewlines_length_le ts
  rw [h] at hle
  exact hle

theorem afterPipe?_eq_some {ts rest : List Token} :
    afterPipe? ts = some rest ↔
      ∃ t after, skipNewlines ts = t :: after ∧ t.kind = .pipe ∧ skipNewlines after = rest := by
  unfold afterPipe?
  cases skipNewlines ts with
  | nil => simp
  | cons t after => simp [and_assoc]

theorem afterOperator?_eq_some {ops : List BinOp} {ts rest : List Token} {op : BinOp} :
    afterOperator? ops ts = some (op, rest) ↔
      ∃ t after, ts = t :: after ∧ t.kind = .operator ∧ BinOp.ofSymbol? t.text = some op ∧
        ops.contains op = true ∧ skipNewlines after = rest := by
  cases ts with
  | nil => simp [afterOperator?]
  | cons t ts =>
      cases hop : BinOp.ofSymbol? t.text with
      | none => simp [afterOperator?, hop]
      | some op' =>
          simp only [afterOperator?, hop, Option.ite_none_right_eq_some, beq_iff_eq]
          constructor
          · rintro ⟨hkind, hmem, heq⟩
            cases heq
            exact ⟨t, ts, rfl, hkind, hop, hmem, rfl⟩
          · rintro ⟨t', after, heq, hkind, hop', hmem, rfl⟩
            cases heq
            rw [hop] at hop'
            cases hop'
            exact ⟨hkind, hmem, rfl⟩

theorem length_lt_of_afterPipe {ts rest : List Token} (h : afterPipe? ts = some rest) :
    rest.length < ts.length := by
  obtain ⟨t, after, hskip, -, rfl⟩ := afterPipe?_eq_some.1 h
  exact Nat.lt_of_le_of_lt (skipNewlines_length_le after) (length_lt_of_skipNewlines hskip)

theorem length_lt_of_afterOperator {ops : List BinOp} {ts rest : List Token} {op : BinOp}
    (h : afterOperator? ops ts = some (op, rest)) : rest.length < ts.length := by
  obtain ⟨t, after, rfl, -, -, -, rfl⟩ := afterOperator?_eq_some.1 h
  exact Nat.lt_succ_of_le (skipNewlines_length_le after)

mutual

theorem Expression.length_lt {ts rest : List Token} {e : Expr} :
    Expression ts e rest → rest.length < ts.length
  | .stages hhead htail => Nat.lt_of_le_of_lt htail.length_le hhead.length_lt

theorem PipelineTail.length_le {ts rest : List Token} {stages : List Expr} :
    PipelineTail ts stages rest → rest.length ≤ ts.length
  | .nil _ => Nat.le_refl _
  | .cons hpipe hstage htail => by
      have hpipeLt := length_lt_of_afterPipe hpipe
      have hstageLt := hstage.length_lt
      have htailLe := htail.length_le
      omega

theorem Binary.length_lt {ops : List (List BinOp)} {commands c : Bool} {ts rest : List Token}
    {e : Expr} : Binary ops commands ts e c rest → rest.length < ts.length
  | .operand hoperand => hoperand.length_lt
  | .level hleft htail => Nat.lt_of_le_of_lt htail.length_le hleft.length_lt

theorem BinaryTail.length_le {ops : List BinOp} {tighter : List (List BinOp)}
    {commands c d : Bool} {ts rest : List Token} {left e : Expr} :
    BinaryTail ops tighter commands left c ts e d rest → rest.length ≤ ts.length
  | .nil _ => Nat.le_refl _
  | .cons hop hright htail => by
      have hopLt := length_lt_of_afterOperator hop
      have hrightLt := hright.length_lt
      have htailLe := htail.length_le
      omega

theorem Unary.length_lt {commands c : Bool} {ts rest : List Token} {e : Expr} :
    Unary commands ts e c rest → rest.length < ts.length
  | .minus _ _ hoperand => Nat.lt_succ_of_lt hoperand.length_lt
  | .call _ hcall => hcall.length_lt

theorem Call.length_lt {commands c : Bool} {ts rest : List Token} {e : Expr} :
    Call commands ts e c rest → rest.length < ts.length
  | .plain hhead hsuffixes _ => Nat.lt_of_le_of_lt hsuffixes.length_le hhead.length_lt
  | .command hhead hsuffixes _ _ hargs => by
      have hheadLt := hhead.length_lt
      have hsuffixesLe := hsuffixes.length_le
      have hargLt := hargs.length_lt
      omega

theorem Suffixes.length_le {head e : Expr} {ts rest : List Token} :
    Suffixes head ts e rest → rest.length ≤ ts.length
  | .nil _ _ => Nat.le_refl _
  | .member _ _ hmore => Nat.le_succ_of_le (Nat.le_succ_of_le hmore.length_le)
  | .call _ _ hargs hmore => by
      have hargLt := hargs.length_lt
      have hmoreLt := hmore.length_le
      simp only [List.length_cons]
      omega

theorem CommandArguments.length_lt {ts rest : List Token} {args : List Expr} :
    CommandArguments ts args rest → rest.length < ts.length
  | .last harg _ => Nat.lt_of_le_of_lt (skipComma_length_le _) harg.length_lt
  | .cons harg _ hmore => by
      have hargLt := harg.length_lt
      have hmoreLt := Nat.lt_of_lt_of_le hmore.length_lt (skipComma_length_le _)
      omega

theorem Arguments.length_lt {ts rest : List Token} {args : List Expr} :
    Arguments ts args rest → rest.length < ts.length
  | .none hskip _ => length_lt_of_skipNewlines hskip
  | .some _ hlist => Nat.lt_of_lt_of_le hlist.length_lt (skipNewlines_length_le ts)

theorem ArgumentList.length_lt {ts rest : List Token} {args : List Expr} :
    ArgumentList ts args rest → rest.length < ts.length
  | .last harg hskip _ => Nat.lt_trans (length_lt_of_skipNewlines hskip) harg.length_lt
  | .cons harg hskip _ hmore => by
      have hargLt := harg.length_lt
      have hskipLt := length_lt_of_skipNewlines hskip
      have hmoreLt := Nat.lt_of_lt_of_le hmore.length_lt (skipNewlines_length_le _)
      omega

theorem Primary.length_lt {ts rest : List Token} {e : Expr} :
    Primary ts e rest → rest.length < ts.length
  | .number _ _ => Nat.lt_succ_self _
  | .string _ => Nat.lt_succ_self _
  | .hotkey _ => Nat.lt_succ_self _
  | .identifier _ => Nat.lt_succ_self _
  | .paren _ hinner hskip _ => by
      have hinnerLt := Nat.lt_of_lt_of_le hinner.length_lt (skipNewlines_length_le _)
      have hskipLt := length_lt_of_skipNewlines hskip
      simp only [List.length_cons]
      omega

end

theorem Names.length_lt {ts rest : List Token} {names : List String}
    (h : Names ts names rest) : rest.length < ts.length := by
  induction h with
  | last _ _ => exact Nat.lt_succ_self _
  | cons _ _ _ ih => exact Nat.lt_succ_of_lt (Nat.lt_succ_of_lt ih)

theorem Parameters.length_lt {ts rest : List Token} {names : List String}
    (h : Parameters ts names rest) : rest.length < ts.length := by
  cases h with
  | none _ => exact Nat.lt_succ_self _
  | some hnames _ => exact Nat.lt_trans (Nat.lt_succ_self _) hnames.length_lt

mutual

theorem Statement.length_lt {ts rest : List Token} {s : Stmt} :
    Statement ts s rest → rest.length < ts.length
  | .bind _ _ haction => by
      have hactionLt := Nat.lt_of_lt_of_le haction.length_lt (skipNewlines_length_le _)
      simp only [List.length_cons]
      omega
  | .block hblock => hblock.length_lt
  | .assign _ _ _ hvalue => by
      have hvalueLt := Nat.lt_of_lt_of_le hvalue.length_lt (skipNewlines_length_le _)
      simp only [List.length_cons]
      omega
  | .declare _ _ _ => Nat.lt_succ_of_lt (Nat.lt_succ_self _)
  | .branch _ hbranch => Nat.lt_succ_of_lt hbranch.length_lt
  | .loop _ hcondition hbody => by
      have hconditionLt := hcondition.length_lt
      have hbodyLt := Nat.lt_of_lt_of_le hbody.length_lt (skipNewlines_length_le _)
      simp only [List.length_cons]
      omega
  | .function _ _ _ hparams hbody => by
      have hparamsLt := hparams.length_lt
      have hbodyLt := Nat.lt_of_lt_of_le hbody.length_lt (skipNewlines_length_le _)
      simp only [List.length_cons]
      omega
  | .leave _ _ hvalue => Nat.lt_succ_of_lt hvalue.length_lt
  | .leaveNull _ _ => Nat.lt_succ_self _
  | .expr _ he => he.length_lt

theorem Branch.length_lt {ts rest : List Token} {s : Stmt} :
    Branch ts s rest → rest.length < ts.length
  | .plain hcondition hbody _ => by
      have hconditionLt := hcondition.length_lt
      have hbodyLt := Nat.lt_of_lt_of_le hbody.length_lt (skipNewlines_length_le _)
      omega
  | .chain hcondition hbody helse _ hif _ hbranch => by
      have hconditionLt := hcondition.length_lt
      have hbodyLt := Nat.lt_of_lt_of_le hbody.length_lt (skipNewlines_length_le _)
      have helseLt := length_lt_of_skipNewlines helse
      have hifLt := length_lt_of_skipNewlines hif
      have hbranchLt := hbranch.length_lt
      omega
  | .otherwise hcondition hbody helse _ halternative => by
      have hconditionLt := hcondition.length_lt
      have hbodyLt := Nat.lt_of_lt_of_le hbody.length_lt (skipNewlines_length_le _)
      have helseLt := length_lt_of_skipNewlines helse
      have halternativeLt := Nat.lt_of_lt_of_le halternative.length_lt (skipNewlines_length_le _)
      omega

theorem Block.length_lt {ts rest : List Token} {s : Stmt} :
    Block ts s rest → rest.length < ts.length
  | .braces _ hbody =>
      Nat.lt_succ_of_lt (Nat.lt_of_lt_of_le hbody.length_lt (skipSeparators_length_le _))

theorem BlockTail.length_lt {ts rest : List Token} {body : List Stmt} :
    BlockTail ts body rest → rest.length < ts.length
  | .nil _ => Nat.lt_succ_self _
  | .cons _ hfirst _ hmore => by
      have hfirstLt := hfirst.length_lt
      have hmoreLt := Nat.lt_of_lt_of_le hmore.length_lt (skipSeparators_length_le _)
      omega

end

end Grammar
end Chord
