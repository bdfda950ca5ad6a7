import Chord.Proofs.Script.Lookahead

/-!
# The shapes of trees that are read

The types of trees allow more than scripts can spell. What is read from tokens always has the shape
that evaluation and compilation count on.

**Input.** A list of tokens that can be read.

**Results.** `Expr.WellFormed` and `Stmt.WellFormed` describe the shape at every depth. The latter
takes a parameter that says what the text and the line of a bound hotkey come from. Every phrase of
the grammar stands for a tree of that shape (`Expression.wellFormed`, `Statement.wellFormed`), and
so does every statement of a program (`parse_wellFormed`). The hotkey of a binding is then found
among the tokens (`KeyIn`): an arrow follows it, though comments may stand between the two.
-/

namespace Chord

/-! ## Shapes -/

/-- A number that some text denotes. -/
def Decimal.Readable (x : Float) : Prop :=
  ∃ text : String, Decimal.read? text.toList = some x

theorem Decimal.readable_zero : Readable (Float.ofNat 0) :=
  ⟨"0", rfl⟩

/-- Expressions that scripts can spell. -/
inductive Expr.WellFormed : Expr → Prop
  | identifier (name : String) : WellFormed (.identifier name)
  | number {value : Float} : Decimal.Readable value → WellFormed (.number value)
  | string (value : String) : WellFormed (.string value)
  | hotkey (text : String) : WellFormed (.hotkey text)
  | binary {left right : Expr} (op : BinOp) :
      WellFormed left → WellFormed right → WellFormed (.binary left op right)
  | call {callee : Expr} {args : List Expr} :
      callee.isCallablePath = true → WellFormed callee → (∀ arg ∈ args, WellFormed arg) →
      WellFormed (.call callee args)
  | member {object : Expr} (name : String) :
      WellFormed object → WellFormed (.member object (.identifier name))
  | pipeline {stages : List Expr} :
      2 ≤ stages.length → (∀ stage ∈ stages, WellFormed stage) → WellFormed (.pipeline stages)

namespace Stmt

/-- Statements in braces. -/
def isBlock : Stmt → Bool
  | .block _ => true
  | _ => false

/-- Statements that can stand behind an `else`. -/
def isAlternative : Stmt → Bool
  | .block _ => true
  | .branch _ _ _ => true
  | _ => false

/-- Statements that scripts can spell, where `Key` says which hotkeys can be bound on which line. -/
inductive WellFormed (Key : String → Nat → Prop) : Stmt → Prop
  | bind {text : String} {action : Stmt} {line : Nat} :
      Key text line → WellFormed Key action → WellFormed Key (.bind (.hotkey text) action line)
  | block {body : List Stmt} : (∀ s ∈ body, WellFormed Key s) → WellFormed Key (.block body)
  | expr {value : Expr} : value.WellFormed → WellFormed Key (.expr value)
  | assign (name : String) {value : Expr} :
      value.WellFormed → WellFormed Key (.assign name (some value))
  | declare (name : String) : WellFormed Key (.assign name none)
  | branch {condition : Expr} {consequence : Stmt} :
      condition.WellFormed → consequence.isBlock = true → WellFormed Key consequence →
      WellFormed Key (.branch condition consequence none)
  | otherwise {condition : Expr} {consequence alternative : Stmt} :
      condition.WellFormed → consequence.isBlock = true → WellFormed Key consequence →
      alternative.isAlternative = true → WellFormed Key alternative →
      WellFormed Key (.branch condition consequence (some alternative))
  | loop {condition : Expr} {body : Stmt} :
      condition.WellFormed → body.isBlock = true → WellFormed Key body →
      WellFormed Key (.loop condition body)
  | leave {value : Expr} : value.WellFormed → WellFormed Key (.leave (some value))
  | leaveNull : WellFormed Key (.leave none)
  | function (name : String) (params : List String) {body : Stmt} :
      body.isBlock = true → WellFormed Key body → WellFormed Key (.function name params body)

theorem isAlternative_of_isBlock {s : Stmt} (h : s.isBlock = true) : s.isAlternative = true := by
  cases s with
  | block body => rfl
  | _ => cases h

theorem WellFormed.mono {Key Key' : String → Nat → Prop} {s : Stmt} (h : s.WellFormed Key)
    (hkey : ∀ text line, Key text line → Key' text line) : s.WellFormed Key' := by
  induction h with
  | bind hbound _ ih => exact .bind (hkey _ _ hbound) ih
  | block _ ih => exact .block ih
  | expr hvalue => exact .expr hvalue
  | assign name hvalue => exact .assign name hvalue
  | declare name => exact .declare name
  | branch hcondition hblock _ ih => exact .branch hcondition hblock ih
  | otherwise hcondition hblock _ halternative _ ih ih' =>
      exact .otherwise hcondition hblock ih halternative ih'
  | loop hcondition hblock _ ih => exact .loop hcondition hblock ih
  | leave hvalue => exact .leave hvalue
  | leaveNull => exact .leaveNull
  | function name params hblock _ ih => exact .function name params hblock ih

end Stmt

/-! ## Expressions -/

theorem Expr.WellFormed.ofStages {head : Expr} {stages : List Expr} (hhead : head.WellFormed)
    (hstages : ∀ stage ∈ stages, stage.WellFormed) :
    (Expr.ofStages (head :: stages)).WellFormed := by
  cases stages with
  | nil => exact hhead
  | cons stage more =>
      exact .pipeline (by simp) (List.forall_mem_cons.2 ⟨hhead, hstages⟩)

/-- A command that takes the stages behind it for itself stays a call of a name. -/
theorem Expr.WellFormed.assemble {head : Expr} {stages : List Expr} (hhead : head.WellFormed)
    (hstages : ∀ stage ∈ stages, stage.WellFormed) (isCommand : Bool) :
    (Parse.assemble head isCommand stages).WellFormed := by
  unfold Parse.assemble
  split
  · rename_i callee arg stage more
    cases hhead with
    | call hpath hcallee hargs =>
        have harg : arg.WellFormed := hargs arg (List.mem_singleton_self arg)
        exact .call hpath hcallee (List.forall_mem_singleton.2 (harg.ofStages hstages))
  · exact hhead.ofStages hstages

namespace Grammar

open Parse

mutual

theorem Expression.wellFormed {ts rest : List Token} {e : Expr} :
    Expression ts e rest → e.WellFormed
  | .stages hhead htail => hhead.wellFormed.assemble htail.wellFormed _

theorem PipelineTail.wellFormed {ts rest : List Token} {stages : List Expr} :
    PipelineTail ts stages rest → ∀ stage ∈ stages, stage.WellFormed
  | .nil _ => List.forall_mem_nil _
  | .cons _ hstage hmore => List.forall_mem_cons.2 ⟨hstage.wellFormed, hmore.wellFormed⟩

theorem Binary.wellFormed {ops : List (List BinOp)} {commands c : Bool} {ts rest : List Token}
    {e : Expr} : Binary ops commands ts e c rest → e.WellFormed
  | .operand hoperand => hoperand.wellFormed
  | .level hleft htail => htail.wellFormed hleft.wellFormed

theorem BinaryTail.wellFormed {ops : List BinOp} {tighter : List (List BinOp)}
    {commands c d : Bool} {ts rest : List Token} {left e : Expr} :
    BinaryTail ops tighter commands left c ts e d rest → left.WellFormed → e.WellFormed
  | .nil _, hleft => hleft
  | .cons _ hright htail, hleft => htail.wellFormed (.binary _ hleft hright.wellFormed)

theorem Unary.wellFormed {commands c : Bool} {ts rest : List Token} {e : Expr} :
    Unary commands ts e c rest → e.WellFormed
  | .minus _ _ hoperand => .binary _ (.number Decimal.readable_zero) hoperand.wellFormed
  | .call _ hcall => hcall.wellFormed

theorem Call.wellFormed {commands c : Bool} {ts rest : List Token} {e : Expr} :
    Call commands ts e c rest → e.WellFormed
  | .plain hhead hsuffixes _ => hsuffixes.wellFormed hhead.wellFormed
  | .command hhead hsuffixes hpath _ hargs =>
      .call hpath (hsuffixes.wellFormed hhead.wellFormed) hargs.wellFormed

theorem Suffixes.wellFormed {head e : Expr} {ts rest : List Token} :
    Suffixes head ts e rest → head.WellFormed → e.WellFormed
  | .nil _ _, hhead => hhead
  | .member _ _ hmore, hhead => hmore.wellFormed (.member _ hhead)
  | .call _ hpath hargs hmore, hhead => hmore.wellFormed (.call hpath hhead hargs.wellFormed)

theorem CommandArguments.wellFormed {ts rest : List Token} {args : List Expr} :
    CommandArguments ts args rest → ∀ arg ∈ args, arg.WellFormed
  | .last harg _ => List.forall_mem_singleton.2 harg.wellFormed
  | .cons harg _ hmore => List.forall_mem_cons.2 ⟨harg.wellFormed, hmore.wellFormed⟩

theorem Arguments.wellFormed {ts rest : List Token} {args : List Expr} :
    Arguments ts args rest → ∀ arg ∈ args, arg.WellFormed
  | .none _ _ => List.forall_mem_nil _
  | .some _ hlist => hlist.wellFormed

theorem ArgumentList.wellFormed {ts rest : List Token} {args : List Expr} :
    ArgumentList ts args rest → ∀ arg ∈ args, arg.WellFormed
  | .last harg _ _ => List.forall_mem_singleton.2 harg.wellFormed
  | .cons harg _ _ hmore => List.forall_mem_cons.2 ⟨harg.wellFormed, hmore.wellFormed⟩

theorem Primary.wellFormed {ts rest : List Token} {e : Expr} :
    Primary ts e rest → e.WellFormed
  | .number _ hvalue => .number ⟨_, hvalue⟩
  | .string _ => .string _
  | .hotkey _ => .hotkey _
  | .identifier _ => .identifier _
  | .paren _ hinner _ _ => hinner.wellFormed

end

end Grammar

/-! ## Hotkeys among tokens -/

/-- A hotkey token with this text and line, and an arrow behind it. Between the two stand only
tokens of the kinds in `gap`. -/
def KeyIn (gap : List Kind) (ts : List Token) (text : String) (line : Nat) : Prop :=
  ∃ before t between u after, ts = before ++ t :: (between ++ u :: after) ∧
    (∀ v ∈ between, v.kind ∈ gap) ∧ t.kind = .hotkey ∧ u.kind = .arrow ∧
    t.text = text ∧ t.pos.line = line

theorem KeyIn.of_suffix {gap : List Kind} {us ts : List Token} {text : String} {line : Nat}
    (h : KeyIn gap us text line) (hsuffix : us <:+ ts) : KeyIn gap ts text line := by
  obtain ⟨before, t, between, u, after, rfl, hkey⟩ := h
  obtain ⟨front, rfl⟩ := hsuffix
  exact ⟨front ++ before, t, between, u, after, (List.append_assoc _ _ _).symm, hkey⟩

theorem KeyIn.of_isPrefix {gap : List Kind} {us ts : List Token} {text : String} {line : Nat}
    (h : KeyIn gap us text line) (hfront : us <+: ts) : KeyIn gap ts text line := by
  obtain ⟨before, t, between, u, after, rfl, hkey⟩ := h
  obtain ⟨behind, rfl⟩ := hfront
  exact ⟨before, t, between, u, after ++ behind, by simp, hkey⟩

/-- Among all tokens, comments may stand between a hotkey and its arrow. -/
theorem KeyIn.of_filter {ts : List Token} {text : String} {line : Nat}
    (h : KeyIn [] (ts.filter fun t => t.kind != .comment) text line) :
    KeyIn [.comment] ts text line := by
  obtain ⟨before, t, between, u, after, hts, hgap, hkey⟩ := h
  obtain rfl : between = [] := List.eq_nil_iff_forall_not_mem.2 fun v hv => nomatch hgap v hv
  obtain ⟨before', ts', rfl, -, hts⟩ := List.filter_eq_append_iff.1 hts
  obtain ⟨skipped, ts', rfl, -, -, hts⟩ := List.filter_eq_cons_iff.1 hts
  obtain ⟨between, after', rfl, hcomments, -, -⟩ := List.filter_eq_cons_iff.1 hts
  refine ⟨before' ++ skipped, t, between, u, after', by simp, fun v hv => ?_, hkey⟩
  simpa using hcomments v hv

theorem Stmt.WellFormed.of_suffix {gap : List Kind} {us ts : List Token} {s : Stmt}
    (h : s.WellFormed (KeyIn gap us)) (hsuffix : us <:+ ts) : s.WellFormed (KeyIn gap ts) :=
  h.mono fun _ _ hkey => hkey.of_suffix hsuffix

/-! ## Statements -/

namespace Grammar

open Parse

theorem Takes.suffix {E P : List Token → List Token → Prop} {ts rest : List Token}
    (h : Takes E P ts rest) : rest <:+ ts := by
  obtain ⟨taken, rfl, -⟩ := h
  exact List.suffix_append taken rest

theorem skipNewlines_suffix (ts : List Token) : skipNewlines ts <:+ ts :=
  List.dropWhile_suffix _

theorem skipSeparators_suffix (ts : List Token) : skipSeparators ts <:+ ts :=
  List.dropWhile_suffix _

theorem suffix_of_skipNewlines {ts rest : List Token} {t : Token}
    (h : skipNewlines ts = t :: rest) : rest <:+ ts :=
  (h ▸ List.suffix_cons t rest).trans (skipNewlines_suffix ts)

theorem Block.isBlock {ts rest : List Token} {s : Stmt} (h : Block ts s rest) :
    s.isBlock = true := by
  cases h with
  | braces _ _ => rfl

theorem Branch.isAlternative {ts rest : List Token} {s : Stmt} (h : Branch ts s rest) :
    s.isAlternative = true := by
  cases h with
  | plain _ _ _ => rfl
  | chain _ _ _ _ _ _ _ => rfl
  | otherwise _ _ _ _ _ => rfl

mutual

theorem Statement.wellFormed {ts rest : List Token} {s : Stmt} :
    Statement ts s rest → s.WellFormed (KeyIn [] ts)
  | @Statement.bind t u ts _ _ hhotkey harrow haction => by
      have hkey : KeyIn [] (t :: u :: ts) t.text t.pos.line :=
        ⟨[], t, [], u, ts, rfl, List.forall_mem_nil _, hhotkey, harrow, rfl, rfl⟩
      exact .bind hkey (haction.wellFormed.of_suffix
        ((skipNewlines_suffix ts).trans (List.suffix_append [t, u] ts)))
  | .block hblock => hblock.wellFormed
  | .assign _ _ _ hvalue => .assign _ hvalue.wellFormed
  | .declare _ _ _ => .declare _
  | .branch _ hbranch => hbranch.wellFormed.of_suffix (List.suffix_cons _ _)
  | @Statement.loop t ts ts₁ _ _ _ _ hcondition hbody => by
      have hsuffix : skipNewlines ts₁ <:+ ts :=
        (skipNewlines_suffix ts₁).trans hcondition.takes.suffix
      exact .loop hcondition.wellFormed hbody.isBlock
        (hbody.wellFormed.of_suffix (hsuffix.trans (List.suffix_cons t ts)))
  | @Statement.function t u v ts ts₁ _ _ _ _ _ _ hparams hbody => by
      have hsuffix : skipNewlines ts₁ <:+ ts :=
        (skipNewlines_suffix ts₁).trans hparams.takes.suffix
      exact .function _ _ hbody.isBlock
        (hbody.wellFormed.of_suffix (hsuffix.trans (List.suffix_append [t, u, v] ts)))
  | .leave _ _ hvalue => .leave hvalue.wellFormed
  | .leaveNull _ _ => .leaveNull
  | .expr _ he => .expr he.wellFormed

theorem Branch.wellFormed {ts rest : List Token} {s : Stmt} :
    Branch ts s rest → s.WellFormed (KeyIn [] ts)
  | .plain hcondition hbody _ =>
      .branch hcondition.wellFormed hbody.isBlock
        (hbody.wellFormed.of_suffix ((skipNewlines_suffix _).trans hcondition.takes.suffix))
  | @Branch.chain ts ts₁ _ _ ts₃ _ _ _ _ _ _ hcondition hbody hskip _ hskip' _ halternative => by
      have hbodySuffix : skipNewlines ts₁ <:+ ts :=
        (skipNewlines_suffix ts₁).trans hcondition.takes.suffix
      have hsuffix : ts₃ <:+ ts :=
        (suffix_of_skipNewlines hskip).trans (hbody.takes.suffix.trans hbodySuffix)
      exact .otherwise hcondition.wellFormed hbody.isBlock (hbody.wellFormed.of_suffix hbodySuffix)
        halternative.isAlternative
        (halternative.wellFormed.of_suffix ((suffix_of_skipNewlines hskip').trans hsuffix))
  | @Branch.otherwise ts ts₁ _ _ ts₃ _ _ _ _ hcondition hbody hskip _ halternative => by
      have hbodySuffix : skipNewlines ts₁ <:+ ts :=
        (skipNewlines_suffix ts₁).trans hcondition.takes.suffix
      have hsuffix : ts₃ <:+ ts :=
        (suffix_of_skipNewlines hskip).trans (hbody.takes.suffix.trans hbodySuffix)
      exact .otherwise hcondition.wellFormed hbody.isBlock (hbody.wellFormed.of_suffix hbodySuffix)
        (Stmt.isAlternative_of_isBlock halternative.isBlock)
        (halternative.wellFormed.of_suffix ((skipNewlines_suffix ts₃).trans hsuffix))

theorem Block.wellFormed {ts rest : List Token} {s : Stmt} :
    Block ts s rest → s.WellFormed (KeyIn [] ts)
  | .braces _ hbody => .block fun s hs =>
      (hbody.wellFormed s hs).of_suffix ((skipSeparators_suffix _).trans (List.suffix_cons _ _))

theorem BlockTail.wellFormed {ts rest : List Token} {body : List Stmt} :
    BlockTail ts body rest → ∀ s ∈ body, s.WellFormed (KeyIn [] ts)
  | .nil _ => List.forall_mem_nil _
  | .cons _ hfirst _ hmore => List.forall_mem_cons.2 ⟨hfirst.wellFormed, fun s hs =>
      (hmore.wellFormed s hs).of_suffix ((skipSeparators_suffix _).trans hfirst.takes.suffix)⟩

end

theorem Statements.wellFormed {ts : List Token} {body : List Stmt} (h : Statements ts body) :
    ∀ s ∈ body, s.WellFormed (KeyIn [] ts) := by
  induction h with
  | nil => exact List.forall_mem_nil _
  | cons hfirst _ _ ih =>
      refine List.forall_mem_cons.2 ⟨hfirst.wellFormed, fun s hs => ?_⟩
      exact (ih s hs).of_suffix ((skipSeparators_suffix _).trans hfirst.takes.suffix)

end Grammar

/-- **Trees that are read have their shape**: every statement of a program is well-formed, and the
hotkey of every binding is a token of the list that an arrow follows, comments aside. -/
theorem parse_wellFormed {ts : List Token} {p : Program} (h : parse ts = .ok p) :
    ∀ s ∈ p.statements, s.WellFormed (KeyIn [.comment] ts) := by
  intro s hs
  refine ((parse_eq_ok_iff.1 h).wellFormed s hs).mono fun text line hkey => ?_
  -- Back from the tokens that are parsed to those of the list.
  have htokens := hkey.of_suffix (Grammar.skipSeparators_suffix (Stream.ofTokens ts).tokens)
  have hfront : (Stream.ofTokens ts).tokens <+: ts.filter fun t => t.kind != .comment :=
    List.takeWhile_prefix _
  exact (htokens.of_isPrefix hfront).of_filter

/-- A binding with a comment between its hotkey and its arrow. -/
def commentedBinding : List Token :=
  [⟨.hotkey, "F1", ⟨1, 1⟩⟩, ⟨.comment, "// c", ⟨1, 4⟩⟩, ⟨.arrow, "=>", ⟨2, 1⟩⟩,
    ⟨.leftBrace, "\x7b", ⟨2, 4⟩⟩, ⟨.rightBrace, "\x7d", ⟨2, 5⟩⟩]

theorem parse_wellFormed_commentedBinding :
    parse commentedBinding = .ok ⟨[.bind (.hotkey "F1") (.block []) 1]⟩ ∧
      (Stmt.bind (.hotkey "F1") (.block []) 1).WellFormed (KeyIn [.comment] commentedBinding) := by
  have hparse : parse commentedBinding = .ok ⟨[.bind (.hotkey "F1") (.block []) 1]⟩ := rfl
  exact ⟨hparse, parse_wellFormed hparse _ (List.mem_singleton_self _)⟩

/-- The hotkey of a binding need not stand right before its arrow. -/
theorem exists_key_apart_from_arrow :
    ∃ p : Program, parse commentedBinding = .ok p ∧
      ¬∀ s ∈ p.statements, s.WellFormed (KeyIn [] commentedBinding) := by
  refine ⟨⟨[.bind (.hotkey "F1") (.block []) 1]⟩, rfl, fun h => ?_⟩
  cases h _ (List.mem_singleton_self _) with
  | bind hkey _ =>
      obtain ⟨before, t, between, u, after, hts, hgap, hhotkey, harrow, -⟩ := hkey
      obtain rfl : between = [] := List.eq_nil_iff_forall_not_mem.2 fun v hv => nomatch hgap v hv
      cases before with
      | nil =>
          cases hts
          cases harrow
      | cons b before =>
          have hlater : ∀ v ∈ commentedBinding.tail, v.kind ≠ .hotkey := by decide
          exact hlater t (by rw [hts]; simp) hhotkey

end Chord
