import Chord.Proofs.Script.Reading
import Chord.Proofs.Token.Joining

/-!
# Scripts one after the other

**Input.** The texts of two scripts that can be read.

**Results.** `Grammar.Statement.spliced` and its companions: a phrase stays a phrase when it is
moved down and other tokens come behind it, as long as these begin on a new line and with neither a
pipe nor an alternative. `Grammar.Statements.append` puts the statements of two scripts together,
and `parseSource_joined` says it of their texts.
-/

namespace Chord

/-! ## Moving statements -/

/-- A statement some lines further down. -/
def Stmt.moved (lines : Nat) : Stmt → Stmt
  | .bind hotkey action line => .bind hotkey (action.moved lines) (line + lines)
  | .block body => .block (body.map fun s => s.moved lines)
  | .branch condition consequence none => .branch condition (consequence.moved lines) none
  | .branch condition consequence (some alternative) =>
      .branch condition (consequence.moved lines) (some (alternative.moved lines))
  | .loop condition body => .loop condition (body.moved lines)
  | .function name params body => .function name params (body.moved lines)
  | .expr value => .expr value
  | .assign name value => .assign name value
  | .leave value => .leave value

theorem Stmt.moved_zero : (s : Stmt) → s.moved 0 = s
  | .bind _ action _ => by rw [Stmt.moved, moved_zero action, Nat.add_zero]
  | .block body => by
      rw [Stmt.moved, List.map_congr_left fun s _ => moved_zero s, List.map_id']
  | .branch _ consequence none => by rw [Stmt.moved, moved_zero consequence]
  | .branch _ consequence (some alternative) => by
      rw [Stmt.moved, moved_zero consequence, moved_zero alternative]
  | .loop _ body => by rw [Stmt.moved, moved_zero body]
  | .function _ _ body => by rw [Stmt.moved, moved_zero body]
  | .expr _ => by rw [Stmt.moved]
  | .assign _ _ => by rw [Stmt.moved]
  | .leave _ => by rw [Stmt.moved]

/-! ## Spliced tokens -/

/-- Tokens moved down, and others behind them. -/
def spliced (lines : Nat) (tail ts : List Token) : List Token :=
  ts.map (Token.moved lines) ++ tail

@[simp] theorem spliced_nil (lines : Nat) (tail : List Token) : spliced lines tail [] = tail :=
  rfl

@[simp] theorem spliced_cons (lines : Nat) (tail : List Token) (t : Token) (ts : List Token) :
    spliced lines tail (t :: ts) = t.moved lines :: spliced lines tail ts :=
  rfl

/-- Tokens before which every phrase ends: a new line begins, or there are none, and the line does
not go on with what came before. -/
structure Detached (tail : List Token) : Prop where
  first : Parse.kindOf tail = .newline ∨ Parse.kindOf tail = .eof
  visible : Parse.kindOf (Parse.skipNewlines tail) ∉ [.pipe, .elseWord]

namespace Parse

section Spliced

variable {lines : Nat} {tail ts : List Token}

theorem kindOf_spliced (hts : ts ≠ []) : kindOf (spliced lines tail ts) = kindOf ts := by
  cases ts with
  | nil => exact absurd rfl hts
  | cons t ts => rfl

theorem head?_spliced (hts : ts ≠ []) :
    (spliced lines tail ts).head? = ts.head?.map (Token.moved lines) := by
  cases ts with
  | nil => exact absurd rfl hts
  | cons t ts => rfl

/-- Nothing that treats a newline like the end can tell where the tokens end. -/
theorem kindOf_spliced_iff {P : Kind → Prop} (hP : P .newline ↔ P .eof) (htail : Detached tail) :
    P (kindOf (spliced lines tail ts)) ↔ P (kindOf ts) := by
  cases ts with
  | nil =>
      rw [spliced_nil, kindOf_nil]
      rcases htail.first with hfirst | hfirst
      · rw [hfirst, hP]
      · rw [hfirst]
  | cons t ts => exact Iff.rfl

theorem startsArgument_spliced (htail : Detached tail) :
    startsArgument (spliced lines tail ts) = startsArgument ts := by
  cases ts with
  | nil =>
      rw [spliced_nil]
      rcases htail.first with hfirst | hfirst
      · simp [startsArgument, hfirst]
      · simp [startsArgument, hfirst]
  | cons t ts => rfl

theorem dropWhile_spliced {p : Token → Bool} (hp : ∀ t, p (t.moved lines) = p t)
    (h : ts.dropWhile p ≠ []) :
    (spliced lines tail ts).dropWhile p = spliced lines tail (ts.dropWhile p) := by
  induction ts with
  | nil => exact absurd rfl h
  | cons t ts ih =>
      by_cases ht : p t = true
      · rw [List.dropWhile_cons_of_pos ht] at h ⊢
        rw [spliced_cons, List.dropWhile_cons_of_pos (by rw [hp, ht]), ih h]
      · rw [spliced_cons, List.dropWhile_cons_of_neg (by rwa [hp]), List.dropWhile_cons_of_neg ht,
          spliced_cons]

theorem dropWhile_spliced_nil {p : Token → Bool} (hp : ∀ t, p (t.moved lines) = p t)
    (h : ts.dropWhile p = []) : (spliced lines tail ts).dropWhile p = tail.dropWhile p := by
  induction ts with
  | nil => rfl
  | cons t ts ih =>
      by_cases ht : p t = true
      · rw [List.dropWhile_cons_of_pos ht] at h
        rw [spliced_cons, List.dropWhile_cons_of_pos (by rw [hp, ht]), ih h]
      · rw [List.dropWhile_cons_of_neg ht] at h
        cases h

theorem skipNewlines_spliced (h : skipNewlines ts ≠ []) :
    skipNewlines (spliced lines tail ts) = spliced lines tail (skipNewlines ts) :=
  dropWhile_spliced (fun _ => rfl) h

theorem skipNewlines_spliced_cons (lines : Nat) (tail : List Token) {t : Token} {rest : List Token}
    (h : skipNewlines ts = t :: rest) :
    skipNewlines (spliced lines tail ts) = t.moved lines :: spliced lines tail rest := by
  rw [skipNewlines_spliced (by rw [h]; exact List.cons_ne_nil _ _), h, spliced_cons]

theorem skipNewlines_spliced_nil (h : skipNewlines ts = []) :
    skipNewlines (spliced lines tail ts) = skipNewlines tail :=
  dropWhile_spliced_nil (fun _ => rfl) h

theorem kindOf_skipNewlines_spliced (h : kindOf (skipNewlines ts) ≠ .elseWord)
    (htail : Detached tail) : kindOf (skipNewlines (spliced lines tail ts)) ≠ .elseWord := by
  by_cases hskip : skipNewlines ts = []
  · rw [skipNewlines_spliced_nil hskip]
    intro helse
    exact htail.visible (by rw [helse]; decide)
  · rwa [skipNewlines_spliced hskip, kindOf_spliced hskip]

theorem skipSeparators_spliced (h : skipSeparators ts ≠ []) :
    skipSeparators (spliced lines tail ts) = spliced lines tail (skipSeparators ts) :=
  dropWhile_spliced (fun _ => rfl) h

theorem skipSeparators_spliced_nil (h : skipSeparators ts = []) :
    skipSeparators (spliced lines tail ts) = skipSeparators tail :=
  dropWhile_spliced_nil (fun _ => rfl) h

theorem skipComma_spliced (htail : Detached tail) :
    skipComma (spliced lines tail ts) = spliced lines tail (skipComma ts) := by
  cases ts with
  | nil =>
      cases tail with
      | nil => rfl
      | cons t tail =>
          have ht : (t.kind == .comma) = false := by
            rcases htail.first with hfirst | hfirst
            · simp_all
            · simp_all
          simp [skipComma, ht]
  | cons t ts =>
      by_cases ht : t.kind = .comma
      · simp [skipComma, Token.moved, ht]
      · simp [skipComma, Token.moved, ht]

theorem afterPipe?_spliced_none (h : afterPipe? ts = none) (htail : Detached tail) :
    afterPipe? (spliced lines tail ts) = none := by
  refine Option.eq_none_iff_forall_ne_some.2 ?_
  intro rest hrest
  obtain ⟨t, after, hskip, hpipe, -⟩ := Grammar.afterPipe?_eq_some.1 hrest
  cases hts : skipNewlines ts with
  | nil =>
      rw [skipNewlines_spliced_nil hts] at hskip
      have hvisible := htail.visible
      rw [hskip, kindOf_cons, hpipe] at hvisible
      exact hvisible (by decide)
  | cons u us =>
      rw [skipNewlines_spliced_cons lines tail hts] at hskip
      cases hskip
      have hsome := Grammar.afterPipe?_eq_some.2 ⟨u, us, hts, hpipe, rfl⟩
      rw [h] at hsome
      cases hsome

theorem afterPipe?_spliced_some {rest : List Token} (h : afterPipe? ts = some rest)
    (hrest : rest ≠ []) : afterPipe? (spliced lines tail ts) = some (spliced lines tail rest) := by
  obtain ⟨t, after, hskip, hpipe, rfl⟩ := Grammar.afterPipe?_eq_some.1 h
  exact Grammar.afterPipe?_eq_some.2
    ⟨t.moved lines, spliced lines tail after, skipNewlines_spliced_cons lines tail hskip, hpipe,
      skipNewlines_spliced hrest⟩

theorem afterOperator?_spliced_none {ops : List BinOp} (h : afterOperator? ops ts = none)
    (htail : Detached tail) : afterOperator? ops (spliced lines tail ts) = none := by
  refine Option.eq_none_iff_forall_ne_some.2 ?_
  rintro ⟨op, rest⟩ hrest
  obtain ⟨t, after, hsplit, hkind, hop, hmem, -⟩ := Grammar.afterOperator?_eq_some.1 hrest
  cases ts with
  | nil =>
      rw [spliced_nil] at hsplit
      have hfirst := htail.first
      rw [hsplit, kindOf_cons, hkind] at hfirst
      exact absurd hfirst (by decide)
  | cons u us =>
      cases hsplit
      have hsome := Grammar.afterOperator?_eq_some.2 ⟨u, us, rfl, hkind, hop, hmem, rfl⟩
      rw [h] at hsome
      cases hsome

theorem afterOperator?_spliced_some {ops : List BinOp} {op : BinOp} {rest : List Token}
    (h : afterOperator? ops ts = some (op, rest)) (hrest : rest ≠ []) :
    afterOperator? ops (spliced lines tail ts) = some (op, spliced lines tail rest) := by
  obtain ⟨t, after, rfl, hkind, hop, hmem, rfl⟩ := Grammar.afterOperator?_eq_some.1 h
  exact Grammar.afterOperator?_eq_some.2
    ⟨t.moved lines, spliced lines tail after, rfl, hkind, hop, hmem, skipNewlines_spliced hrest⟩

end Spliced

end Parse

/-! ## Spliced phrases -/

namespace Grammar

open Parse

theorem ne_nil_of_length_lt {ts rest : List Token} (h : rest.length < ts.length) : ts ≠ [] :=
  List.ne_nil_of_length_pos (Nat.zero_lt_of_lt h)

section Spliced

variable {lines : Nat} {tail : List Token}

mutual

theorem Expression.spliced (htail : Detached tail) {ts rest : List Token} {e : Expr} :
    Expression ts e rest → Expression (spliced lines tail ts) e (spliced lines tail rest)
  | .stages hhead htail' => .stages (hhead.spliced htail) (htail'.spliced htail)

theorem PipelineTail.spliced (htail : Detached tail) {ts rest : List Token} {stages : List Expr} :
    PipelineTail ts stages rest →
      PipelineTail (spliced lines tail ts) stages (spliced lines tail rest)
  | .nil hpipe => .nil (afterPipe?_spliced_none hpipe htail)
  | .cons hpipe hstage hmore =>
      .cons (afterPipe?_spliced_some hpipe (ne_nil_of_length_lt hstage.length_lt))
        (hstage.spliced htail) (hmore.spliced htail)

theorem Binary.spliced (htail : Detached tail) {ops : List (List BinOp)} {commands c : Bool}
    {ts rest : List Token} {e : Expr} :
    Binary ops commands ts e c rest →
      Binary ops commands (spliced lines tail ts) e c (spliced lines tail rest)
  | .operand hoperand => .operand (hoperand.spliced htail)
  | .level hleft hmore => .level (hleft.spliced htail) (hmore.spliced htail)

theorem BinaryTail.spliced (htail : Detached tail) {ops : List BinOp} {tighter : List (List BinOp)}
    {commands c d : Bool} {ts rest : List Token} {left e : Expr} :
    BinaryTail ops tighter commands left c ts e d rest →
      BinaryTail ops tighter commands left c (spliced lines tail ts) e d (spliced lines tail rest)
  | .nil hop => .nil (afterOperator?_spliced_none hop htail)
  | .cons hop hright hmore =>
      .cons (afterOperator?_spliced_some hop (ne_nil_of_length_lt hright.length_lt))
        (hright.spliced htail) (hmore.spliced htail)

theorem Unary.spliced (htail : Detached tail) {commands c : Bool} {ts rest : List Token}
    {e : Expr} :
    Unary commands ts e c rest →
      Unary commands (spliced lines tail ts) e c (spliced lines tail rest)
  | .minus hkind htext hoperand => .minus hkind htext (hoperand.spliced htail)
  | .call hfirst hcall => by
      refine .call ?_ (hcall.spliced htail)
      intro t ht
      rw [head?_spliced (ne_nil_of_length_lt hcall.length_lt)] at ht
      obtain ⟨u, hu, rfl⟩ := Option.map_eq_some_iff.1 ht
      exact hfirst u hu

theorem Call.spliced (htail : Detached tail) {commands c : Bool} {ts rest : List Token}
    {e : Expr} :
    Call commands ts e c rest →
      Call commands (spliced lines tail ts) e c (spliced lines tail rest)
  | .plain hhead hsuffixes hno =>
      .plain (hhead.spliced htail) (hsuffixes.spliced htail)
        (by rwa [startsArgument_spliced htail])
  | .command hhead hsuffixes hpath hstarts hargs =>
      .command (hhead.spliced htail) (hsuffixes.spliced htail) hpath
        (by rwa [startsArgument_spliced htail]) (hargs.spliced htail)

theorem Suffixes.spliced (htail : Detached tail) {head e : Expr} {ts rest : List Token} :
    Suffixes head ts e rest →
      Suffixes head (spliced lines tail ts) e (spliced lines tail rest)
  | .nil hdot hparen =>
      .nil ((kindOf_spliced_iff (P := fun k => k ≠ .dot) (by decide) htail).2 hdot)
        ((kindOf_spliced_iff (P := fun k => ¬(k = .leftParen ∧ _)) (by simp) htail).2 hparen)
  | .member hdot hname hmore => .member hdot hname (hmore.spliced htail)
  | .call hparen hpath hargs hmore =>
      .call hparen hpath (hargs.spliced htail) (hmore.spliced htail)

theorem CommandArguments.spliced (htail : Detached tail) {ts rest : List Token}
    {args : List Expr} :
    CommandArguments ts args rest →
      CommandArguments (spliced lines tail ts) args (spliced lines tail rest)
  | .last harg hstops => by
      rw [← skipComma_spliced htail]
      exact .last (harg.spliced htail)
        (by rwa [skipComma_spliced htail, startsArgument_spliced htail])
  | .cons harg hstarts hmore => by
      refine .cons (harg.spliced htail) ?_ ?_
      · rwa [skipComma_spliced htail, startsArgument_spliced htail]
      · rw [skipComma_spliced htail]
        exact hmore.spliced htail

theorem Arguments.spliced (htail : Detached tail) {ts rest : List Token} {args : List Expr} :
    Arguments ts args rest →
      Arguments (spliced lines tail ts) args (spliced lines tail rest)
  | .none hskip hparen => .none (skipNewlines_spliced_cons lines tail hskip) hparen
  | .some hkind hlist => by
      have hne := ne_nil_of_length_lt hlist.length_lt
      refine .some ?_ ?_
      · rwa [skipNewlines_spliced hne, kindOf_spliced hne]
      · rw [skipNewlines_spliced hne]
        exact hlist.spliced htail

theorem ArgumentList.spliced (htail : Detached tail) {ts rest : List Token} {args : List Expr} :
    ArgumentList ts args rest →
      ArgumentList (spliced lines tail ts) args (spliced lines tail rest)
  | .last harg hskip hparen =>
      .last (harg.spliced htail) (skipNewlines_spliced_cons lines tail hskip) hparen
  | .cons harg hskip hcomma hmore => by
      refine .cons (harg.spliced htail) (skipNewlines_spliced_cons lines tail hskip) hcomma ?_
      rw [skipNewlines_spliced (ne_nil_of_length_lt hmore.length_lt)]
      exact hmore.spliced htail

theorem Primary.spliced (htail : Detached tail) {ts rest : List Token} {e : Expr} :
    Primary ts e rest → Primary (spliced lines tail ts) e (spliced lines tail rest)
  | .number hkind hvalue => .number (t := Token.moved lines _) hkind hvalue
  | .string hkind => .string (t := Token.moved lines _) hkind
  | .hotkey hkind => .hotkey (t := Token.moved lines _) hkind
  | .identifier hkind => .identifier (t := Token.moved lines _) hkind
  | .paren hopen hinner hskip hclose => by
      rw [spliced_cons]
      refine .paren hopen ?_ (skipNewlines_spliced_cons lines tail hskip) hclose
      rw [skipNewlines_spliced (ne_nil_of_length_lt hinner.length_lt)]
      exact hinner.spliced htail

end

theorem Names.spliced (htail : Detached tail) {ts rest : List Token} {names : List String}
    (h : Names ts names rest) :
    Names (spliced lines tail ts) names (spliced lines tail rest) := by
  induction h with
  | last hname hcomma =>
      exact .last (t := Token.moved lines _) hname
        ((kindOf_spliced_iff (P := fun k => k ≠ .comma) (by decide) htail).2 hcomma)
  | cons hname hcomma _ ih => exact .cons (t := Token.moved lines _) hname hcomma ih

theorem Parameters.spliced (htail : Detached tail) {ts rest : List Token} {names : List String}
    (h : Parameters ts names rest) :
    Parameters (spliced lines tail ts) names (spliced lines tail rest) := by
  cases h with
  | none hclose => exact .none hclose
  | some hnames hclose => exact .some (hnames.spliced htail) hclose

mutual

theorem Statement.spliced (htail : Detached tail) {ts rest : List Token} {s : Stmt} :
    Statement ts s rest →
      Statement (spliced lines tail ts) (s.moved lines) (spliced lines tail rest)
  | .bind hhotkey harrow haction => by
      rw [spliced_cons, spliced_cons, Stmt.moved]
      refine .bind hhotkey harrow ?_
      rw [skipNewlines_spliced (ne_nil_of_length_lt haction.length_lt)]
      exact haction.spliced htail
  | .block hblock => .block (hblock.spliced htail)
  | .assign hlet hname hassign hvalue => by
      rw [spliced_cons, spliced_cons, spliced_cons, Stmt.moved]
      refine .assign hlet hname hassign ?_
      rw [skipNewlines_spliced (ne_nil_of_length_lt hvalue.length_lt)]
      exact hvalue.spliced htail
  | .declare hlet hname hassign => by
      rw [spliced_cons, spliced_cons, Stmt.moved]
      exact .declare hlet hname
        ((kindOf_spliced_iff (P := fun k => k ≠ .assign) (by decide) htail).2 hassign)
  | .branch hif hbranch => by
      rw [spliced_cons]
      exact .branch hif (hbranch.spliced htail)
  | .loop hwhile hcondition hbody => by
      rw [spliced_cons, Stmt.moved]
      refine .loop hwhile (hcondition.spliced htail) ?_
      rw [skipNewlines_spliced (ne_nil_of_length_lt hbody.length_lt)]
      exact hbody.spliced htail
  | .function hfn hname hopen hparams hbody => by
      rw [spliced_cons, spliced_cons, spliced_cons, Stmt.moved]
      refine .function hfn hname hopen (hparams.spliced htail) ?_
      rw [skipNewlines_spliced (ne_nil_of_length_lt hbody.length_lt)]
      exact hbody.spliced htail
  | .leave hreturn hkind hvalue => by
      rw [spliced_cons, Stmt.moved]
      refine .leave hreturn ?_ (hvalue.spliced htail)
      rwa [kindOf_spliced (ne_nil_of_length_lt hvalue.length_lt)]
  | .leaveNull hreturn hkind => by
      rw [spliced_cons, Stmt.moved]
      exact .leaveNull hreturn
        ((kindOf_spliced_iff (P := (· ∈ .rightBrace :: endings)) (by decide) htail).2 hkind)
  | .expr hkind he => by
      rw [Stmt.moved]
      refine .expr ?_ (he.spliced htail)
      rwa [kindOf_spliced (ne_nil_of_length_lt he.length_lt)]

theorem Branch.spliced (htail : Detached tail) {ts rest : List Token} {s : Stmt} :
    Branch ts s rest →
      Branch (spliced lines tail ts) (s.moved lines) (spliced lines tail rest)
  | .plain hcondition hbody hkind => by
      rw [Stmt.moved]
      refine .plain (hcondition.spliced htail) ?_ (kindOf_skipNewlines_spliced hkind htail)
      rw [skipNewlines_spliced (ne_nil_of_length_lt hbody.length_lt)]
      exact hbody.spliced htail
  | .chain hcondition hbody helse helseKind hif hifKind hbranch => by
      rw [Stmt.moved]
      refine .chain (hcondition.spliced htail) ?_
        (skipNewlines_spliced_cons lines tail helse) helseKind
        (skipNewlines_spliced_cons lines tail hif) hifKind (hbranch.spliced htail)
      rw [skipNewlines_spliced (ne_nil_of_length_lt hbody.length_lt)]
      exact hbody.spliced htail
  | .otherwise hcondition hbody helse helseKind halternative => by
      rw [Stmt.moved]
      refine .otherwise (hcondition.spliced htail) ?_
        (skipNewlines_spliced_cons lines tail helse) helseKind ?_
      · rw [skipNewlines_spliced (ne_nil_of_length_lt hbody.length_lt)]
        exact hbody.spliced htail
      · rw [skipNewlines_spliced (ne_nil_of_length_lt halternative.length_lt)]
        exact halternative.spliced htail

theorem Block.spliced (htail : Detached tail) {ts rest : List Token} {s : Stmt} :
    Block ts s rest →
      Block (spliced lines tail ts) (s.moved lines) (spliced lines tail rest)
  | .braces hopen hbody => by
      rw [spliced_cons, Stmt.moved]
      refine .braces hopen ?_
      rw [skipSeparators_spliced (ne_nil_of_length_lt hbody.length_lt)]
      exact hbody.spliced htail

theorem BlockTail.spliced (htail : Detached tail) {ts rest : List Token} {body : List Stmt} :
    BlockTail ts body rest →
      BlockTail (spliced lines tail ts) (body.map (Stmt.moved lines)) (spliced lines tail rest)
  | .nil hclose => .nil (t := Token.moved lines _) hclose
  | .cons hkind hfirst hend hmore => by
      refine .cons ?_ (hfirst.spliced htail) ?_ ?_
      · rwa [kindOf_spliced (ne_nil_of_length_lt hfirst.length_lt)]
      · exact (kindOf_spliced_iff (P := (· ∈ .rightBrace :: endings)) (by decide) htail).2 hend
      · rw [skipSeparators_spliced (ne_nil_of_length_lt hmore.length_lt)]
        exact hmore.spliced htail

end

end Spliced

/-! ## Beginnings -/

/-- The kinds of token with which an expression begins. -/
def beginnings : List Kind :=
  [.number, .string, .hotkey, .identifier, .leftParen, .operator]

section Beginnings

variable {ts rest : List Token}

theorem Primary.kindOf_mem {e : Expr} (h : Primary ts e rest) : kindOf ts ∈ beginnings := by
  cases h with
  | number hkind => rw [kindOf_cons, hkind]; decide
  | string hkind => rw [kindOf_cons, hkind]; decide
  | hotkey hkind => rw [kindOf_cons, hkind]; decide
  | identifier hkind => rw [kindOf_cons, hkind]; decide
  | paren hkind => rw [kindOf_cons, hkind]; decide

theorem Call.kindOf_mem {commands c : Bool} {e : Expr} (h : Call commands ts e c rest) :
    kindOf ts ∈ beginnings := by
  cases h with
  | plain hhead => exact hhead.kindOf_mem
  | command hhead => exact hhead.kindOf_mem

theorem Unary.kindOf_mem {commands c : Bool} {e : Expr} (h : Unary commands ts e c rest) :
    kindOf ts ∈ beginnings := by
  cases h with
  | minus hkind => rw [kindOf_cons, hkind]; decide
  | call _ hcall => exact hcall.kindOf_mem

theorem Binary.kindOf_mem {ops : List (List BinOp)} {commands c : Bool} {rest : List Token}
    {e : Expr} : Binary ops commands ts e c rest → kindOf ts ∈ beginnings
  | .operand hoperand => hoperand.kindOf_mem
  | .level hleft _ => hleft.kindOf_mem

theorem Expression.kindOf_mem {e : Expr} (h : Expression ts e rest) : kindOf ts ∈ beginnings := by
  cases h with
  | stages hhead => exact hhead.kindOf_mem

theorem Statement.kindOf_mem {s : Stmt} (h : Statement ts s rest) :
    kindOf ts ∈ openings ++ beginnings := by
  cases h with
  | bind hkind => rw [kindOf_cons, hkind]; decide
  | block hblock =>
      cases hblock with
      | braces hkind => rw [kindOf_cons, hkind]; decide
  | assign hkind => rw [kindOf_cons, hkind]; decide
  | declare hkind => rw [kindOf_cons, hkind]; decide
  | branch hkind => rw [kindOf_cons, hkind]; decide
  | loop hkind => rw [kindOf_cons, hkind]; decide
  | function hkind => rw [kindOf_cons, hkind]; decide
  | leave hkind => rw [kindOf_cons, hkind]; decide
  | leaveNull hkind => rw [kindOf_cons, hkind]; decide
  | expr _ he => exact List.mem_append_right _ he.kindOf_mem

theorem skipSeparators_eq_skipNewlines (h : kindOf (skipNewlines ts) ≠ .semicolon) :
    skipSeparators ts = skipNewlines ts := by
  unfold skipSeparators skipNewlines at *
  induction ts with
  | nil => rfl
  | cons t ts ih =>
      by_cases hnewline : t.kind = .newline
      · simp only [List.dropWhile_cons, hnewline] at h ⊢
        exact ih h
      · have hsemicolon : t.kind ≠ .semicolon := by simpa [hnewline] using h
        simp [hnewline, hsemicolon]

theorem Statements.detached {body : List Stmt} (h : Statements (skipSeparators ts) body)
    (hfirst : kindOf ts = .newline ∨ kindOf ts = .eof) : Detached ts := by
  refine ⟨hfirst, ?_⟩
  intro hmem
  have hskip : skipSeparators ts = skipNewlines ts := by
    apply skipSeparators_eq_skipNewlines
    intro hsemicolon
    rw [hsemicolon] at hmem
    exact absurd hmem (by decide)
  rw [hskip] at h
  generalize skipNewlines ts = visible at h hmem
  cases h with
  | nil => exact absurd hmem (by decide)
  | cons hstatement _ _ =>
      have hapart : ∀ kind ∈ openings ++ beginnings, kind ∉ [.pipe, .elseWord] := by decide
      exact hapart _ hstatement.kindOf_mem hmem

/-- **Statements compose**: those of the first list are moved down, and those of the second come
behind them. -/
theorem Statements.append {first second : List Stmt}
    (h : Statements (skipSeparators ts) first) (lines : Nat) (tail : List Token)
    (hsecond : Statements (skipSeparators tail) second)
    (hline : kindOf tail = .newline ∨ kindOf tail = .eof) :
    Statements (skipSeparators (Chord.spliced lines tail ts))
      (first.map (Stmt.moved lines) ++ second) := by
  have htail := hsecond.detached hline
  generalize hus : skipSeparators ts = us at h
  induction h generalizing ts with
  | nil =>
      rw [skipSeparators_spliced_nil hus]
      exact hsecond
  | cons hfirst hend _ ih =>
      subst hus
      rw [skipSeparators_spliced (ne_nil_of_length_lt hfirst.length_lt)]
      refine .cons (hfirst.spliced htail) ?_ (ih rfl)
      exact (kindOf_spliced_iff (P := (· ∈ endings)) (by decide) htail).2 hend

end Beginnings

end Grammar

/-! ## Joined scripts -/

theorem parseSource_eq_ok_iff {source : String} {p : Program} :
    parseSource source = .ok p ↔
      Grammar.Statements (Parse.skipSeparators (wordsOf source.toList)) p.statements := by
  rw [← ofTokens_tokenize]
  exact parse_eq_ok_iff

/-- **Scripts compose**: two scripts with a line end between them are read as the statements of the
first and those of the second, whose bindings are moved down by the lines in front of them. -/
theorem parseSource_joined {source₁ source₂ : String} {p₁ p₂ : Program}
    (h₁ : parseSource source₁ = .ok p₁) (h₂ : parseSource source₂ = .ok p₂) :
    parseSource (source₁ ++ "\n" ++ source₂) =
      .ok ⟨p₁.statements ++
        p₂.statements.map (Stmt.moved (1 + source₁.toList.count '\n'))⟩ := by
  have hfirst := parseSource_eq_ok_iff.1 h₁
  have hsecond := parseSource_eq_ok_iff.1 h₂
  rw [parseSource_eq_ok_iff]
  have htext : (source₁ ++ "\n" ++ source₂).toList = source₁.toList ++ '\n' :: source₂.toList := by
    simp
  rw [htext, wordsOf_joined]
  generalize 1 + source₁.toList.count '\n' = lines
  generalize wordsOf source₁.toList = ts₁ at hfirst ⊢
  generalize wordsOf source₂.toList = ts₂ at hsecond ⊢
  have hmoved : Grammar.Statements (Parse.skipSeparators (ts₂.map (Token.moved lines)))
      (p₂.statements.map (Stmt.moved lines)) := by
    have hnothing := hsecond.append lines [] .nil (.inr rfl)
    rwa [spliced, List.append_nil, List.append_nil] at hnothing
  have hjoined := hfirst.append 0 (⟨.newline, "\n", Position.start.after source₁.toList⟩
    :: ts₂.map (Token.moved lines)) hmoved (.inl rfl)
  rwa [spliced, List.map_id'' Token.moved_zero, List.map_id'' Stmt.moved_zero] at hjoined

theorem parseSource_joined_return_binding :
    parseSource ("let a\nreturn" ++ "\n" ++ "^b =>\n^c => paste") =
      .ok ⟨[.assign "a" none, .leave none,
        .bind (.hotkey "^b") (.bind (.hotkey "^c") (.expr (.identifier "paste")) 4) 3]⟩ := by
  have htokens₁ : tokenize "let a\nreturn" =
      [⟨.letWord, "let", ⟨1, 1⟩⟩, ⟨.identifier, "a", ⟨1, 5⟩⟩, ⟨.newline, "\n", ⟨1, 6⟩⟩,
        ⟨.returnWord, "return", ⟨2, 1⟩⟩, ⟨.eof, "", ⟨2, 7⟩⟩] := by
    decide +kernel
  have htokens₂ : tokenize "^b =>\n^c => paste" =
      [⟨.hotkey, "^b", ⟨1, 1⟩⟩, ⟨.arrow, "=>", ⟨1, 4⟩⟩, ⟨.newline, "\n", ⟨1, 6⟩⟩,
        ⟨.hotkey, "^c", ⟨2, 1⟩⟩, ⟨.arrow, "=>", ⟨2, 4⟩⟩, ⟨.identifier, "paste", ⟨2, 7⟩⟩,
        ⟨.eof, "", ⟨2, 12⟩⟩] := by
    decide +kernel
  have h₁ : parseSource "let a\nreturn" = .ok ⟨[.assign "a" none, .leave none]⟩ := by
    unfold parseSource
    rw [htokens₁]
    rfl
  have h₂ : parseSource "^b =>\n^c => paste" = .ok ⟨[
      .bind (.hotkey "^b") (.bind (.hotkey "^c") (.expr (.identifier "paste")) 2) 1]⟩ := by
    unfold parseSource
    rw [htokens₂]
    rfl
  have hjoined := parseSource_joined h₁ h₂
  have hlines : 1 + "let a\nreturn".toList.count '\n' = 2 := by decide
  simpa [hlines, Stmt.moved] using hjoined

end Chord
