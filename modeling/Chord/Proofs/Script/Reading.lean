import Chord.Proofs.Script.Grammar

/-!
# Parsers follow the grammar

**Input.** The grammar of scripts and the parsers.

**Results.** A parser that gives a tree has found the phrase of the grammar that stands for it
(`expression_sound`, `statement_sound` and their companions). The converse holds as soon as the
parser may descend deep enough (`Expression.parses`, `Statement.parses`), which the bound computed
from the number of tokens always allows. So `parse_eq_ok_iff` describes the scripts that can be read
and their trees without mentioning a parser.
-/

namespace Chord
namespace Parse

open Grammar

theorem bind_eq_ok {ε α β : Type} {x : Except ε α} {f : α → Except ε β} {b : β} :
    (x >>= f) = .ok b ↔ ∃ a, x = .ok a ∧ f a = .ok b := by
  cases x with
  | error e => exact ⟨nofun, fun ⟨_, h, _⟩ => nomatch h⟩
  | ok a => exact ⟨fun h => ⟨a, rfl, h⟩, fun ⟨_, h, h'⟩ => by cases h; exact h'⟩

variable {stop : Token}

theorem expect_eq_ok {kind : Kind} {wanted : Wanted} {ts rest : List Token} {t : Token} :
    expect stop kind wanted ts = .ok (t, rest) ↔ ts = t :: rest ∧ t.kind = kind := by
  cases ts with
  | nil => exact ⟨nofun, nofun⟩
  | cons u ts =>
      simp only [expect]
      split
      · rename_i hkind
        constructor
        · intro h
          cases h
          exact ⟨rfl, by simpa using hkind⟩
        · rintro ⟨h, -⟩
          cases h
          rfl
      · rename_i hkind
        refine ⟨nofun, ?_⟩
        rintro ⟨h, hu⟩
        cases h
        exact absurd hu (by simpa using hkind)

theorem eq_cons_of_kindOf {ts : List Token} {kind : Kind} (h : kindOf ts = kind)
    (hne : kind ≠ .eof) : ∃ t rest, ts = t :: rest ∧ t.kind = kind := by
  cases ts with
  | nil => exact absurd h.symm hne
  | cons t rest => exact ⟨t, rest, rfl, h⟩

/-! ## What parsers find is in the grammar -/

mutual

theorem expression_sound : ∀ {n : Nat} {ts rest : List Token} {e : Expr},
    expression stop n ts = .ok (e, rest) → Expression ts e rest
  | 0, _, _, _, h => nomatch h
  | n + 1, ts, rest, e, h => by
      unfold expression at h
      obtain ⟨⟨⟨head, c⟩, ts₁⟩, hhead, h⟩ := bind_eq_ok.1 h
      obtain ⟨⟨stages, ts₂⟩, htail, h⟩ := bind_eq_ok.1 h
      cases h
      exact .stages (binary_sound hhead) (pipelineTail_sound htail)

theorem pipelineTail_sound : ∀ {n : Nat} {ts rest : List Token} {stages : List Expr},
    pipelineTail stop n ts = .ok (stages, rest) → PipelineTail ts stages rest
  | 0, _, _, _, h => nomatch h
  | n + 1, ts, rest, stages, h => by
      unfold pipelineTail at h
      split at h
      · rename_i hpipe
        cases h
        exact .nil hpipe
      · rename_i ts₁ hpipe
        obtain ⟨⟨⟨stage, c⟩, ts₂⟩, hstage, h⟩ := bind_eq_ok.1 h
        obtain ⟨⟨more, ts₃⟩, htail, h⟩ := bind_eq_ok.1 h
        cases h
        exact .cons hpipe (binary_sound hstage) (pipelineTail_sound htail)

theorem binary_sound : ∀ {n : Nat} {ops : List (List BinOp)} {commands c : Bool}
    {ts rest : List Token} {e : Expr},
    binary stop n ops commands ts = .ok ((e, c), rest) → Binary ops commands ts e c rest
  | 0, _, _, _, _, _, _, h => nomatch h
  | n + 1, [], commands, c, ts, rest, e, h => .operand (unary_sound h)
  | n + 1, ops :: tighter, commands, c, ts, rest, e, h => by
      unfold binary at h
      obtain ⟨⟨⟨left, d⟩, ts₁⟩, hleft, h⟩ := bind_eq_ok.1 h
      exact .level (binary_sound hleft) (binaryTail_sound h)

theorem binaryTail_sound : ∀ {n : Nat} {ops : List BinOp} {tighter : List (List BinOp)}
    {commands c d : Bool} {left e : Expr} {ts rest : List Token},
    binaryTail stop n ops tighter commands left c ts = .ok ((e, d), rest) →
      BinaryTail ops tighter commands left c ts e d rest
  | 0, _, _, _, _, _, _, _, _, _, h => nomatch h
  | n + 1, ops, tighter, commands, c, d, left, e, ts, rest, h => by
      unfold binaryTail at h
      split at h
      · rename_i hop
        cases h
        exact .nil hop
      · rename_i op ts₁ hop
        obtain ⟨⟨⟨right, c'⟩, ts₂⟩, hright, h⟩ := bind_eq_ok.1 h
        exact .cons hop (binary_sound hright) (binaryTail_sound h)

theorem unary_sound : ∀ {n : Nat} {commands c : Bool} {ts rest : List Token} {e : Expr},
    unary stop n commands ts = .ok ((e, c), rest) → Unary commands ts e c rest
  | 0, _, _, _, _, _, h => nomatch h
  | n + 1, commands, c, [], rest, e, h => .call nofun (call_sound h)
  | n + 1, commands, c, t :: ts, rest, e, h => by
      simp only [unary] at h
      split at h
      · rename_i hminus
        obtain ⟨⟨⟨operand, d⟩, ts₁⟩, hoperand, h⟩ := bind_eq_ok.1 h
        cases h
        have hminus : t.kind = .operator ∧ t.text = "-" := by simpa using hminus
        exact .minus hminus.1 hminus.2 (unary_sound hoperand)
      · rename_i hminus
        refine .call ?_ (call_sound h)
        intro u hu
        cases hu
        simpa using hminus

theorem call_sound : ∀ {n : Nat} {commands c : Bool} {ts rest : List Token} {e : Expr},
    call stop n commands ts = .ok ((e, c), rest) → Call commands ts e c rest
  | 0, _, _, _, _, _, h => nomatch h
  | n + 1, commands, c, ts, rest, e, h => by
      unfold call at h
      obtain ⟨⟨head, ts₁⟩, hhead, h⟩ := bind_eq_ok.1 h
      obtain ⟨⟨callee, ts₂⟩, hsuffixes, h⟩ := bind_eq_ok.1 h
      simp only at h
      split at h
      · rename_i hcommand
        have hcommand : (commands = true ∧ callee.isCallablePath = true) ∧
            startsArgument ts₂ = true := by simpa using hcommand
        obtain ⟨⟨args, ts₃⟩, hargs, h⟩ := bind_eq_ok.1 h
        cases h
        obtain ⟨⟨rfl, hcallee⟩, hstarts⟩ := hcommand
        exact .command (primary_sound hhead) (suffixes_sound hsuffixes) hcallee hstarts
          (commandArguments_sound hargs)
      · rename_i hplain
        cases h
        refine .plain (primary_sound hhead) (suffixes_sound hsuffixes) ?_
        rintro ⟨hcommands, hcallee, hstarts⟩
        simp [hcommands, hcallee, hstarts] at hplain

theorem suffixes_sound : ∀ {n : Nat} {head e : Expr} {ts rest : List Token},
    suffixes stop n head ts = .ok (e, rest) → Suffixes head ts e rest
  | 0, _, _, _, _, h => nomatch h
  | n + 1, head, e, [], rest, h => by
      cases h
      exact .nil nofun nofun
  | n + 1, head, e, t :: ts, rest, h => by
      simp only [suffixes] at h
      split at h
      · rename_i hdot
        obtain ⟨⟨u, ts₁⟩, hproperty, hmore⟩ := bind_eq_ok.1 h
        obtain ⟨rfl, hu⟩ := expect_eq_ok.1 hproperty
        exact .member (by simpa using hdot) hu (suffixes_sound hmore)
      · rename_i hdot
        split at h
        · rename_i hparen
          have hparen : t.kind = .leftParen ∧ head.isCallablePath = true := by simpa using hparen
          obtain ⟨⟨args, ts₁⟩, hargs, h⟩ := bind_eq_ok.1 h
          exact .call hparen.1 hparen.2 (arguments_sound hargs) (suffixes_sound h)
        · rename_i hparen
          cases h
          exact .nil (by simpa using hdot) (by simpa using hparen)

theorem commandArguments_sound : ∀ {n : Nat} {ts rest : List Token} {args : List Expr},
    commandArguments stop n ts = .ok (args, rest) → CommandArguments ts args rest
  | 0, _, _, _, h => nomatch h
  | n + 1, ts, rest, args, h => by
      unfold commandArguments at h
      obtain ⟨⟨⟨arg, c⟩, ts₁⟩, harg, h⟩ := bind_eq_ok.1 h
      simp only at h
      split at h
      · rename_i hstarts
        obtain ⟨⟨more, ts₂⟩, hmore, h⟩ := bind_eq_ok.1 h
        cases h
        exact .cons (binary_sound harg) hstarts (commandArguments_sound hmore)
      · rename_i hstarts
        cases h
        exact .last (binary_sound harg) (by simpa using hstarts)

theorem arguments_sound : ∀ {n : Nat} {ts rest : List Token} {args : List Expr},
    arguments stop n ts = .ok (args, rest) → Arguments ts args rest
  | 0, _, _, _, h => nomatch h
  | n + 1, ts, rest, args, h => by
      unfold arguments at h
      split at h
      · rename_i hskip
        refine .some ?_ ?_
        · rw [hskip]
          nofun
        · rw [hskip]
          exact argumentList_sound h
      · rename_i t ts₁ hskip
        split at h
        · rename_i hparen
          cases h
          exact .none hskip (by simpa using hparen)
        · rename_i hparen
          refine .some ?_ ?_
          · rw [hskip]
            simpa using hparen
          · rw [hskip]
            exact argumentList_sound h

theorem argumentList_sound : ∀ {n : Nat} {ts rest : List Token} {args : List Expr},
    argumentList stop n ts = .ok (args, rest) → ArgumentList ts args rest
  | 0, _, _, _, h => nomatch h
  | n + 1, ts, rest, args, h => by
      unfold argumentList at h
      obtain ⟨⟨arg, ts₁⟩, harg, h⟩ := bind_eq_ok.1 h
      simp only at h
      split at h
      · rename_i hcomma
        obtain ⟨⟨more, ts₂⟩, hmore, h⟩ := bind_eq_ok.1 h
        cases h
        obtain ⟨t, ts₃, hskip, ht⟩ := eq_cons_of_kindOf (beq_iff_eq.1 hcomma) nofun
        rw [hskip] at hmore
        exact .cons (expression_sound harg) hskip ht (argumentList_sound hmore)
      · obtain ⟨⟨t, ts₂⟩, hclose, h⟩ := bind_eq_ok.1 h
        cases h
        obtain ⟨hskip, ht⟩ := expect_eq_ok.1 hclose
        exact .last (expression_sound harg) hskip ht

theorem primary_sound : ∀ {n : Nat} {ts rest : List Token} {e : Expr},
    primary stop n ts = .ok (e, rest) → Primary ts e rest
  | 0, _, _, _, h => nomatch h
  | n + 1, [], rest, e, h => nomatch h
  | n + 1, t :: ts, rest, e, h => by
      simp only [primary] at h
      split at h
      · rename_i hkind
        split at h
        · rename_i value hvalue
          cases h
          exact .number hkind hvalue
        · cases h
      · rename_i hkind
        cases h
        exact .string hkind
      · rename_i hkind
        cases h
        exact .hotkey hkind
      · rename_i hkind
        cases h
        exact .identifier hkind
      · rename_i hkind
        obtain ⟨⟨inner, ts₁⟩, hinner, h⟩ := bind_eq_ok.1 h
        obtain ⟨⟨u, ts₂⟩, hclose, h⟩ := bind_eq_ok.1 h
        cases h
        obtain ⟨hskip, hu⟩ := expect_eq_ok.1 hclose
        exact .paren hkind (expression_sound hinner) hskip hu
      · cases h

end

theorem parameters_sound {ts rest : List Token} {names : List String}
    (h : parameters stop ts = .ok (names, rest)) : Names ts names rest := by
  fun_induction parameters stop ts generalizing names rest with
  | case1 => cases h
  | case2 t hkind =>
      cases h
      exact .last (by simpa using hkind) nofun
  | case3 t hkind u ts hcomma ih =>
      obtain ⟨⟨more, ts₁⟩, hmore, h⟩ := bind_eq_ok.1 h
      cases h
      exact .cons (by simpa using hkind) (by simpa using hcomma) (ih hmore)
  | case4 t hkind u ts hcomma =>
      cases h
      exact .last (by simpa using hkind) (by simpa using hcomma)
  | case5 t ts hkind => cases h

theorem statementEnd_eq_ok {inBlock : Bool} {ts : List Token} :
    statementEnd stop inBlock ts = .ok () ↔
      kindOf ts ∈ if inBlock then .rightBrace :: endings else endings := by
  unfold statementEnd endings
  cases inBlock <;> split <;> simp_all [fail]

mutual

theorem statement_sound : ∀ {n : Nat} {ts rest : List Token} {s : Stmt},
    statement stop n ts = .ok (s, rest) → Statement ts s rest
  | 0, _, _, _, h => nomatch h
  | n + 1, [], rest, s, h => by
      unfold statement at h
      obtain ⟨⟨e, ts₁⟩, he, h⟩ := bind_eq_ok.1 h
      cases h
      exact .expr (by decide) (expression_sound he)
  | n + 1, t :: ts, rest, s, h => by
      simp only [statement] at h
      split at h
      · rename_i hkind
        obtain ⟨⟨u, ts₁⟩, harrow, h⟩ := bind_eq_ok.1 h
        obtain ⟨⟨action, ts₂⟩, haction, h⟩ := bind_eq_ok.1 h
        cases h
        obtain ⟨rfl, hu⟩ := expect_eq_ok.1 harrow
        exact .bind hkind hu (statement_sound haction)
      · exact .block (block_sound h)
      · rename_i hkind
        obtain ⟨⟨u, ts₁⟩, hname, hmore⟩ := bind_eq_ok.1 h
        obtain ⟨rfl, hu⟩ := expect_eq_ok.1 hname
        simp only at hmore
        split at hmore
        · rename_i hassign
          obtain ⟨v, ts₂, rfl, hv⟩ := eq_cons_of_kindOf (beq_iff_eq.1 hassign) nofun
          obtain ⟨⟨value, ts₃⟩, hvalue, h⟩ := bind_eq_ok.1 hmore
          cases h
          exact .assign hkind hu hv (expression_sound hvalue)
        · rename_i hassign
          cases hmore
          exact .declare hkind hu (by simpa using hassign)
      · rename_i hkind
        exact .branch hkind (branch_sound h)
      · rename_i hkind
        obtain ⟨⟨condition, ts₁⟩, hcondition, h⟩ := bind_eq_ok.1 h
        obtain ⟨⟨body, ts₂⟩, hbody, h⟩ := bind_eq_ok.1 h
        cases h
        exact .loop hkind (expression_sound hcondition) (block_sound hbody)
      · rename_i hkind
        obtain ⟨⟨u, ts₁⟩, hname, h⟩ := bind_eq_ok.1 h
        obtain ⟨⟨v, ts₂⟩, hopen, h⟩ := bind_eq_ok.1 h
        simp only at h
        split at h
        · obtain ⟨⟨params, ts₃⟩, hparams, h⟩ := bind_eq_ok.1 h
          obtain ⟨⟨w, ts₄⟩, hclose, h⟩ := bind_eq_ok.1 h
          obtain ⟨⟨body, ts₅⟩, hbody, h⟩ := bind_eq_ok.1 h
          cases h
          cases hparams
          obtain ⟨rfl, hu⟩ := expect_eq_ok.1 hname
          obtain ⟨rfl, hv⟩ := expect_eq_ok.1 hopen
          obtain ⟨rfl, hw⟩ := expect_eq_ok.1 hclose
          exact .function hkind hu hv (.none hw) (block_sound hbody)
        · obtain ⟨⟨params, ts₃⟩, hparams, h⟩ := bind_eq_ok.1 h
          obtain ⟨⟨w, ts₄⟩, hclose, h⟩ := bind_eq_ok.1 h
          obtain ⟨⟨body, ts₅⟩, hbody, h⟩ := bind_eq_ok.1 h
          cases h
          obtain ⟨rfl, hu⟩ := expect_eq_ok.1 hname
          obtain ⟨rfl, hv⟩ := expect_eq_ok.1 hopen
          obtain ⟨rfl, hw⟩ := expect_eq_ok.1 hclose
          exact .function hkind hu hv (.some (parameters_sound hparams) hw) (block_sound hbody)
      · rename_i hkind
        split at h
        all_goals rename_i hnext
        · cases h
          exact .leaveNull hkind (by rw [hnext]; decide)
        · cases h
          exact .leaveNull hkind (by rw [hnext]; decide)
        · cases h
          exact .leaveNull hkind (by rw [hnext]; decide)
        · cases h
          exact .leaveNull hkind (by rw [hnext]; decide)
        · obtain ⟨⟨value, ts₁⟩, hvalue, h⟩ := bind_eq_ok.1 h
          cases h
          exact .leave hkind (by simp_all [endings]) (expression_sound hvalue)
      · obtain ⟨⟨e, ts₁⟩, he, h⟩ := bind_eq_ok.1 h
        cases h
        exact .expr (by simp_all [openings]) (expression_sound he)

theorem branch_sound : ∀ {n : Nat} {ts rest : List Token} {s : Stmt},
    branch stop n ts = .ok (s, rest) → Branch ts s rest
  | 0, _, _, _, h => nomatch h
  | n + 1, ts, rest, s, h => by
      unfold branch at h
      obtain ⟨⟨condition, ts₁⟩, hcondition, h⟩ := bind_eq_ok.1 h
      obtain ⟨⟨body, ts₂⟩, hbody, h⟩ := bind_eq_ok.1 h
      simp only at h
      split at h
      · rename_i helse
        obtain ⟨t, ts₃, hskip, ht⟩ := eq_cons_of_kindOf (beq_iff_eq.1 helse) nofun
        simp only [hskip, List.drop_one, List.tail_cons] at h
        split at h
        · rename_i hif
          obtain ⟨u, ts₄, hskip', hu⟩ := eq_cons_of_kindOf (beq_iff_eq.1 hif) nofun
          simp only [hskip', List.tail_cons] at h
          obtain ⟨⟨alternative, ts₅⟩, halternative, h⟩ := bind_eq_ok.1 h
          cases h
          exact .chain (expression_sound hcondition) (block_sound hbody) hskip ht hskip' hu
            (branch_sound halternative)
        · obtain ⟨⟨alternative, ts₅⟩, halternative, h⟩ := bind_eq_ok.1 h
          cases h
          exact .otherwise (expression_sound hcondition) (block_sound hbody) hskip ht
            (block_sound halternative)
      · rename_i helse
        cases h
        exact .plain (expression_sound hcondition) (block_sound hbody) (by simpa using helse)

theorem block_sound : ∀ {n : Nat} {ts rest : List Token} {s : Stmt},
    block stop n ts = .ok (s, rest) → Block ts s rest
  | 0, _, _, _, h => nomatch h
  | n + 1, ts, rest, s, h => by
      unfold block at h
      obtain ⟨⟨t, ts₁⟩, hopen, h⟩ := bind_eq_ok.1 h
      obtain ⟨⟨body, ts₂⟩, hbody, h⟩ := bind_eq_ok.1 h
      cases h
      obtain ⟨rfl, ht⟩ := expect_eq_ok.1 hopen
      exact .braces ht (blockTail_sound hbody)

theorem blockTail_sound : ∀ {n : Nat} {ts rest : List Token} {body : List Stmt},
    blockTail stop n ts = .ok (body, rest) → BlockTail ts body rest
  | 0, _, _, _, h => nomatch h
  | n + 1, [], rest, body, h => nomatch h
  | n + 1, t :: ts, rest, body, h => by
      simp only [blockTail] at h
      split at h
      · rename_i hclose
        cases h
        exact .nil (by simpa using hclose)
      · rename_i hclose
        obtain ⟨⟨first, ts₁⟩, hfirst, h⟩ := bind_eq_ok.1 h
        obtain ⟨⟨⟩, hend, h⟩ := bind_eq_ok.1 h
        obtain ⟨⟨more, ts₂⟩, hmore, h⟩ := bind_eq_ok.1 h
        cases h
        exact .cons (by simpa using hclose) (statement_sound hfirst) (statementEnd_eq_ok.1 hend)
          (blockTail_sound hmore)

end

theorem statements_sound : ∀ {n : Nat} {ts rest : List Token} {body : List Stmt},
    statements stop n ts = .ok (body, rest) → Statements ts body
  | 0, _, _, _, h => nomatch h
  | n + 1, [], rest, body, h => by
      cases h
      exact .nil
  | n + 1, t :: ts, rest, body, h => by
      simp only [statements] at h
      obtain ⟨⟨first, ts₁⟩, hfirst, h⟩ := bind_eq_ok.1 h
      obtain ⟨⟨⟩, hend, h⟩ := bind_eq_ok.1 h
      obtain ⟨⟨more, ts₂⟩, hmore, h⟩ := bind_eq_ok.1 h
      cases h
      exact .cons (statement_sound hfirst) (statementEnd_eq_ok.1 hend) (statements_sound hmore)

/-! ## Parsers find what is in the grammar

A parser may need to descend sixteen times for each token, and a few times more for the levels that
it passes before it takes the first one. -/

theorem exists_succ {k n : Nat} (h : k + 1 ≤ n) : ∃ m, n = m + 1 :=
  ⟨n - 1, by omega⟩

end Parse

namespace Grammar

open Parse

variable (stop : Token)

theorem Block.kindOf_ne_ifWord {ts rest : List Token} {s : Stmt} (h : Block ts s rest) :
    kindOf ts ≠ .ifWord := by
  cases h with
  | braces hkind _ => simp [hkind]

mutual

theorem Expression.parses {ts rest : List Token} {e : Expr} : Expression ts e rest →
    ∀ n, 16 * ts.length + 11 ≤ n → expression stop n ts = .ok (e, rest)
  | .stages hhead htail, n, hn => by
      obtain ⟨n, rfl⟩ := exists_succ hn
      have hlt := hhead.length_lt
      unfold expression
      exact bind_eq_ok.2 ⟨_, hhead.parses n (by simp [levels]; omega),
        bind_eq_ok.2 ⟨_, htail.parses n (by omega), rfl⟩⟩

theorem PipelineTail.parses {ts rest : List Token} {stages : List Expr} :
    PipelineTail ts stages rest →
    ∀ n, 16 * ts.length + 1 ≤ n → pipelineTail stop n ts = .ok (stages, rest)
  | .nil hpipe, n, hn => by
      obtain ⟨n, rfl⟩ := exists_succ hn
      unfold pipelineTail
      rw [hpipe]
  | .cons hpipe hstage htail, n, hn => by
      obtain ⟨n, rfl⟩ := exists_succ hn
      have hlt := length_lt_of_afterPipe hpipe
      have hlt' := hstage.length_lt
      unfold pipelineTail
      rw [hpipe]
      exact bind_eq_ok.2 ⟨_, hstage.parses n (by simp [levels]; omega),
        bind_eq_ok.2 ⟨_, htail.parses n (by omega), rfl⟩⟩

theorem Binary.parses {ops : List (List BinOp)} {commands c : Bool} {ts rest : List Token}
    {e : Expr} : Binary ops commands ts e c rest →
    ∀ n, 16 * ts.length + ops.length + 4 ≤ n →
      binary stop n ops commands ts = .ok ((e, c), rest)
  | .operand hoperand, n, hn => by
      obtain ⟨n, rfl⟩ := exists_succ hn
      exact hoperand.parses n (by simpa using hn)
  | .level hleft htail, n, hn => by
      obtain ⟨n, rfl⟩ := exists_succ hn
      rw [List.length_cons] at hn
      have hlt := hleft.length_lt
      unfold binary
      exact bind_eq_ok.2 ⟨_, hleft.parses n (by omega), htail.parses n (by omega)⟩

theorem BinaryTail.parses {ops : List BinOp} {tighter : List (List BinOp)} {commands c d : Bool}
    {left e : Expr} {ts rest : List Token} : BinaryTail ops tighter commands left c ts e d rest →
    ∀ n, 16 * ts.length + tighter.length + 1 ≤ n →
      binaryTail stop n ops tighter commands left c ts = .ok ((e, d), rest)
  | .nil hop, n, hn => by
      obtain ⟨n, rfl⟩ := exists_succ hn
      unfold binaryTail
      rw [hop]
  | .cons hop hright htail, n, hn => by
      obtain ⟨n, rfl⟩ := exists_succ hn
      have hlt := length_lt_of_afterOperator hop
      have hlt' := hright.length_lt
      unfold binaryTail
      rw [hop]
      exact bind_eq_ok.2 ⟨_, hright.parses n (by omega), htail.parses n (by omega)⟩

theorem Unary.parses {commands c : Bool} {ts rest : List Token} {e : Expr} :
    Unary commands ts e c rest →
    ∀ n, 16 * ts.length + 3 ≤ n → unary stop n commands ts = .ok ((e, c), rest)
  | .minus hkind htext hoperand, n, hn => by
      obtain ⟨n, rfl⟩ := exists_succ hn
      rw [List.length_cons] at hn
      simp only [unary, hkind, htext, beq_self_eq_true, Bool.and_self, if_true]
      exact bind_eq_ok.2 ⟨_, hoperand.parses n (by omega), rfl⟩
  | .call hfirst hcall, n, hn => by
      obtain ⟨n, rfl⟩ := exists_succ hn
      have hparses := hcall.parses n (by omega)
      cases ts with
      | nil => exact hparses
      | cons t ts =>
          have hminus : (t.kind == .operator && t.text == "-") = false := by
            simpa using hfirst t rfl
          simp only [unary, hminus, Bool.false_eq_true, if_false]
          exact hparses

theorem Call.parses {commands c : Bool} {ts rest : List Token} {e : Expr} :
    Call commands ts e c rest →
    ∀ n, 16 * ts.length + 2 ≤ n → call stop n commands ts = .ok ((e, c), rest)
  | .plain hhead hsuffixes hplain, n, hn => by
      obtain ⟨n, rfl⟩ := exists_succ hn
      have hlt := hhead.length_lt
      unfold call
      refine bind_eq_ok.2 ⟨_, hhead.parses n (by omega),
        bind_eq_ok.2 ⟨_, hsuffixes.parses n (by omega), ?_⟩⟩
      exact if_neg (by simpa [and_assoc] using hplain)
  | .command hhead hsuffixes hcallee hstarts hargs, n, hn => by
      obtain ⟨n, rfl⟩ := exists_succ hn
      have hlt := hhead.length_lt
      have hle := hsuffixes.length_le
      unfold call
      refine bind_eq_ok.2 ⟨_, hhead.parses n (by omega),
        bind_eq_ok.2 ⟨_, hsuffixes.parses n (by omega), ?_⟩⟩
      simp only [hcallee, hstarts, Bool.and_self, if_true]
      exact bind_eq_ok.2 ⟨_, hargs.parses n (by omega), rfl⟩

theorem Suffixes.parses {head e : Expr} {ts rest : List Token} : Suffixes head ts e rest →
    ∀ n, 16 * ts.length + 1 ≤ n → suffixes stop n head ts = .ok (e, rest)
  | .nil hdot hparen, n, hn => by
      obtain ⟨n, rfl⟩ := exists_succ hn
      cases ts with
      | nil => rfl
      | cons t ts => simp_all [suffixes]
  | .member hdot hu hmore, n, hn => by
      obtain ⟨n, rfl⟩ := exists_succ hn
      simp only [List.length_cons] at hn
      simp only [suffixes, hdot, beq_self_eq_true, if_true]
      exact bind_eq_ok.2 ⟨_, expect_eq_ok.2 ⟨rfl, hu⟩, hmore.parses n (by omega)⟩
  | .call hparen hcallee hargs hmore, n, hn => by
      obtain ⟨n, rfl⟩ := exists_succ hn
      simp only [List.length_cons] at hn
      have hlt := hargs.length_lt
      simp only [suffixes, hparen, hcallee]
      exact bind_eq_ok.2 ⟨_, hargs.parses n (by omega), hmore.parses n (by omega)⟩

theorem CommandArguments.parses {ts rest : List Token} {args : List Expr} :
    CommandArguments ts args rest →
    ∀ n, 16 * ts.length + 11 ≤ n → commandArguments stop n ts = .ok (args, rest)
  | .last harg hstarts, n, hn => by
      obtain ⟨n, rfl⟩ := exists_succ hn
      unfold commandArguments
      refine bind_eq_ok.2 ⟨_, harg.parses n (by simp [levels]; omega), ?_⟩
      simp [hstarts]
      rfl
  | .cons harg hstarts hmore, n, hn => by
      obtain ⟨n, rfl⟩ := exists_succ hn
      have hlt := Nat.lt_of_le_of_lt (skipComma_length_le _) harg.length_lt
      unfold commandArguments
      refine bind_eq_ok.2 ⟨_, harg.parses n (by simp [levels]; omega), ?_⟩
      simp only [hstarts, if_true]
      exact bind_eq_ok.2 ⟨_, hmore.parses n (by omega), rfl⟩

theorem Arguments.parses {ts rest : List Token} {args : List Expr} : Arguments ts args rest →
    ∀ n, 16 * ts.length + 13 ≤ n → arguments stop n ts = .ok (args, rest)
  | .none hskip hparen, n, hn => by
      obtain ⟨n, rfl⟩ := exists_succ hn
      simp [arguments, hskip, hparen]
  | .some hparen hlist, n, hn => by
      obtain ⟨n, rfl⟩ := exists_succ hn
      have hle := skipNewlines_length_le ts
      have hparses := hlist.parses n (by omega)
      unfold arguments
      split
      · rename_i hskip
        rwa [hskip] at hparses
      · rename_i t ts₁ hskip
        rw [hskip] at hparen hparses
        exact (if_neg (by simpa using hparen)).trans hparses

theorem ArgumentList.parses {ts rest : List Token} {args : List Expr} : ArgumentList ts args rest →
    ∀ n, 16 * ts.length + 12 ≤ n → argumentList stop n ts = .ok (args, rest)
  | .last harg hskip hparen, n, hn => by
      obtain ⟨n, rfl⟩ := exists_succ hn
      unfold argumentList
      refine bind_eq_ok.2 ⟨_, harg.parses n (by omega), ?_⟩
      simp only [hskip, kindOf_cons, hparen]
      exact bind_eq_ok.2 ⟨_, expect_eq_ok.2 ⟨rfl, hparen⟩, rfl⟩
  | .cons harg hskip hcomma hmore, n, hn => by
      obtain ⟨n, rfl⟩ := exists_succ hn
      have hlt := harg.length_lt
      have hlt' := length_lt_of_skipNewlines hskip
      have hle := Nat.lt_of_le_of_lt (skipNewlines_length_le _) hlt'
      unfold argumentList
      refine bind_eq_ok.2 ⟨_, harg.parses n (by omega), ?_⟩
      simp only [hskip, kindOf_cons, hcomma]
      exact bind_eq_ok.2 ⟨_, hmore.parses n (by omega), rfl⟩

theorem Primary.parses {ts rest : List Token} {e : Expr} : Primary ts e rest →
    ∀ n, 16 * ts.length + 1 ≤ n → primary stop n ts = .ok (e, rest)
  | .number hkind hvalue, n, hn => by
      obtain ⟨n, rfl⟩ := exists_succ hn
      simp only [primary, hkind, hvalue]
  | .string hkind, n, hn => by
      obtain ⟨n, rfl⟩ := exists_succ hn
      simp only [primary, hkind]
  | .hotkey hkind, n, hn => by
      obtain ⟨n, rfl⟩ := exists_succ hn
      simp only [primary, hkind]
  | .identifier hkind, n, hn => by
      obtain ⟨n, rfl⟩ := exists_succ hn
      simp only [primary, hkind]
  | @Primary.paren _ ts _ _ _ _ hkind hinner hskip hu, n, hn => by
      obtain ⟨n, rfl⟩ := exists_succ hn
      rw [List.length_cons] at hn
      have hle := skipNewlines_length_le ts
      simp only [primary, hkind]
      exact bind_eq_ok.2 ⟨_, hinner.parses n (by omega),
        bind_eq_ok.2 ⟨_, expect_eq_ok.2 ⟨hskip, hu⟩, rfl⟩⟩

end

theorem Names.parses {ts rest : List Token} {names : List String} (h : Names ts names rest) :
    parameters stop ts = .ok (names, rest) := by
  induction h with
  | @last t rest hkind hcomma =>
      cases rest with
      | nil => simp [parameters, hkind]
      | cons u rest =>
          have hu : (u.kind == .comma) = false := by simpa using hcomma
          simp [parameters, hkind, hu]
  | cons hkind hcomma _ ih =>
      simp only [parameters, hkind, hcomma, beq_self_eq_true, if_true]
      exact bind_eq_ok.2 ⟨_, ih, rfl⟩

mutual

theorem Statement.parses {ts rest : List Token} {s : Stmt} : Statement ts s rest →
    ∀ n, 16 * ts.length + 13 ≤ n → statement stop n ts = .ok (s, rest)
  | @Statement.bind _ _ ts _ _ hkind hu haction, n, hn => by
      obtain ⟨n, rfl⟩ := exists_succ hn
      simp only [List.length_cons] at hn
      have hle := skipNewlines_length_le ts
      simp only [statement, hkind]
      exact bind_eq_ok.2 ⟨_, expect_eq_ok.2 ⟨rfl, hu⟩,
        bind_eq_ok.2 ⟨_, haction.parses n (by omega), rfl⟩⟩
  | .block hblock, n, hn => by
      obtain ⟨n, rfl⟩ := exists_succ hn
      have hparses := hblock.parses n (by omega)
      cases hblock with
      | braces hkind _ =>
          simp only [statement, hkind]
          exact hparses
  | @Statement.assign _ _ _ ts _ _ hkind hu hv hvalue, n, hn => by
      obtain ⟨n, rfl⟩ := exists_succ hn
      simp only [List.length_cons] at hn
      have hle := skipNewlines_length_le ts
      simp only [statement, hkind]
      refine bind_eq_ok.2 ⟨_, expect_eq_ok.2 ⟨rfl, hu⟩, ?_⟩
      simp only [kindOf_cons, hv, beq_self_eq_true, if_true, List.drop_one, List.tail_cons]
      exact bind_eq_ok.2 ⟨_, hvalue.parses stop n (by omega), rfl⟩
  | .declare hkind hu hassign, n, hn => by
      obtain ⟨n, rfl⟩ := exists_succ hn
      simp only [statement, hkind]
      refine bind_eq_ok.2 ⟨_, expect_eq_ok.2 ⟨rfl, hu⟩, ?_⟩
      exact if_neg (by simpa using hassign)
  | .branch hkind hbranch, n, hn => by
      obtain ⟨n, rfl⟩ := exists_succ hn
      simp only [List.length_cons] at hn
      simp only [statement, hkind]
      exact hbranch.parses n (by omega)
  | .loop hkind hcondition hbody, n, hn => by
      obtain ⟨n, rfl⟩ := exists_succ hn
      simp only [List.length_cons] at hn
      have hlt := Nat.lt_of_le_of_lt (skipNewlines_length_le _) hcondition.length_lt
      simp only [statement, hkind]
      exact bind_eq_ok.2 ⟨_, hcondition.parses stop n (by omega),
        bind_eq_ok.2 ⟨_, hbody.parses n (by omega), rfl⟩⟩
  | .function hkind hu hv hparams hbody, n, hn => by
      obtain ⟨n, rfl⟩ := exists_succ hn
      simp only [List.length_cons] at hn
      have hlt := Nat.lt_of_le_of_lt (skipNewlines_length_le _) hparams.length_lt
      have hparses := hbody.parses n (by omega)
      simp only [statement, hkind]
      refine bind_eq_ok.2 ⟨_, expect_eq_ok.2 ⟨rfl, hu⟩,
        bind_eq_ok.2 ⟨_, expect_eq_ok.2 ⟨rfl, hv⟩, ?_⟩⟩
      cases hparams with
      | none hclose =>
          simp only [kindOf_cons, hclose, beq_self_eq_true, if_true]
          exact bind_eq_ok.2 ⟨_, rfl, bind_eq_ok.2 ⟨_, expect_eq_ok.2 ⟨rfl, hclose⟩,
            bind_eq_ok.2 ⟨_, hparses, rfl⟩⟩⟩
      | some hnames hclose =>
          refine (if_neg ?_).trans (bind_eq_ok.2 ⟨_, hnames.parses stop,
            bind_eq_ok.2 ⟨_, expect_eq_ok.2 ⟨rfl, hclose⟩, bind_eq_ok.2 ⟨_, hparses, rfl⟩⟩⟩)
          cases hnames <;> simp_all
  | .leave hkind hnext hvalue, n, hn => by
      obtain ⟨n, rfl⟩ := exists_succ hn
      simp only [List.length_cons] at hn
      have hparses := hvalue.parses stop n (by omega)
      simp only [statement, hkind]
      split
      case h_5 => exact bind_eq_ok.2 ⟨_, hparses, rfl⟩
      all_goals simp_all [endings]
  | .leaveNull hkind hnext, n, hn => by
      obtain ⟨n, rfl⟩ := exists_succ hn
      simp only [statement, hkind]
      split <;> simp_all [endings]
  | .expr hkind he, n, hn => by
      obtain ⟨n, rfl⟩ := exists_succ hn
      have hparses := he.parses stop n (by omega)
      cases ts with
      | nil => exact bind_eq_ok.2 ⟨_, hparses, rfl⟩
      | cons t ts =>
          simp only [statement]
          split
          case h_8 => exact bind_eq_ok.2 ⟨_, hparses, rfl⟩
          all_goals simp_all [openings]

theorem Branch.parses {ts rest : List Token} {s : Stmt} : Branch ts s rest →
    ∀ n, 16 * ts.length + 12 ≤ n → branch stop n ts = .ok (s, rest)
  | .plain hcondition hbody helse, n, hn => by
      obtain ⟨n, rfl⟩ := exists_succ hn
      have hlt := Nat.lt_of_le_of_lt (skipNewlines_length_le _) hcondition.length_lt
      unfold branch
      refine bind_eq_ok.2 ⟨_, hcondition.parses stop n (by omega),
        bind_eq_ok.2 ⟨_, hbody.parses n (by omega), ?_⟩⟩
      exact if_neg (by simpa using helse)
  | .chain hcondition hbody hskip helse hskip' hif halternative, n, hn => by
      obtain ⟨n, rfl⟩ := exists_succ hn
      have hlt := Nat.lt_of_le_of_lt (skipNewlines_length_le _) hcondition.length_lt
      have hlt₁ := hbody.length_lt
      have hlt₂ := length_lt_of_skipNewlines hskip
      have hlt₃ := length_lt_of_skipNewlines hskip'
      unfold branch
      refine bind_eq_ok.2 ⟨_, hcondition.parses stop n (by omega),
        bind_eq_ok.2 ⟨_, hbody.parses n (by omega), ?_⟩⟩
      simp only [hskip, hskip', kindOf_cons, helse, hif, beq_self_eq_true, if_true, List.drop_one,
        List.tail_cons]
      exact bind_eq_ok.2 ⟨_, halternative.parses n (by omega), rfl⟩
  | .otherwise hcondition hbody hskip helse halternative, n, hn => by
      obtain ⟨n, rfl⟩ := exists_succ hn
      have hlt := Nat.lt_of_le_of_lt (skipNewlines_length_le _) hcondition.length_lt
      have hlt₁ := hbody.length_lt
      have hlt₂ := Nat.lt_of_le_of_lt (skipNewlines_length_le _) (length_lt_of_skipNewlines hskip)
      have hparses := halternative.parses n (by omega)
      have hblock : kindOf (skipNewlines _) ≠ .ifWord := halternative.kindOf_ne_ifWord
      unfold branch
      refine bind_eq_ok.2 ⟨_, hcondition.parses stop n (by omega),
        bind_eq_ok.2 ⟨_, hbody.parses n (by omega), ?_⟩⟩
      simp only [hskip, kindOf_cons, helse, beq_self_eq_true, if_true, List.drop_one,
        List.tail_cons]
      exact (if_neg (by simpa using hblock)).trans (bind_eq_ok.2 ⟨_, hparses, rfl⟩)

theorem Block.parses {ts rest : List Token} {s : Stmt} : Block ts s rest →
    ∀ n, 16 * ts.length + 12 ≤ n → block stop n ts = .ok (s, rest)
  | @Block.braces _ ts _ _ hkind hbody, n, hn => by
      obtain ⟨n, rfl⟩ := exists_succ hn
      simp only [List.length_cons] at hn
      have hle := skipSeparators_length_le ts
      unfold block
      exact bind_eq_ok.2 ⟨_, expect_eq_ok.2 ⟨rfl, hkind⟩,
        bind_eq_ok.2 ⟨_, hbody.parses n (by omega), rfl⟩⟩

theorem BlockTail.parses {ts rest : List Token} {body : List Stmt} : BlockTail ts body rest →
    ∀ n, 16 * ts.length + 14 ≤ n → blockTail stop n ts = .ok (body, rest)
  | .nil hkind, n, hn => by
      obtain ⟨n, rfl⟩ := exists_succ hn
      simp [blockTail, hkind]
  | .cons hkind hfirst hend hmore, n, hn => by
      obtain ⟨n, rfl⟩ := exists_succ hn
      have hlt := Nat.lt_of_le_of_lt (skipSeparators_length_le _) hfirst.length_lt
      have hparses := hfirst.parses n (by omega)
      cases ts with
      | nil => exact absurd hfirst.length_lt (Nat.not_lt_zero _)
      | cons t ts =>
          simp only [blockTail]
          refine (if_neg (by simpa using hkind)).trans ?_
          exact bind_eq_ok.2 ⟨_, hparses, bind_eq_ok.2 ⟨_, statementEnd_eq_ok.2 hend,
            bind_eq_ok.2 ⟨_, hmore.parses n (by omega), rfl⟩⟩⟩

end

theorem Statements.parses {ts : List Token} {body : List Stmt} (h : Statements ts body) :
    ∀ n, 16 * ts.length + 14 ≤ n → statements stop n ts = .ok (body, []) := by
  induction h with
  | nil =>
      intro n hn
      obtain ⟨n, rfl⟩ := exists_succ hn
      rfl
  | @cons ts ts₁ s body hfirst hend hmore ih =>
      intro n hn
      obtain ⟨n, rfl⟩ := exists_succ hn
      have hlt := Nat.lt_of_le_of_lt (skipSeparators_length_le _) hfirst.length_lt
      have hparses := hfirst.parses stop n (by omega)
      cases ts with
      | nil => exact absurd hfirst.length_lt (Nat.not_lt_zero _)
      | cons t ts =>
          simp only [statements]
          exact bind_eq_ok.2 ⟨_, hparses, bind_eq_ok.2 ⟨_, statementEnd_eq_ok.2 hend,
            bind_eq_ok.2 ⟨_, ih n (by omega), rfl⟩⟩⟩

end Grammar

theorem Stream.run_eq_ok {α : Type} {s : Stream} {a : α}
    {parser : Token → Nat → List Token → Except Parse.Halt (α × List Token)} :
    s.run parser = .ok a ↔
      ∃ rest, parser s.stop (Parse.depthBound s.tokens) s.tokens = .ok (a, rest) := by
  unfold Stream.run
  rcases parser s.stop (Parse.depthBound s.tokens) s.tokens with (e | _) | ⟨b, rest⟩
  · exact ⟨nofun, nofun⟩
  · exact ⟨nofun, nofun⟩
  · constructor
    · intro h
      cases h
      exact ⟨rest, rfl⟩
    · rintro ⟨_, h⟩
      cases h
      rfl

/-- **Scripts are read by the grammar**: reading gives a program exactly when the tokens are its
statements. -/
theorem parse_eq_ok_iff {ts : List Token} {p : Program} :
    parse ts = .ok p ↔
      Grammar.Statements (Parse.skipSeparators (Stream.ofTokens ts).tokens) p.statements := by
  refine Stream.run_eq_ok.trans ?_
  generalize Stream.ofTokens ts = stream
  constructor
  · rintro ⟨rest, h⟩
    rcases hrun : Parse.statements stream.stop (Parse.depthBound stream.tokens)
      (Parse.skipSeparators stream.tokens) with halt | ⟨body, rest'⟩
    · rw [hrun] at h
      cases h
    · rw [hrun] at h
      cases h
      exact Parse.statements_sound hrun
  · intro h
    have hle := Grammar.skipSeparators_length_le stream.tokens
    have hrun := h.parses stream.stop (Parse.depthBound stream.tokens)
      (by unfold Parse.depthBound; omega)
    rw [hrun]
    exact ⟨[], rfl⟩

end Chord
