import Chord.Proofs.Script.Concatenation
import Chord.Proofs.Script.Shapes
import Chord.Proofs.Token.Wording

/-!
# The names and hotkeys of a tree

**Input.** A script that can be read.

**Results.** `spellings` lists the names and hotkeys that occur in a tree. Those of a tree that is
read are texts of the tokens it is read from (`Expression.spelled`, `Statement.spelled`), so that
all names and hotkeys of a script are legible (`parseSource_legible`).
-/

namespace Chord

/-! ## Spellings -/

/-- The names and hotkeys of an expression. -/
def Expr.spellings : Expr → List (Kind × String)
  | .identifier name => [(.identifier, name)]
  | .number _ => []
  | .string _ => []
  | .hotkey text => [(.hotkey, text)]
  | .binary left _ right => left.spellings ++ right.spellings
  | .call callee args => callee.spellings ++ args.flatMap fun arg => arg.spellings
  | .member object property => object.spellings ++ property.spellings
  | .pipeline stages => stages.flatMap fun stage => stage.spellings

/-- The names and hotkeys of a statement. -/
def Stmt.spellings : Stmt → List (Kind × String)
  | .bind hotkey action _ => hotkey.spellings ++ action.spellings
  | .block body => body.flatMap fun s => s.spellings
  | .expr value => value.spellings
  | .assign name none => [(.identifier, name)]
  | .assign name (some value) => (.identifier, name) :: value.spellings
  | .branch condition consequence none => condition.spellings ++ consequence.spellings
  | .branch condition consequence (some alternative) =>
      condition.spellings ++ (consequence.spellings ++ alternative.spellings)
  | .loop condition body => condition.spellings ++ body.spellings
  | .leave none => []
  | .leave (some value) => value.spellings
  | .function name params body =>
      (.identifier, name) :: (params.map (fun param => (.identifier, param)) ++ body.spellings)

/-- All names and hotkeys of a program. -/
def Program.spellings (p : Program) : List (Kind × String) :=
  p.statements.flatMap Stmt.spellings

/-! ## Spellings among tokens -/

/-- Spellings of names and hotkeys that are those of tokens. -/
def SpelledBy (ts : List Token) (xs : List (Kind × String)) : Prop :=
  ∀ x ∈ xs, ∃ t ∈ ts, t.kind ∈ [.identifier, .hotkey] ∧ (t.kind, t.text) = x

namespace SpelledBy

variable {ts us : List Token} {xs ys : List (Kind × String)} {t : Token} {kind : Kind}

theorem nil : SpelledBy ts [] :=
  List.forall_mem_nil _

theorem append (hxs : SpelledBy ts xs) (hys : SpelledBy ts ys) : SpelledBy ts (xs ++ ys) :=
  List.forall_mem_append.2 ⟨hxs, hys⟩

theorem of_suffix (h : SpelledBy us xs) (hsuffix : us <:+ ts) : SpelledBy ts xs := by
  intro x hx
  obtain ⟨t, ht, hx⟩ := h x hx
  exact ⟨t, hsuffix.subset ht, hx⟩

theorem token (ht : t ∈ ts) (hkind : t.kind = kind)
    (hmem : kind ∈ [.identifier, .hotkey] := by decide) : SpelledBy ts [(kind, t.text)] :=
  List.forall_mem_singleton.2 ⟨t, ht, hkind ▸ hmem, by rw [hkind]⟩

theorem cons (ht : t ∈ ts) (hkind : t.kind = kind) (h : SpelledBy ts xs)
    (hmem : kind ∈ [.identifier, .hotkey] := by decide) : SpelledBy ts ((kind, t.text) :: xs) :=
  (token ht hkind hmem).append h

end SpelledBy

/-! ## Expressions -/

theorem Expr.spellings_ofStages (head : Expr) (stages : List Expr) :
    (Expr.ofStages (head :: stages)).spellings =
      head.spellings ++ stages.flatMap fun stage => stage.spellings := by
  cases stages with
  | nil => simp [ofStages]
  | cons stage more => simp [ofStages, spellings]

theorem Expr.spellings_assemble (head : Expr) (isCommand : Bool) (stages : List Expr) :
    (Parse.assemble head isCommand stages).spellings =
      head.spellings ++ stages.flatMap fun stage => stage.spellings := by
  unfold Parse.assemble
  split
  · simp [spellings]
  · exact spellings_ofStages head stages

namespace Grammar

open Parse

theorem suffix_of_afterPipe {ts rest : List Token} (h : afterPipe? ts = some rest) :
    rest <:+ ts := by
  obtain ⟨t, ts₁, hskip, -, rfl⟩ := afterPipe?_eq_some.1 h
  exact (skipNewlines_suffix ts₁).trans (suffix_of_skipNewlines hskip)

theorem suffix_of_afterOperator {ops : List BinOp} {op : BinOp} {ts rest : List Token}
    (h : afterOperator? ops ts = some (op, rest)) : rest <:+ ts := by
  obtain ⟨t, ts₁, rfl, -, -, -, rfl⟩ := afterOperator?_eq_some.1 h
  exact (skipNewlines_suffix ts₁).trans (List.suffix_cons t ts₁)

theorem skipComma_suffix (ts : List Token) : skipComma ts <:+ ts := by
  cases ts with
  | nil => exact List.suffix_rfl
  | cons t ts =>
      rw [skipComma]
      split
      · exact List.suffix_cons t ts
      · exact List.suffix_rfl

theorem Primary.suffix {ts rest : List Token} {e : Expr} (h : Primary ts e rest) : rest <:+ ts :=
  (h.takes (E := Stops)).suffix

theorem Arguments.suffix {ts rest : List Token} {args : List Expr} (h : Arguments ts args rest) :
    rest <:+ ts :=
  (h.takes (E := Stops)).suffix

mutual

theorem Expression.spelled {ts rest : List Token} {e : Expr} :
    Expression ts e rest → SpelledBy ts e.spellings
  | @Expression.stages _ _ _ head c stages hhead htail => by
      rw [Expr.spellings_assemble]
      exact hhead.spelled.append (htail.spelled.of_suffix hhead.takes.suffix)

theorem PipelineTail.spelled {ts rest : List Token} {stages : List Expr} :
    PipelineTail ts stages rest → SpelledBy ts (stages.flatMap fun stage => stage.spellings)
  | .nil _ => .nil
  | .cons hpipe hstage hmore => by
      rw [List.flatMap_cons]
      exact (hstage.spelled.append (hmore.spelled.of_suffix hstage.takes.suffix)).of_suffix
        (suffix_of_afterPipe hpipe)

theorem Binary.spelled {ops : List (List BinOp)} {commands c : Bool} {ts rest : List Token}
    {e : Expr} : Binary ops commands ts e c rest → SpelledBy ts e.spellings
  | .operand hoperand => hoperand.spelled
  | .level hleft htail => htail.spelled hleft.spelled hleft.takes.suffix

/-- The tokens `us` are those of the left operand and of what is behind it. -/
theorem BinaryTail.spelled {ops : List BinOp} {tighter : List (List BinOp)}
    {commands c d : Bool} {ts us rest : List Token} {left e : Expr} :
    BinaryTail ops tighter commands left c ts e d rest → SpelledBy us left.spellings →
      ts <:+ us → SpelledBy us e.spellings
  | .nil _, hleft, _ => hleft
  | .cons hop hright htail, hleft, hsuffix => by
      have hbehind := (suffix_of_afterOperator hop).trans hsuffix
      refine htail.spelled ?_ (hright.takes.suffix.trans hbehind)
      rw [Expr.spellings]
      exact hleft.append (hright.spelled.of_suffix hbehind)

theorem Unary.spelled {commands c : Bool} {ts rest : List Token} {e : Expr} :
    Unary commands ts e c rest → SpelledBy ts e.spellings
  | .minus _ _ hoperand => by
      rw [Expr.spellings, Expr.spellings, List.nil_append]
      exact hoperand.spelled.of_suffix (List.suffix_cons _ _)
  | .call _ hcall => hcall.spelled

theorem Call.spelled {commands c : Bool} {ts rest : List Token} {e : Expr} :
    Call commands ts e c rest → SpelledBy ts e.spellings
  | .plain hhead hsuffixes _ => hsuffixes.spelled hhead.spelled hhead.suffix
  | .command hhead hsuffixes _ _ hargs => by
      rw [Expr.spellings]
      refine (hsuffixes.spelled hhead.spelled hhead.suffix).append ?_
      exact hargs.spelled.of_suffix (hsuffixes.takes.suffix.trans hhead.suffix)

theorem Suffixes.spelled {head e : Expr} {ts us rest : List Token} :
    Suffixes head ts e rest → SpelledBy us head.spellings → ts <:+ us → SpelledBy us e.spellings
  | .nil _ _, hhead, _ => hhead
  | @Suffixes.member _ t u ts _ _ _ hname hmore, hhead, hsuffix => by
      have hmem : u ∈ us := hsuffix.subset (by simp)
      refine hmore.spelled ?_ ((List.suffix_append [t, u] ts).trans hsuffix)
      rw [Expr.spellings, Expr.spellings]
      exact hhead.append (.token hmem hname)
  | @Suffixes.call _ t ts _ _ _ _ _ _ hargs hmore, hhead, hsuffix => by
      have hbehind := (List.suffix_cons t ts).trans hsuffix
      refine hmore.spelled ?_ (hargs.suffix.trans hbehind)
      rw [Expr.spellings]
      exact hhead.append (hargs.spelled.of_suffix hbehind)

theorem CommandArguments.spelled {ts rest : List Token} {args : List Expr} :
    CommandArguments ts args rest → SpelledBy ts (args.flatMap fun arg => arg.spellings)
  | .last harg _ => by
      rw [List.flatMap_singleton]
      exact harg.spelled
  | .cons harg _ hmore => by
      rw [List.flatMap_cons]
      exact harg.spelled.append
        (hmore.spelled.of_suffix ((skipComma_suffix _).trans harg.takes.suffix))

theorem Arguments.spelled {ts rest : List Token} {args : List Expr} :
    Arguments ts args rest → SpelledBy ts (args.flatMap fun arg => arg.spellings)
  | .none _ _ => .nil
  | .some _ hlist => hlist.spelled.of_suffix (skipNewlines_suffix _)

theorem ArgumentList.spelled {ts rest : List Token} {args : List Expr} :
    ArgumentList ts args rest → SpelledBy ts (args.flatMap fun arg => arg.spellings)
  | .last harg _ _ => by
      rw [List.flatMap_singleton]
      exact harg.spelled
  | .cons harg hskip _ hmore => by
      have hbehind := (suffix_of_skipNewlines hskip).trans harg.takes.suffix
      rw [List.flatMap_cons]
      exact harg.spelled.append (hmore.spelled.of_suffix ((skipNewlines_suffix _).trans hbehind))

theorem Primary.spelled {ts rest : List Token} {e : Expr} :
    Primary ts e rest → SpelledBy ts e.spellings
  | .number _ _ => by
      rw [Expr.spellings]
      exact .nil
  | .string _ => by
      rw [Expr.spellings]
      exact .nil
  | .hotkey hkind => by
      rw [Expr.spellings]
      exact .token List.mem_cons_self hkind
  | .identifier hkind => by
      rw [Expr.spellings]
      exact .token List.mem_cons_self hkind
  | .paren _ hinner _ _ =>
      hinner.spelled.of_suffix ((skipNewlines_suffix _).trans (List.suffix_cons _ _))

end

/-! ## Statements -/

theorem Names.spelled {ts rest : List Token} {names : List String} (h : Names ts names rest) :
    SpelledBy ts (names.map fun name => (.identifier, name)) := by
  induction h with
  | last hname _ => exact .token List.mem_cons_self hname
  | @cons t u ts _ _ hname _ _ ih =>
      exact .cons List.mem_cons_self hname (ih.of_suffix (List.suffix_append [t, u] ts))

theorem Parameters.spelled {ts rest : List Token} {names : List String} :
    Parameters ts names rest → SpelledBy ts (names.map fun name => (.identifier, name))
  | .none _ => .nil
  | .some hnames _ => hnames.spelled

mutual

theorem Statement.spelled {ts rest : List Token} {s : Stmt} :
    Statement ts s rest → SpelledBy ts s.spellings
  | @Statement.bind t u ts _ _ hhotkey _ haction => by
      rw [Stmt.spellings, Expr.spellings]
      exact .cons List.mem_cons_self hhotkey (haction.spelled.of_suffix
        ((skipNewlines_suffix ts).trans (List.suffix_append [t, u] ts)))
  | .block hblock => hblock.spelled
  | @Statement.assign t u v ts _ _ _ hname _ hvalue => by
      rw [Stmt.spellings]
      exact .cons (by simp) hname (hvalue.spelled.of_suffix
        ((skipNewlines_suffix ts).trans (List.suffix_append [t, u, v] ts)))
  | .declare _ hname _ => by
      rw [Stmt.spellings]
      exact .token (by simp) hname
  | .branch _ hbranch => hbranch.spelled.of_suffix (List.suffix_cons _ _)
  | @Statement.loop t ts ts₁ _ _ _ _ hcondition hbody => by
      have hsuffix : skipNewlines ts₁ <:+ ts :=
        (skipNewlines_suffix ts₁).trans hcondition.takes.suffix
      rw [Stmt.spellings]
      exact (hcondition.spelled.append (hbody.spelled.of_suffix hsuffix)).of_suffix
        (List.suffix_cons t ts)
  | @Statement.function t u v ts ts₁ _ _ _ _ hname _ hparams hbody => by
      have hsuffix : skipNewlines ts₁ <:+ ts :=
        (skipNewlines_suffix ts₁).trans hparams.takes.suffix
      rw [Stmt.spellings]
      exact .cons (by simp) hname
        ((hparams.spelled.append (hbody.spelled.of_suffix hsuffix)).of_suffix
          (List.suffix_append [t, u, v] ts))
  | .leave _ _ hvalue => by
      rw [Stmt.spellings]
      exact hvalue.spelled.of_suffix (List.suffix_cons _ _)
  | .leaveNull _ _ => by
      rw [Stmt.spellings]
      exact .nil
  | .expr _ he => by
      rw [Stmt.spellings]
      exact he.spelled

theorem Branch.spelled {ts rest : List Token} {s : Stmt} :
    Branch ts s rest → SpelledBy ts s.spellings
  | .plain hcondition hbody _ => by
      rw [Stmt.spellings]
      exact hcondition.spelled.append (hbody.spelled.of_suffix
        ((skipNewlines_suffix _).trans hcondition.takes.suffix))
  | @Branch.chain ts ts₁ _ _ ts₃ _ _ _ _ _ _ hcondition hbody hskip _ hskip' _ halternative => by
      have hbodySuffix : skipNewlines ts₁ <:+ ts :=
        (skipNewlines_suffix ts₁).trans hcondition.takes.suffix
      have hsuffix : ts₃ <:+ ts :=
        (suffix_of_skipNewlines hskip).trans (hbody.takes.suffix.trans hbodySuffix)
      rw [Stmt.spellings]
      exact hcondition.spelled.append ((hbody.spelled.of_suffix hbodySuffix).append
        (halternative.spelled.of_suffix ((suffix_of_skipNewlines hskip').trans hsuffix)))
  | @Branch.otherwise ts ts₁ _ _ ts₃ _ _ _ _ hcondition hbody hskip _ halternative => by
      have hbodySuffix : skipNewlines ts₁ <:+ ts :=
        (skipNewlines_suffix ts₁).trans hcondition.takes.suffix
      have hsuffix : ts₃ <:+ ts :=
        (suffix_of_skipNewlines hskip).trans (hbody.takes.suffix.trans hbodySuffix)
      rw [Stmt.spellings]
      exact hcondition.spelled.append ((hbody.spelled.of_suffix hbodySuffix).append
        (halternative.spelled.of_suffix ((skipNewlines_suffix ts₃).trans hsuffix)))

theorem Block.spelled {ts rest : List Token} {s : Stmt} :
    Block ts s rest → SpelledBy ts s.spellings
  | .braces _ hbody => by
      rw [Stmt.spellings]
      exact hbody.spelled.of_suffix ((skipSeparators_suffix _).trans (List.suffix_cons _ _))

theorem BlockTail.spelled {ts rest : List Token} {body : List Stmt} :
    BlockTail ts body rest → SpelledBy ts (body.flatMap fun s => s.spellings)
  | .nil _ => .nil
  | .cons _ hfirst _ hmore => by
      rw [List.flatMap_cons]
      exact hfirst.spelled.append
        (hmore.spelled.of_suffix ((skipSeparators_suffix _).trans hfirst.takes.suffix))

end

theorem Statements.spelled {ts : List Token} {body : List Stmt} (h : Statements ts body) :
    SpelledBy ts (body.flatMap Stmt.spellings) := by
  induction h with
  | nil => exact .nil
  | cons hfirst _ _ ih =>
      rw [List.flatMap_cons]
      exact hfirst.spelled.append
        (ih.of_suffix ((skipSeparators_suffix _).trans hfirst.takes.suffix))

end Grammar

/-! ## Scripts -/

/-- **All names and hotkeys of a script are legible.** -/
theorem parseSource_legible {source : String} {p : Program} (h : parseSource source = .ok p) :
    ∀ x ∈ p.spellings, Legible x.1 x.2 := by
  intro x hx
  have hspelled := (parseSource_eq_ok_iff.1 h).spelled.of_suffix (Grammar.skipSeparators_suffix _)
  obtain ⟨t, ht, hkind, rfl⟩ := hspelled x hx
  exact legible_of_mem_wordsOf ht hkind

end Chord
