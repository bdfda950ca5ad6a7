import Chord.Proofs.Script.Shapes

/-!
# Writing scripts

Trees are written as tokens, with parentheses only where the tree would be read differently without
them.

**Input.** A program in the shape of `Stmt.WellFormed`, and a spelling for its numbers.

**Algorithm.** An expression is written for a place that takes constructs from a certain tightness
on: pipelines are loosest, then come the levels of operators, and names, literals, properties and
calls are tightest. What is too loose for its place gets parentheses. The left operand of an
operator may be as loose as the operator itself and the right one may not, so operators group to the
left. A statement that would begin with a hotkey without being a binding gets parentheses too.

**Results.** `Program.tokens` writes a program, and what it writes is read as the same program
(`parse_tokens`). For expressions this is `ReadsBack`: written for any place, they are read as what
the place is read for, whatever stands behind them there.
-/

namespace Chord

open Parse Grammar

/-! ## The writer -/

/-- A spelling for numbers from which every readable number is read back. -/
structure Numerals where
  text : Float → String
  read_text : ∀ {x : Float}, Decimal.Readable x → Decimal.read? (text x).toList = some x

open Classical in
/-- Every readable number with some text that denotes it. -/
noncomputable def Numerals.chosen : Numerals where
  text x := if h : Decimal.Readable x then h.choose else ""
  read_text h := by rw [dif_pos h]; exact h.choose_spec

/-- A token at the first position. -/
def word (kind : Kind) (text : String) : Token :=
  ⟨kind, text, .start⟩

/-- Phrases with a token between them. -/
def separated (separator : Token) : List (List Token) → List Token
  | [] => []
  | [phrase] => phrase
  | phrase :: next :: more => phrase ++ separator :: separated separator (next :: more)

theorem separated_cons_append (separator : Token) (phrase next : List Token)
    (more : List (List Token)) (rest : List Token) :
    separated separator (phrase :: next :: more) ++ rest =
      phrase ++ separator :: (separated separator (next :: more) ++ rest) := by
  rw [separated, List.append_assoc, List.cons_append]

theorem separated_map_cons {α : Type} (separator : Token) (tokens : α → List Token) (a : α)
    (more : List α) :
    separated separator ((a :: more).map tokens) =
      tokens a ++ more.flatMap fun b => separator :: tokens b := by
  induction more generalizing a with
  | nil => exact (List.append_nil _).symm
  | cons next more ih =>
      rw [List.map_cons, List.map_cons, separated, ← List.map_cons, ih next, List.flatMap_cons,
        List.cons_append]

/-- A phrase in parentheses. -/
def enclosed (ts : List Token) : List Token :=
  word .leftParen "(" :: (ts ++ [word .rightParen ")"])

/-- A phrase for a place that takes constructs from `level` on. -/
def placed (tightness level : Nat) (ts : List Token) : List Token :=
  if tightness < level then enclosed ts else ts

/-- How tightly an operator binds; a pipeline has tightness zero. -/
def BinOp.tightness : BinOp → Nat
  | .or => 1
  | .and => 2
  | .equal => 3
  | .notEqual => 3
  | .lessThan => 3
  | .greaterThan => 3
  | .lessEqual => 3
  | .greaterEqual => 3
  | .add => 4
  | .subtract => 4
  | .multiply => 5
  | .divide => 5

section Writer

variable (numerals : Numerals)

/-- The tokens of an expression for a place that takes constructs from `level` on. -/
def Expr.tokens (level : Nat) : Expr → List Token
  | .identifier name => [word .identifier name]
  | .number value => [word .number (numerals.text value)]
  | .string value => [word .string value]
  | .hotkey text => [word .hotkey text]
  | .binary left op right =>
      placed op.tightness level
        (left.tokens op.tightness ++ word .operator op.symbol :: right.tokens (op.tightness + 1))
  | .call callee args =>
      callee.tokens 6 ++ enclosed (separated (word .comma ",") (args.map fun arg => arg.tokens 0))
  | .member object property => object.tokens 6 ++ word .dot "." :: property.tokens 6
  | .pipeline stages =>
      placed 0 level (separated (word .pipe "|") (stages.map fun stage => stage.tokens 1))

/-- An expression as a statement. -/
def standing (ts : List Token) : List Token :=
  if kindOf ts = .hotkey then enclosed ts else ts

/-- The tokens of a statement. The hotkey of a binding is on the line of the binding. -/
def Stmt.tokens : Stmt → List Token
  | .bind hotkey action line =>
      (hotkey.tokens numerals 0).map (fun t => { t with pos := ⟨line, 1⟩ }) ++
        word .arrow "=>" :: action.tokens
  | .block body =>
      word .leftBrace "\x7b" ::
        (separated (word .semicolon ";") (body.map fun s => s.tokens) ++ [word .rightBrace "\x7d"])
  | .expr value => standing (value.tokens numerals 0)
  | .assign name none => [word .letWord "let", word .identifier name]
  | .assign name (some value) =>
      word .letWord "let" :: word .identifier name :: word .assign "=" :: value.tokens numerals 0
  | .branch condition consequence none =>
      word .ifWord "if" :: (condition.tokens numerals 0 ++ consequence.tokens)
  | .branch condition consequence (some alternative) =>
      word .ifWord "if" :: (condition.tokens numerals 0 ++
        (consequence.tokens ++ word .elseWord "else" :: alternative.tokens))
  | .loop condition body =>
      word .whileWord "while" :: (condition.tokens numerals 0 ++ body.tokens)
  | .leave none => [word .returnWord "return"]
  | .leave (some value) => word .returnWord "return" :: value.tokens numerals 0
  | .function name params body =>
      word .fnWord "fn" :: word .identifier name ::
        (enclosed
            (separated (word .comma ",") (params.map fun param => [word .identifier param])) ++
          body.tokens)

/-- The tokens of a program with an end token. -/
def Program.tokens (p : Program) : List Token :=
  separated (word .semicolon ";") (p.statements.map (Stmt.tokens numerals)) ++ [word .eof ""]

end Writer

/-! ## What stands behind expressions -/

namespace Parse

/-- The kinds of token behind an expression that is written somewhere. -/
def followers : List Kind :=
  [.rightParen, .comma, .leftBrace, .rightBrace, .semicolon, .eof]

/-- What stands behind an operand of the operators from the level number `i` on: the end of the
expression, a pipe or a looser operator. -/
inductive Ends (i : Nat) : List Token → Prop
  | closed {rest : List Token} : kindOf rest ∈ .pipe :: followers → Ends i rest
  | operator {op : BinOp} {rest : List Token} :
      op.tightness ≤ i → Ends i (word .operator op.symbol :: rest)

theorem Ends.mono {i j : Nat} {rest : List Token} (h : Ends i rest) (hij : i ≤ j) :
    Ends j rest := by
  cases h with
  | closed hkind => exact .closed hkind
  | operator hop => exact .operator (Nat.le_trans hop hij)

theorem Ends.kindOf_mem {i : Nat} {rest : List Token} (h : Ends i rest) :
    kindOf rest ∈ .operator :: .pipe :: followers := by
  cases h with
  | closed hkind => exact List.mem_cons_of_mem _ hkind
  | operator _ => exact List.mem_cons_self

/-- An operator is on one level, and its tightness is the number of the level after it. -/
theorem BinOp.exists_level (op : BinOp) : ∃ i ops, op.tightness = i + 1 ∧
    levels.drop i = ops :: levels.drop (i + 1) ∧ ops.contains op = true := by
  cases op <;> exact ⟨_, _, rfl, rfl, rfl⟩

theorem BinOp.notMem_of_mem_drop (op : BinOp) :
    ∀ ops ∈ levels.drop op.tightness, op ∉ ops := by
  cases op <;> decide

theorem Ends.afterOperator? {i : Nat} {rest : List Token} (h : Ends i rest) {ops : List BinOp}
    (hops : ops ∈ levels.drop i) : afterOperator? ops rest = none := by
  cases h with
  | closed hkind =>
      have hapart : ∀ k ∈ Kind.pipe :: followers, k ≠ .operator := by decide
      exact afterOperator?_eq_none_of_kindOf (hapart _ hkind)
  | @operator op rest hop =>
      have hmem : ops ∈ levels.drop op.tightness :=
        (List.drop_suffix_drop_left levels hop).subset hops
      simp [Parse.afterOperator?, word, BinOp.notMem_of_mem_drop op ops hmem]

end Parse

/-! ## Reading operands -/

namespace Grammar

theorem skipNewlines_of_beginning {ts : List Token} (h : kindOf ts ∈ beginnings) :
    skipNewlines ts = ts := by
  have hapart : ∀ k ∈ beginnings, k ≠ .newline := by decide
  exact skipNewlines_of_kindOf_ne (hapart _ h)

/-- An operand of tight operators that no looser operator follows is an operand of these too. -/
theorem Binary.loosen {commands c : Bool} {ts rest : List Token} {e : Expr}
    {tighter : List (List BinOp)} (h : Binary tighter commands ts e c rest) :
    (looser : List (List BinOp)) → (∀ ops ∈ looser, afterOperator? ops rest = none) →
      Binary (looser ++ tighter) commands ts e c rest
  | [], _ => h
  | ops :: looser, hnone => by
      have hmore := h.loosen looser fun ops' hmem => hnone ops' (List.mem_cons_of_mem _ hmem)
      exact .level hmore (.nil (hnone ops List.mem_cons_self))

/-- The tokens are read as an operand of the operators from the level number `i` on. -/
def ReadsOperand (i : Nat) (ts : List Token) (e : Expr) : Prop :=
  ∀ commands rest, Ends i rest → Binary (levels.drop i) commands (ts ++ rest) e false rest

/-- The tokens are read as the first operand of operators on the level number `i`, which takes in
the operators behind them. -/
def ReadsChain (i : Nat) (ts : List Token) (e : Expr) : Prop :=
  ∀ ops commands x e' c rest, levels.drop i = ops :: levels.drop (i + 1) → Ends (i + 1) x →
    BinaryTail ops (levels.drop (i + 1)) commands e false x e' c rest →
    Binary (levels.drop i) commands (ts ++ x) e' c rest

/-- The tokens are read as an expression. -/
def ReadsWhole (ts : List Token) (e : Expr) : Prop :=
  ∀ rest, kindOf rest ∈ followers → Expression (ts ++ rest) e rest

/-- The tokens are read as a primary expression with what is behind it, and properties and argument
lists may follow. -/
def ReadsPath (ts : List Token) (e : Expr) : Prop :=
  ∀ x e' rest, Suffixes e x e' rest →
    ∃ head m, Primary (ts ++ x) head m ∧ Suffixes head m e' rest

section Reads

variable {i : Nat} {ts : List Token} {e : Expr}

theorem ReadsOperand.mono {j : Nat} (h : ReadsOperand j ts e) (hij : i ≤ j) :
    ReadsOperand i ts e := by
  intro commands rest hrest
  obtain ⟨looser, hlooser⟩ := List.drop_suffix_drop_left levels hij
  have hnone : ∀ ops ∈ looser, afterOperator? ops rest = none := by
    intro ops hops
    exact hrest.afterOperator? (hlooser ▸ List.mem_append_left _ hops)
  rw [← hlooser]
  exact (h commands rest (hrest.mono hij)).loosen looser hnone

theorem ReadsOperand.chain (h : ReadsOperand (i + 1) ts e) : ReadsChain i ts e := by
  intro ops commands x e' c rest hlevel hx htail
  rw [hlevel]
  exact .level (h commands x hx) htail

theorem ReadsChain.operand (h : ReadsChain i ts e) {ops : List BinOp}
    (hlevel : levels.drop i = ops :: levels.drop (i + 1)) : ReadsOperand i ts e := by
  intro commands rest hrest
  have hnone : afterOperator? ops rest = none :=
    hrest.afterOperator? (by rw [hlevel]; exact List.mem_cons_self)
  exact h ops commands rest e false rest hlevel (hrest.mono (Nat.le_succ i)) (.nil hnone)

/-- An operator takes the chain on its left and a tighter operand on its right. -/
theorem ReadsChain.binary {left right : Expr} {op : BinOp} {ts' : List Token}
    (hleft : ReadsChain i ts left) (hop : op.tightness = i + 1)
    (hright : ReadsOperand (i + 1) ts' right) :
    ReadsChain i (ts ++ word .operator op.symbol :: ts') (.binary left op right) := by
  intro ops commands x e' c rest hlevel hx htail
  obtain ⟨j, ops', hj, hlevel', hmem⟩ := BinOp.exists_level op
  obtain rfl : i = j := Nat.succ.inj (hop.symm.trans hj)
  obtain ⟨rfl, -⟩ := List.cons.inj (hlevel.symm.trans hlevel')
  have hoperand := hright commands x hx
  have hafter : afterOperator? ops (word .operator op.symbol :: (ts' ++ x)) = some (op, ts' ++ x) :=
    afterOperator?_eq_some.2 ⟨_, _, rfl, rfl, BinOp.ofSymbol?_symbol op, hmem,
      skipNewlines_of_beginning hoperand.kindOf_mem⟩
  have hends : Ends (i + 1) (word .operator op.symbol :: (ts' ++ x)) :=
    .operator (Nat.le_of_eq hop)
  have hchain := hleft ops commands _ e' c rest hlevel hends (.cons hafter hoperand htail)
  rwa [List.append_assoc, List.cons_append]

theorem PipelineTail.of_follower {rest : List Token} (h : kindOf rest ∈ followers) :
    PipelineTail rest [] rest := by
  have hapart : ∀ k ∈ followers, k ≠ .newline ∧ k ≠ .pipe := by decide
  obtain ⟨hnewline, hpipe⟩ := hapart _ h
  exact .nil (afterPipe?_eq_none.2 (by rwa [skipNewlines_of_kindOf_ne hnewline]))

theorem ReadsOperand.whole (h : ReadsOperand 0 ts e) : ReadsWhole ts e := fun rest hrest =>
  .stages (h true rest (.closed (List.mem_cons_of_mem _ hrest))) (.of_follower hrest)

theorem Primary.kindOf_ne_operator {rest : List Token} (h : Primary ts e rest) :
    kindOf ts ≠ .operator := by
  cases h with
  | number hkind => simp [hkind]
  | string hkind => simp [hkind]
  | hotkey hkind => simp [hkind]
  | identifier hkind => simp [hkind]
  | paren hkind => simp [hkind]

/-- What begins with a primary expression begins with no minus sign. -/
theorem Primary.unary {commands c : Bool} {ts₁ rest : List Token} {head : Expr}
    (hhead : Primary ts head ts₁) (hcall : Call commands ts e c rest) :
    Unary commands ts e c rest := by
  refine .call (fun t ht => ?_) hcall
  obtain ⟨more, rfl⟩ := List.head?_eq_some_iff.1 ht
  exact fun hminus => hhead.kindOf_ne_operator hminus.1

theorem ReadsPath.operand (h : ReadsPath ts e) (i : Nat) : ReadsOperand i ts e := by
  intro commands rest hrest
  have hapart : ∀ k ∈ Kind.operator :: .pipe :: followers,
      k ≠ .dot ∧ k ≠ .leftParen ∧ k ∉ argumentStarts := by decide
  obtain ⟨hdot, hparen, hargument⟩ := hapart _ hrest.kindOf_mem
  obtain ⟨head, m, hhead, hsuffixes⟩ := h rest e rest (.nil hdot fun h => hparen h.1)
  have hcall : Call commands (ts ++ rest) e false rest := by
    refine .plain hhead hsuffixes ?_
    rintro ⟨-, -, hstarts⟩
    exact hargument (startsArgument_iff.1 hstarts)
  have hunary := hhead.unary hcall
  have hbinary := (Binary.operand hunary).loosen (levels.drop i) fun ops => hrest.afterOperator?
  rwa [List.append_nil] at hbinary

theorem ReadsWhole.enclosed (h : ReadsWhole ts e) : ReadsPath (enclosed ts) e := by
  intro x e' rest hsuffixes
  have hclose : Kind.rightParen ∈ followers := by decide
  have hinner := h (word .rightParen ")" :: x) hclose
  have hprimary : Primary (word .leftParen "(" :: (ts ++ word .rightParen ")" :: x)) e x := by
    refine .paren rfl ?_ (skipNewlines_cons_of_ne (t := word .rightParen ")") nofun x) rfl
    rwa [skipNewlines_of_beginning hinner.kindOf_mem]
  refine ⟨e, x, ?_, hsuffixes⟩
  rwa [Chord.enclosed, List.cons_append, List.append_assoc]

end Reads

/-! ## Expressions -/

section Expressions

variable {numerals : Numerals}

/-- An expression is read back from what is written for it, whatever the place. -/
structure ReadsBack (numerals : Numerals) (e : Expr) : Prop where
  operand : ∀ i, ReadsOperand i (e.tokens numerals (i + 1)) e
  chain : ∀ i, ReadsChain i (e.tokens numerals (i + 1)) e
  whole : ReadsWhole (e.tokens numerals 0) e
  path : ReadsPath (e.tokens numerals 6) e

/-- What is read as a path needs no parentheses anywhere. -/
theorem ReadsBack.of_path {e : Expr} {ts : List Token}
    (htokens : ∀ level, e.tokens numerals level = ts) (hpath : ReadsPath ts e) :
    ReadsBack numerals e where
  operand i := htokens (i + 1) ▸ hpath.operand i
  chain i := htokens (i + 1) ▸ (hpath.operand (i + 1)).chain
  whole := htokens 0 ▸ (hpath.operand 0).whole
  path := htokens 6 ▸ hpath

/-- An expression that is looser than some places gets parentheses there. -/
theorem ReadsBack.of_placed {e : Expr} {ts : List Token} {tightness : Nat}
    (htokens : ∀ level, e.tokens numerals level = placed tightness level ts)
    (hlt : tightness < 6) (hwhole : ReadsWhole ts e)
    (hoperand : ∀ i < tightness, ReadsOperand i ts e)
    (hchain : ∀ i, tightness = i + 1 → ReadsChain i ts e) : ReadsBack numerals e where
  operand i := by
    rw [htokens, placed]
    split
    · exact hwhole.enclosed.operand i
    · exact hoperand i (by omega)
  chain i := by
    rw [htokens, placed]
    split
    · exact (hwhole.enclosed.operand (i + 1)).chain
    · by_cases hi : tightness = i + 1
      · exact hchain i hi
      · exact (hoperand (i + 1) (by omega)).chain
  whole := by
    rw [htokens, placed, if_neg (Nat.not_lt_zero _)]
    exact hwhole
  path := by
    rw [htokens, placed, if_pos hlt]
    exact hwhole.enclosed

theorem ReadsBack.binary {left right : Expr} (op : BinOp) (hleft : ReadsBack numerals left)
    (hright : ReadsBack numerals right) : ReadsBack numerals (.binary left op right) := by
  obtain ⟨i, ops, hop, hlevel, -⟩ := BinOp.exists_level op
  have hlt : op.tightness < 6 := by cases op <;> decide
  have hchain : ReadsChain i (left.tokens numerals op.tightness ++ word .operator op.symbol ::
      right.tokens numerals (op.tightness + 1)) (.binary left op right) := by
    rw [hop]
    exact (hleft.chain i).binary hop (hright.operand (i + 1))
  have hoperand : ∀ j < op.tightness, ReadsOperand j _ (.binary left op right) := fun j hj =>
    (hchain.operand hlevel).mono (by omega)
  refine .of_placed (fun level => by rw [Expr.tokens]) hlt (hoperand 0 (by omega)).whole hoperand ?_
  intro j hj
  obtain rfl : i = j := by omega
  exact hchain

theorem afterPipe?_word {x : List Token} (hx : kindOf x ∈ beginnings) :
    afterPipe? (word .pipe "|" :: x) = some x := by
  have hskip := skipNewlines_cons_of_ne (t := word .pipe "|") nofun x
  exact afterPipe?_eq_some.2 ⟨_, x, hskip, rfl, skipNewlines_of_beginning hx⟩

theorem PipelineTail.separated {rest : List Token} (hrest : kindOf rest ∈ followers)
    (stage : Expr) (more : List Expr) (h : ∀ e ∈ stage :: more, ReadsBack numerals e) :
    PipelineTail (word .pipe "|" :: (separated (word .pipe "|")
      ((stage :: more).map fun e => e.tokens numerals 1) ++ rest)) (stage :: more) rest := by
  induction more generalizing stage with
  | nil =>
      have hstage := h stage List.mem_cons_self
      have hfirst := hstage.operand 0 true rest (.closed (List.mem_cons_of_mem _ hrest))
      exact .cons (afterPipe?_word hfirst.kindOf_mem) hfirst (.of_follower hrest)
  | cons next more ih =>
      obtain ⟨hstage, hmore⟩ := List.forall_mem_cons.1 h
      have hfirst := fun x =>
        hstage.operand 0 true (word .pipe "|" :: x) (.closed List.mem_cons_self)
      rw [List.map_cons, List.map_cons, separated_cons_append]
      exact .cons (afterPipe?_word (hfirst _).kindOf_mem) (hfirst _) (ih next hmore)

theorem ReadsBack.pipeline {stages : List Expr} (hlength : 2 ≤ stages.length)
    (h : ∀ e ∈ stages, ReadsBack numerals e) : ReadsBack numerals (.pipeline stages) := by
  match stages with
  | head :: stage :: more =>
      obtain ⟨hhead, hmore⟩ := List.forall_mem_cons.1 h
      refine .of_placed (fun level => by rw [Expr.tokens]) (by decide) ?_
        (fun _ hi => absurd hi (Nat.not_lt_zero _)) (fun _ hi => nomatch hi)
      intro rest hrest
      have hfirst := fun x =>
        hhead.operand 0 true (word .pipe "|" :: x) (.closed List.mem_cons_self)
      rw [List.map_cons, List.map_cons, separated_cons_append]
      exact .stages (hfirst _) (.separated hrest stage more hmore)

/-- Behind an opening parenthesis one or more arguments are arguments. -/
theorem ArgumentList.arguments {ts rest : List Token} {args : List Expr}
    (h : ArgumentList ts args rest) : Arguments ts args rest := by
  have hskip := skipNewlines_of_beginning h.kindOf_mem
  have hapart : ∀ k ∈ beginnings, k ≠ .rightParen := by decide
  refine .some ?_ ?_
  · rw [hskip]
    exact hapart _ h.kindOf_mem
  · rwa [hskip]

/-- Arguments with a comma in front of each but the first one. -/
theorem ArgumentList.joined {α : Type} (tokens : α → List Token) (value : α → Expr)
    {comma : α → Token} {closing : Token} (hcomma : ∀ a, (comma a).kind = .comma)
    (hclosing : closing.kind = .rightParen) {x : List Token} (arg : α) (more : List α)
    (h : ∀ a ∈ arg :: more, ∀ rest, kindOf rest ∈ [Kind.comma, .rightParen] →
      Expression (tokens a ++ rest) (value a) rest) :
    ArgumentList (tokens arg ++ ((more.flatMap fun a => comma a :: tokens a) ++ closing :: x))
      ((arg :: more).map value) x := by
  induction more generalizing arg with
  | nil =>
      have hfirst := h arg List.mem_cons_self (closing :: x) (by simp [hclosing])
      exact .last hfirst (skipNewlines_cons_of_ne (by simp [hclosing]) x) hclosing
  | cons next more ih =>
      obtain ⟨harg, hmore⟩ := List.forall_mem_cons.1 h
      have htail := ih next hmore
      rw [List.flatMap_cons, List.append_assoc, List.cons_append]
      refine .cons (harg (comma next :: _) (by simp [hcomma]))
        (skipNewlines_cons_of_ne (by simp [hcomma]) _) (hcomma next) ?_
      rwa [skipNewlines_of_beginning htail.kindOf_mem]

theorem Arguments.separated {x : List Token} {args : List Expr}
    (h : ∀ e ∈ args, ReadsBack numerals e) :
    Arguments (separated (word .comma ",") (args.map fun e => e.tokens numerals 0) ++
      word .rightParen ")" :: x) args x := by
  cases args with
  | nil => exact .none (skipNewlines_cons_of_ne (t := word .rightParen ")") nofun x) rfl
  | cons arg more =>
      have hsubset : ∀ k ∈ [Kind.comma, .rightParen], k ∈ followers := by decide
      have hcomma : ∀ _ : Expr, (word .comma ",").kind = .comma := fun _ => rfl
      have hclosing : (word .rightParen ")").kind = .rightParen := rfl
      have hlist := ArgumentList.joined (fun e => e.tokens numerals 0) id hcomma hclosing (x := x)
        arg more fun e he rest hrest => (h e he).whole rest (hsubset _ hrest)
      rw [List.map_id] at hlist
      rw [separated_map_cons, List.append_assoc]
      exact hlist.arguments

theorem ReadsBack.call {callee : Expr} {args : List Expr} (hpath : callee.isCallablePath = true)
    (hcallee : ReadsBack numerals callee) (hargs : ∀ e ∈ args, ReadsBack numerals e) :
    ReadsBack numerals (.call callee args) := by
  refine .of_path (fun level => by rw [Expr.tokens]) ?_
  intro x e' rest hsuffixes
  have harguments := Arguments.separated (x := x) hargs
  have hcall := Suffixes.call (t := word .leftParen "(") rfl hpath harguments hsuffixes
  obtain ⟨head, m, hhead, hmore⟩ := hcallee.path _ _ _ hcall
  refine ⟨head, m, ?_, hmore⟩
  rwa [List.append_assoc, enclosed, List.cons_append, List.append_assoc]

theorem ReadsBack.member {object : Expr} (name : String) (hobject : ReadsBack numerals object) :
    ReadsBack numerals (.member object (.identifier name)) := by
  have htokens : ∀ level, (Expr.member object (.identifier name)).tokens numerals level =
      object.tokens numerals 6 ++ [word .dot ".", word .identifier name] := fun level => by
    rw [Expr.tokens, Expr.tokens]
  refine .of_path htokens ?_
  intro x e' rest hsuffixes
  have hmember :=
    Suffixes.member (t := word .dot ".") (u := word .identifier name) rfl rfl hsuffixes
  obtain ⟨head, m, hhead, hmore⟩ := hobject.path _ _ _ hmember
  refine ⟨head, m, ?_, hmore⟩
  rwa [List.append_assoc]

theorem ReadsBack.of_wellFormed {e : Expr} (h : e.WellFormed) : ReadsBack numerals e := by
  induction h with
  | identifier name =>
      exact .of_path (fun level => by rw [Expr.tokens]) fun x e' rest hsuffixes =>
        ⟨_, x, .identifier (t := word .identifier name) rfl, hsuffixes⟩
  | number hvalue =>
      exact .of_path (fun level => by rw [Expr.tokens]) fun x e' rest hsuffixes =>
        ⟨_, x, .number (t := word .number _) rfl (numerals.read_text hvalue), hsuffixes⟩
  | string value =>
      exact .of_path (fun level => by rw [Expr.tokens]) fun x e' rest hsuffixes =>
        ⟨_, x, .string (t := word .string value) rfl, hsuffixes⟩
  | hotkey text =>
      exact .of_path (fun level => by rw [Expr.tokens]) fun x e' rest hsuffixes =>
        ⟨_, x, .hotkey (t := word .hotkey text) rfl, hsuffixes⟩
  | binary op _ _ hleft hright => exact hleft.binary op hright
  | call hpath _ _ hcallee hargs => exact .call hpath hcallee hargs
  | member name _ hobject => exact hobject.member name
  | pipeline hlength _ hstages => exact .pipeline hlength hstages

end Expressions

/-! ## Statements -/

section Statements

variable {numerals : Numerals}

/-- The kinds of token behind a statement that is written somewhere. -/
def statementFollowers : List Kind :=
  [.semicolon, .rightBrace, .eof]

theorem mem_followers_of_mem {k : Kind} (h : k ∈ statementFollowers) : k ∈ followers := by
  have hsubset : ∀ k ∈ statementFollowers, k ∈ followers := by decide
  exact hsubset k h

theorem Block.skipNewlines {ts rest : List Token} {s : Stmt} (h : Block ts s rest) :
    skipNewlines ts = ts :=
  skipNewlines_of_kindOf_ne (by rw [h.kindOf_eq]; decide)

/-- A statement is read back from what is written for it, also where only a block or a conditional
can stand. -/
structure StatementReadsBack (numerals : Numerals) (s : Stmt) : Prop where
  statement : ∀ rest, kindOf rest ∈ statementFollowers →
    Statement (s.tokens numerals ++ rest) s rest
  block : s.isBlock = true → ∀ rest, Block (s.tokens numerals ++ rest) s rest
  branch : s.isBlock = false → s.isAlternative = true →
    ∃ ts, s.tokens numerals = word .ifWord "if" :: ts ∧
      ∀ rest, kindOf rest ∈ statementFollowers → Branch (ts ++ rest) s rest

theorem StatementReadsBack.of_statement {s : Stmt} (hs : s.isAlternative = false)
    (h : ∀ rest, kindOf rest ∈ statementFollowers → Statement (s.tokens numerals ++ rest) s rest) :
    StatementReadsBack numerals s where
  statement := h
  block hblock := by
    rw [Stmt.isAlternative_of_isBlock hblock] at hs
    cases hs
  branch _ halternative := by
    rw [halternative] at hs
    cases hs

theorem StatementReadsBack.of_branch {s : Stmt} {ts : List Token} (hs : s.isBlock = false)
    (htokens : s.tokens numerals = word .ifWord "if" :: ts)
    (h : ∀ rest, kindOf rest ∈ statementFollowers → Branch (ts ++ rest) s rest) :
    StatementReadsBack numerals s where
  statement rest hrest := by
    rw [htokens]
    exact .branch rfl (h rest hrest)
  block hblock := by
    rw [hblock] at hs
    cases hs
  branch _ _ := ⟨ts, htokens, h⟩

/-- An expression and the block behind it. -/
theorem ReadsBack.block {condition : Expr} {body : Stmt} (hcondition : ReadsBack numerals condition)
    (hbody : StatementReadsBack numerals body) (hblock : body.isBlock = true) (rest : List Token) :
    Expression (condition.tokens numerals 0 ++ (body.tokens numerals ++ rest)) condition
        (body.tokens numerals ++ rest) ∧
      Block (skipNewlines (body.tokens numerals ++ rest)) body rest := by
  have hbraces := hbody.block hblock rest
  have hopen : Kind.leftBrace ∈ followers := by decide
  refine ⟨hcondition.whole _ (hbraces.kindOf_eq ▸ hopen), ?_⟩
  rwa [hbraces.skipNewlines]

theorem StatementReadsBack.bind (text : String) {action : Stmt} (line : Nat)
    (haction : StatementReadsBack numerals action) :
    StatementReadsBack numerals (.bind (.hotkey text) action line) := by
  refine .of_statement rfl fun rest hrest => ?_
  have hstatement := haction.statement rest hrest
  have hnewline : kindOf (action.tokens numerals ++ rest) ∉ [Kind.newline] :=
    notMem_of_apart hstatement.kindOf_mem
  have hskip := skipNewlines_of_kindOf_ne fun h => hnewline (List.mem_singleton.2 h)
  rw [Stmt.tokens, Expr.tokens]
  exact .bind (t := ⟨.hotkey, text, ⟨line, 1⟩⟩) (u := word .arrow "=>") rfl rfl
    (hskip.symm ▸ hstatement)

theorem StatementReadsBack.expr {value : Expr} (hvalue : ReadsBack numerals value) :
    StatementReadsBack numerals (.expr value) := by
  refine .of_statement rfl fun rest hrest => ?_
  rw [Stmt.tokens, standing]
  split
  · have hopen : Kind.leftParen ∉ openings := by decide
    exact .expr hopen ((hvalue.whole.enclosed.operand 0).whole rest (mem_followers_of_mem hrest))
  · rename_i hhotkey
    have hwhole := hvalue.whole rest (mem_followers_of_mem hrest)
    have hne := Takes.ne_nil rfl hwhole.length_lt
    rw [← List.append_nil (Expr.tokens _ _ _), kindOf_append hne [] rest] at hhotkey
    have hapart : ∀ k ∈ beginnings, k ≠ .hotkey → k ∉ openings := by decide
    exact .expr (hapart _ hwhole.kindOf_mem hhotkey) hwhole

theorem StatementReadsBack.assign (name : String) {value : Expr}
    (hvalue : ReadsBack numerals value) :
    StatementReadsBack numerals (.assign name (some value)) := by
  refine .of_statement rfl fun rest hrest => ?_
  have hwhole := hvalue.whole rest (mem_followers_of_mem hrest)
  have hskip := skipNewlines_of_beginning hwhole.kindOf_mem
  rw [Stmt.tokens]
  exact .assign (t := word .letWord "let") (u := word .identifier name) (v := word .assign "=")
    rfl rfl rfl (hskip.symm ▸ hwhole)

theorem StatementReadsBack.declare (name : String) :
    StatementReadsBack numerals (.assign name none) := by
  refine .of_statement rfl fun rest hrest => ?_
  have hapart : ∀ k ∈ statementFollowers, k ≠ .assign := by decide
  rw [Stmt.tokens]
  exact .declare (t := word .letWord "let") (u := word .identifier name) rfl rfl (hapart _ hrest)

theorem StatementReadsBack.leave {value : Expr} (hvalue : ReadsBack numerals value) :
    StatementReadsBack numerals (.leave (some value)) := by
  refine .of_statement rfl fun rest hrest => ?_
  have hwhole := hvalue.whole rest (mem_followers_of_mem hrest)
  have hapart : ∀ k ∈ beginnings, k ∉ .rightBrace :: endings := by decide
  rw [Stmt.tokens]
  exact .leave (t := word .returnWord "return") rfl (hapart _ hwhole.kindOf_mem) hwhole

theorem StatementReadsBack.leaveNull : StatementReadsBack numerals (.leave none) := by
  refine .of_statement rfl fun rest hrest => ?_
  have hsubset : ∀ k ∈ statementFollowers, k ∈ .rightBrace :: endings := by decide
  rw [Stmt.tokens]
  exact .leaveNull (t := word .returnWord "return") rfl (hsubset _ hrest)

theorem StatementReadsBack.loop {condition : Expr} {body : Stmt}
    (hcondition : ReadsBack numerals condition) (hblock : body.isBlock = true)
    (hbody : StatementReadsBack numerals body) :
    StatementReadsBack numerals (.loop condition body) := by
  refine .of_statement rfl fun rest _ => ?_
  obtain ⟨hwhole, hbraces⟩ := hcondition.block hbody hblock rest
  rw [Stmt.tokens, List.cons_append, List.append_assoc]
  exact .loop rfl hwhole hbraces

theorem StatementReadsBack.plain {condition : Expr} {consequence : Stmt}
    (hcondition : ReadsBack numerals condition) (hblock : consequence.isBlock = true)
    (hbody : StatementReadsBack numerals consequence) :
    StatementReadsBack numerals (.branch condition consequence none) := by
  refine .of_branch rfl (by rw [Stmt.tokens]) fun rest hrest => ?_
  obtain ⟨hwhole, hbraces⟩ := hcondition.block hbody hblock rest
  have hapart : ∀ k ∈ statementFollowers, k ≠ .newline ∧ k ≠ .elseWord := by decide
  obtain ⟨hnewline, helse⟩ := hapart _ hrest
  rw [List.append_assoc]
  exact .plain hwhole hbraces (by rwa [skipNewlines_of_kindOf_ne hnewline])

theorem StatementReadsBack.otherwise {condition : Expr} {consequence alternative : Stmt}
    (hcondition : ReadsBack numerals condition) (hblock : consequence.isBlock = true)
    (hbody : StatementReadsBack numerals consequence)
    (hs : alternative.isAlternative = true)
    (halternative : StatementReadsBack numerals alternative) :
    StatementReadsBack numerals (.branch condition consequence (some alternative)) := by
  refine .of_branch rfl (by rw [Stmt.tokens]) fun rest hrest => ?_
  obtain ⟨hwhole, hbraces⟩ := hcondition.block hbody hblock
    (word .elseWord "else" :: (alternative.tokens numerals ++ rest))
  have helse := skipNewlines_cons_of_ne (t := word .elseWord "else") nofun
    (alternative.tokens numerals ++ rest)
  rw [List.append_assoc, List.append_assoc, List.cons_append]
  cases hkind : alternative.isBlock with
  | true =>
      have hbraces' := halternative.block hkind rest
      exact .otherwise hwhole hbraces helse rfl (by rwa [hbraces'.skipNewlines])
  | false =>
      obtain ⟨ts, htokens, hbranch⟩ := halternative.branch hkind hs
      have hif : skipNewlines (alternative.tokens numerals ++ rest) =
          word .ifWord "if" :: (ts ++ rest) := by
        rw [htokens]
        exact skipNewlines_cons_of_ne (t := word .ifWord "if") nofun (ts ++ rest)
      exact .chain hwhole hbraces helse rfl hif rfl (hbranch rest hrest)

theorem Names.separated {x : List Token} (hx : kindOf x ≠ .comma) (param : String)
    (more : List String) :
    Names
      (separated (word .comma ",") ((param :: more).map fun name => [word .identifier name]) ++ x)
      (param :: more) x := by
  induction more generalizing param with
  | nil => exact .last (t := word .identifier param) rfl hx
  | cons next more ih =>
      rw [List.map_cons, List.map_cons, separated_cons_append]
      exact .cons (t := word .identifier param) (u := word .comma ",") rfl rfl (ih next)

theorem Parameters.separated {x : List Token} (params : List String) :
    Parameters (separated (word .comma ",") (params.map fun name => [word .identifier name]) ++
      word .rightParen ")" :: x) params x := by
  cases params with
  | nil => exact .none rfl
  | cons param more =>
      have hnames := Names.separated (x := word .rightParen ")" :: x) nofun param more
      exact .some hnames rfl

theorem StatementReadsBack.function (name : String) (params : List String) {body : Stmt}
    (hblock : body.isBlock = true) (hbody : StatementReadsBack numerals body) :
    StatementReadsBack numerals (.function name params body) := by
  refine .of_statement rfl fun rest _ => ?_
  have hbraces := hbody.block hblock rest
  have hparams := Parameters.separated (x := body.tokens numerals ++ rest) params
  rw [Stmt.tokens, enclosed]
  simp only [List.cons_append, List.append_assoc, List.nil_append]
  exact .function (t := word .fnWord "fn") (u := word .identifier name)
    (v := word .leftParen "(") rfl rfl rfl hparams (by rwa [hbraces.skipNewlines])

theorem skipSeparators_semicolon {ts : List Token} (h : kindOf ts ∉ [Kind.newline, .semicolon]) :
    skipSeparators (word .semicolon ";" :: ts) = ts :=
  (List.dropWhile_cons_of_pos rfl).trans (skipSeparators_of_kindOf_notMem h)

/-- A statement, and the rest of a block behind the semicolon or the brace after it. -/
theorem StatementReadsBack.blockTail {s : Stmt} (h : StatementReadsBack numerals s)
    {x rest : List Token} {body : List Stmt} (hx : kindOf x ∈ [Kind.semicolon, .rightBrace])
    (hbody : BlockTail (skipSeparators x) body rest) :
    BlockTail (s.tokens numerals ++ x) (s :: body) rest := by
  have hsubset : ∀ k ∈ [Kind.semicolon, .rightBrace],
      k ∈ statementFollowers ∧ k ∈ .rightBrace :: endings := by decide
  obtain ⟨hfollower, hending⟩ := hsubset _ hx
  have hstatement := h.statement x hfollower
  have hbrace : kindOf (s.tokens numerals ++ x) ∉ [Kind.rightBrace] :=
    notMem_of_apart hstatement.kindOf_mem
  exact .cons (fun h => hbrace (List.mem_singleton.2 h)) hstatement hending hbody

theorem BlockTail.separated (body : List Stmt) (h : ∀ s ∈ body, StatementReadsBack numerals s)
    (rest : List Token) :
    BlockTail (separated (word .semicolon ";") (body.map fun s => s.tokens numerals) ++
      word .rightBrace "\x7d" :: rest) body rest := by
  have hend : BlockTail (word .rightBrace "\x7d" :: rest) [] rest := .nil rfl
  induction body with
  | nil => exact hend
  | cons s body ih =>
      obtain ⟨hs, hmore⟩ := List.forall_mem_cons.1 h
      cases body with
      | nil =>
          refine hs.blockTail (x := word .rightBrace "\x7d" :: rest) (by simp [word]) ?_
          rwa [skipSeparators_of_kindOf_notMem (notMem_of_apart hend.kindOf_mem)]
      | cons next body =>
          have htail := ih hmore
          rw [List.map_cons] at htail
          rw [List.map_cons, List.map_cons, separated_cons_append]
          refine hs.blockTail List.mem_cons_self ?_
          rwa [skipSeparators_semicolon (notMem_of_apart htail.kindOf_mem)]

theorem StatementReadsBack.braces {body : List Stmt}
    (h : ∀ s ∈ body, StatementReadsBack numerals s) :
    StatementReadsBack numerals (.block body) := by
  have hblock : ∀ rest, Block ((Stmt.block body).tokens numerals ++ rest) (.block body) rest := by
    intro rest
    have htail := BlockTail.separated body h rest
    rw [Stmt.tokens, List.cons_append, List.append_assoc]
    refine .braces rfl ?_
    exact (skipSeparators_of_kindOf_notMem (notMem_of_apart htail.kindOf_mem)).symm ▸ htail
  exact ⟨fun rest _ => .block (hblock rest), fun _ => hblock, nofun⟩

theorem StatementReadsBack.of_wellFormed {Key : String → Nat → Prop} {s : Stmt}
    (h : s.WellFormed Key) : StatementReadsBack numerals s := by
  induction h with
  | @bind text _ line _ _ haction => exact haction.bind text line
  | block _ hbody => exact .braces hbody
  | expr hvalue => exact .expr (.of_wellFormed hvalue)
  | assign name hvalue => exact .assign name (.of_wellFormed hvalue)
  | declare name => exact .declare name
  | branch hcondition hblock _ hbody => exact .plain (.of_wellFormed hcondition) hblock hbody
  | otherwise hcondition hblock _ hs _ hbody halternative =>
      exact .otherwise (.of_wellFormed hcondition) hblock hbody hs halternative
  | loop hcondition hblock _ hbody => exact .loop (.of_wellFormed hcondition) hblock hbody
  | leave hvalue => exact .leave (.of_wellFormed hvalue)
  | leaveNull => exact .leaveNull
  | function name params hblock _ hbody => exact .function name params hblock hbody

theorem Statements.separated (body : List Stmt)
    (h : ∀ s ∈ body, StatementReadsBack numerals s) :
    Statements (separated (word .semicolon ";") (body.map (Stmt.tokens numerals))) body := by
  induction body with
  | nil => exact .nil
  | cons s body ih =>
      obtain ⟨hs, hmore⟩ := List.forall_mem_cons.1 h
      cases body with
      | nil =>
          have hstatement := hs.statement [] (by decide)
          rw [List.append_nil] at hstatement
          exact .cons hstatement (by decide) .nil
      | cons next body =>
          have htail := ih hmore
          have hsemicolon : Kind.semicolon ∈ statementFollowers := by decide
          have hending : Kind.semicolon ∈ endings := by decide
          refine .cons (hs.statement (word .semicolon ";" :: _) hsemicolon) hending ?_
          rwa [← List.map_cons, skipSeparators_semicolon (notMem_of_apart htail.kindOf_mem)]

end Statements

end Grammar

/-- **What is written is read back**: the tokens of a well-formed program, with no parentheses but
those that the grouping of operators asks for, are read as the program. -/
theorem parse_tokens (numerals : Numerals) {p : Program}
    (h : ∀ s ∈ p.statements, s.WellFormed fun _ _ => True) :
    parse (p.tokens numerals) = .ok p := by
  have hstatements : Statements (separated (word .semicolon ";")
      (p.statements.map (Stmt.tokens numerals))) p.statements :=
    .separated p.statements fun s hs => .of_wellFormed (h s hs)
  refine parse_eq_ok_iff.2 ?_
  rw [Program.tokens, hstatements.plain.ofTokens rfl,
    skipSeparators_of_kindOf_notMem (notMem_of_apart hstatements.kindOf_mem)]
  exact hstatements

/-- A binding of a statement that begins with a hotkey, and operators that do not group to the
left. -/
def regrouped : Program :=
  ⟨[.bind (.hotkey "F1") (.expr (.member (.hotkey "F2") (.identifier "held"))) 3,
    .branch (.binary (.number (Float.ofNat 0)) .subtract
        (.binary (.identifier "a") .subtract (.identifier "b")))
      (.block [.leave none]) (some (.block []))]⟩

theorem parse_tokens_regrouped :
    (∀ s ∈ regrouped.statements, s.WellFormed fun _ _ => True) ∧
      parse (regrouped.tokens .chosen) = .ok regrouped := by
  have hbinding : (regrouped.statements.get ⟨0, by decide⟩).WellFormed fun _ _ => True :=
    .bind trivial (.expr (.member "held" (.hotkey "F2")))
  have hbranch : (regrouped.statements.get ⟨1, by decide⟩).WellFormed fun _ _ => True :=
    .otherwise
      (.binary _ (.number Decimal.readable_zero) (.binary _ (.identifier "a") (.identifier "b")))
      rfl (.block (List.forall_mem_singleton.2 .leaveNull)) rfl (.block (List.forall_mem_nil _))
  have h : ∀ s ∈ regrouped.statements, s.WellFormed fun _ _ => True :=
    List.forall_mem_cons.2 ⟨hbinding, List.forall_mem_singleton.2 hbranch⟩
  exact ⟨h, parse_tokens .chosen h⟩

example (numerals : Numerals) (a b c : String) :
    (Expr.binary (.identifier a) .subtract
        (.binary (.identifier b) .subtract (.identifier c))).tokens numerals 0 =
      [word .identifier a, word .operator "-", word .leftParen "(", word .identifier b,
        word .operator "-", word .identifier c, word .rightParen ")"] := by
  cbv

end Chord
