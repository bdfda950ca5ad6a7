import Chord.Proofs.Script.Concatenation

/-!
# How far phrases look ahead

A phrase is read without regard to what comes behind it, except that something there may continue
it. An operand looks at one token, an expression also at the first one after newlines, which may be
a pipe, and a conditional looks there for an alternative.

**Input.** A phrase of the grammar and the tokens behind it.

**Results.** `StopsOperand`, `Stops`, `StopsLine` and `StopsStatement` say of two lists of tokens
that what ends in front of the first ends in front of the second. `Binary.takesOperand`,
`Expression.takes`, `Statement.takes` and their companions: a phrase takes up certain tokens, and
the same tokens are the same phrase in front of every list that ends it. The tokens taken up are
`Plain`: no comments and no end tokens.
-/

namespace Chord
namespace Parse

/-! ## Newlines in front -/

theorem skipNewlines_cons_of_newline {t : Token} (h : t.kind = .newline) (ts : List Token) :
    skipNewlines (t :: ts) = skipNewlines ts :=
  List.dropWhile_cons_of_pos (by simp [h])

theorem skipNewlines_cons_of_ne {t : Token} (h : t.kind ≠ .newline) (ts : List Token) :
    skipNewlines (t :: ts) = t :: ts :=
  List.dropWhile_cons_of_neg (by simpa using h)

theorem skipNewlines_of_kindOf_ne {ts : List Token} (h : kindOf ts ≠ .newline) :
    skipNewlines ts = ts := by
  cases ts with
  | nil => rfl
  | cons t ts => exact skipNewlines_cons_of_ne h ts

theorem skipSeparators_of_kindOf_notMem {ts : List Token}
    (h : kindOf ts ∉ [Kind.newline, .semicolon]) : skipSeparators ts = ts := by
  cases ts with
  | nil => rfl
  | cons t ts => exact List.dropWhile_cons_of_neg (by simpa using h)

theorem kindOf_dropWhile {p : Kind → Bool} (hend : p .eof = false) (ts : List Token) :
    p (kindOf (ts.dropWhile fun t => p t.kind)) = false := by
  induction ts with
  | nil => exact hend
  | cons t ts ih =>
      by_cases ht : p t.kind = true
      · rwa [List.dropWhile_cons_of_pos (p := fun t : Token => p t.kind) ht]
      · rw [List.dropWhile_cons_of_neg (p := fun t : Token => p t.kind) ht, kindOf_cons]
        exact Bool.eq_false_iff.2 ht

/-- Dropping ends in front of a token that is not to be dropped, whatever else is changed there. -/
theorem dropWhile_takeWhile_append {p : Kind → Bool} {ys : List Token} (h : p (kindOf ys) = false)
    (ts : List Token) :
    (ts.takeWhile (fun t => p t.kind) ++ ys).dropWhile (fun t => p t.kind) = ys := by
  rw [List.dropWhile_append_of_pos fun t ht => List.all_eq_true.1 List.all_takeWhile t ht]
  cases ys with
  | nil => rfl
  | cons y ys => exact List.dropWhile_cons_of_neg (by simpa using h)

theorem kindOf_skipNewlines_ne (ts : List Token) : kindOf (skipNewlines ts) ≠ .newline := by
  have h : (kindOf (skipNewlines ts) == .newline) = false :=
    kindOf_dropWhile (p := fun k => k == .newline) rfl ts
  simpa using h

theorem kindOf_skipSeparators_notMem (ts : List Token) :
    kindOf (skipSeparators ts) ∉ [Kind.newline, .semicolon] := by
  have h : (kindOf (skipSeparators ts) == .newline || kindOf (skipSeparators ts) == .semicolon) =
      false :=
    kindOf_dropWhile (p := fun k => k == .newline || k == .semicolon) rfl ts
  simpa using h

theorem skipComma_cons_of_comma {t : Token} (h : t.kind = .comma) (ts : List Token) :
    skipComma (t :: ts) = ts :=
  if_pos (by simp [h])

theorem skipComma_of_kindOf_ne {ts : List Token} (h : kindOf ts ≠ .comma) : skipComma ts = ts := by
  cases ts with
  | nil => rfl
  | cons t ts => exact if_neg (by simpa using h)

theorem kindOf_append {taken : List Token} (h : taken ≠ []) (rest rest' : List Token) :
    kindOf (taken ++ rest) = kindOf (taken ++ rest') := by
  cases taken with
  | nil => exact absurd rfl h
  | cons t taken => rfl

/-- The kinds of token with which an argument of a command begins. -/
def argumentStarts : List Kind :=
  [.string, .number, .identifier, .hotkey]

theorem startsArgument_iff {ts : List Token} :
    startsArgument ts = true ↔ kindOf ts ∈ argumentStarts := by
  unfold startsArgument argumentStarts
  split <;> simp_all

theorem afterPipe?_eq_none {ts : List Token} :
    afterPipe? ts = none ↔ kindOf (skipNewlines ts) ≠ .pipe := by
  unfold afterPipe?
  cases skipNewlines ts with
  | nil => simp
  | cons t ts => simp

theorem afterOperator?_cons_eq_none {ops : List BinOp} {t : Token} {ts : List Token}
    (h : afterOperator? ops (t :: ts) = none) (ts' : List Token) :
    afterOperator? ops (t :: ts') = none := by
  refine Option.eq_none_iff_forall_ne_some.2 ?_
  rintro ⟨op, rest⟩ hsome
  obtain ⟨u, after, heq, hkind, hop, hmem, -⟩ := Grammar.afterOperator?_eq_some.1 hsome
  cases heq
  rw [Grammar.afterOperator?_eq_some.2 ⟨t, ts, rfl, hkind, hop, hmem, rfl⟩] at h
  cases h

theorem afterOperator?_eq_none_of_kindOf {ops : List BinOp} {ts : List Token}
    (h : kindOf ts ≠ .operator) : afterOperator? ops ts = none := by
  cases ts with
  | nil => rfl
  | cons t ts => exact if_neg (by simpa using h)

/-! ## What ends a phrase -/

/-- Whatever ends in front of `r`, judging by its first token, ends in front of `r'` too. -/
structure Stops (r r' : List Token) : Prop where
  kind : ∀ k ∈ [Kind.dot, .leftParen, .comma, .assign, .newline], kindOf r ≠ k → kindOf r' ≠ k
  argument : startsArgument r = false → startsArgument r' = false
  operator : ∀ ops, afterOperator? ops r = none → afterOperator? ops r' = none

/-- Whatever operand ends in front of `r` ends in front of `r'` too. Only where commands are allowed
does it matter whether an argument or a comma follows. -/
structure StopsOperand (commands : Bool) (r r' : List Token) : Prop where
  kind : ∀ k ∈ [Kind.dot, .leftParen], kindOf r ≠ k → kindOf r' ≠ k
  operator : ∀ ops, afterOperator? ops r = none → afterOperator? ops r' = none
  argument : commands = true → startsArgument r = false → startsArgument r' = false
  comma : commands = true → kindOf r ≠ .comma → kindOf r' ≠ .comma

/-- The same, judging by the first token after newlines as well. -/
structure StopsLine (r r' : List Token) : Prop extends Stops r r' where
  visible : ∀ k ∈ [Kind.pipe, .elseWord],
    kindOf (skipNewlines r) ≠ k → kindOf (skipNewlines r') ≠ k

/-- The same, and a statement may end in front of `r'` if it may end in front of `r`. -/
structure StopsStatement (r r' : List Token) : Prop extends StopsLine r r' where
  ending : kindOf r ∈ .rightBrace :: Grammar.endings → kindOf r' ∈ .rightBrace :: Grammar.endings

section Stops

variable {r r' : List Token}

theorem Stops.of_head (h : r.head? = r'.head?) : Stops r r' := by
  cases r with
  | nil =>
      cases r' with
      | nil => exact ⟨fun _ _ h => h, fun h => h, fun _ h => h⟩
      | cons u us => cases h
  | cons t ts =>
      cases r' with
      | nil => cases h
      | cons u us =>
          cases h
          exact ⟨fun _ _ h => h, fun h => h, fun _ h => afterOperator?_cons_eq_none h us⟩

theorem Stops.append (h : Stops r r') : (v : List Token) → Stops (v ++ r) (v ++ r')
  | [] => h
  | _ :: _ => .of_head rfl

theorem Stops.operand (h : Stops r r') (commands : Bool) : StopsOperand commands r r' where
  kind k hk := h.kind k ((List.sublist_append_left _ _).subset hk)
  operator := h.operator
  argument _ := h.argument
  comma _ := h.kind _ (by decide)

/-- Where commands are not allowed, less matters. -/
theorem StopsOperand.plain {commands : Bool} (h : StopsOperand commands r r') :
    StopsOperand false r r' :=
  ⟨h.kind, h.operator, nofun, nofun⟩

theorem StopsOperand.append {commands : Bool} (h : StopsOperand commands r r') :
    (v : List Token) → StopsOperand commands (v ++ r) (v ++ r')
  | [] => h
  | t :: v => by
      have hstops : Stops (t :: v ++ r) (t :: v ++ r') := .of_head rfl
      exact hstops.operand commands

theorem visible_append {k : Kind} (h : kindOf (skipNewlines r) ≠ k → kindOf (skipNewlines r') ≠ k) :
    (v : List Token) →
      kindOf (skipNewlines (v ++ r)) ≠ k → kindOf (skipNewlines (v ++ r')) ≠ k
  | [] => h
  | t :: v => by
      by_cases ht : t.kind = .newline
      · rw [List.cons_append, List.cons_append, skipNewlines_cons_of_newline ht,
          skipNewlines_cons_of_newline ht]
        exact visible_append h v
      · rw [List.cons_append, List.cons_append, skipNewlines_cons_of_ne ht,
          skipNewlines_cons_of_ne ht]
        exact fun h => h

theorem StopsLine.append (h : StopsLine r r') (v : List Token) : StopsLine (v ++ r) (v ++ r') :=
  ⟨h.toStops.append v, fun k hk => visible_append (h.visible k hk) v⟩

theorem StopsStatement.append (h : StopsStatement r r') :
    (v : List Token) → StopsStatement (v ++ r) (v ++ r')
  | [] => h
  | t :: v => ⟨h.toStopsLine.append (t :: v), fun h => h⟩

/-- A token that is no newline hides what is behind it. -/
theorem StopsStatement.of_cons {t : Token} (ht : t.kind ≠ .newline) (ts ts' : List Token) :
    StopsStatement (t :: ts) (t :: ts') := by
  refine ⟨⟨.of_head rfl, fun k _ => ?_⟩, fun h => h⟩
  rw [skipNewlines_cons_of_ne ht, skipNewlines_cons_of_ne ht]
  exact fun h => h

/-- The kinds of token in front of which every expression ends. -/
def closings : List Kind :=
  [.rightParen, .leftBrace, .rightBrace, .eof]

theorem StopsLine.of_closing (h : kindOf r' ∈ closings) : StopsLine r r' := by
  have hkind : ∀ k ∉ closings, kindOf r' ≠ k := fun k hk hr => hk (hr ▸ h)
  have hapart : ∀ k ∈ [Kind.dot, .leftParen, .comma, .assign, .newline], k ∉ closings := by decide
  have hapart' : ∀ k ∈ [Kind.pipe, .elseWord], k ∉ closings := by decide
  refine ⟨⟨fun k hk _ => hkind k (hapart k hk), fun _ => ?_, fun _ _ => ?_⟩, fun k hk _ => ?_⟩
  · unfold startsArgument
    revert h
    generalize kindOf r' = k
    revert k
    decide
  · exact afterOperator?_eq_none_of_kindOf (hkind _ (by decide))
  · rw [skipNewlines_of_kindOf_ne (hkind _ (by decide))]
    exact hkind k (hapart' k hk)

end Stops

end Parse

namespace Grammar

open Parse

/-! ## How phrases begin -/

theorem ArgumentList.kindOf_mem {ts rest : List Token} {args : List Expr}
    (h : ArgumentList ts args rest) : kindOf ts ∈ beginnings := by
  cases h with
  | last harg _ _ => exact harg.kindOf_mem
  | cons harg _ _ _ => exact harg.kindOf_mem

theorem Block.kindOf_eq {ts rest : List Token} {s : Stmt} (h : Block ts s rest) :
    kindOf ts = .leftBrace := by
  cases h with
  | braces hopen _ => exact hopen

theorem BlockTail.kindOf_mem {ts rest : List Token} {body : List Stmt}
    (h : BlockTail ts body rest) : kindOf ts ∈ .rightBrace :: (openings ++ beginnings) := by
  cases h with
  | nil hclose =>
      rw [kindOf_cons, hclose]
      exact List.mem_cons_self
  | cons _ hfirst _ _ => exact List.mem_cons_of_mem _ hfirst.kindOf_mem

theorem Statements.kindOf_mem {ts : List Token} {body : List Stmt} (h : Statements ts body) :
    kindOf ts ∈ .eof :: (openings ++ beginnings) := by
  cases h with
  | nil => exact List.mem_cons_self
  | cons hfirst _ _ => exact List.mem_cons_of_mem _ hfirst.kindOf_mem

/-- Kinds in one list are not in another one that has none of them. -/
theorem notMem_of_apart {ks ls : List Kind} {k : Kind} (h : k ∈ ks)
    (hapart : ∀ k ∈ ks, k ∉ ls := by decide) : k ∉ ls :=
  hapart k h

/-! ## Taking up tokens -/

/-- Tokens that parsers see one by one: no comments and no end tokens. -/
def Plain (ts : List Token) : Prop :=
  ∀ t ∈ ts, t.kind ≠ .eof ∧ t.kind ≠ .comment

theorem Plain.append {ts us : List Token} (hts : Plain ts) (hus : Plain us) : Plain (ts ++ us) :=
  List.forall_mem_append.2 ⟨hts, hus⟩

theorem Plain.cons {t : Token} {k : Kind} {ts : List Token} (ht : t.kind = k)
    (hts : Plain ts) (hk : k ≠ .eof ∧ k ≠ .comment := by decide) : Plain (t :: ts) :=
  List.forall_mem_cons.2 ⟨ht ▸ hk, hts⟩

theorem plain_nil : Plain [] :=
  List.forall_mem_nil _

theorem plain_takeWhile {p : Kind → Bool} (hcomment : p .comment = false) (hend : p .eof = false)
    (ts : List Token) : Plain (ts.takeWhile fun t => p t.kind) := by
  intro t ht
  have hpt : p t.kind = true := List.all_eq_true.1 List.all_takeWhile t ht
  constructor
  · intro heof
    rw [heof, hend] at hpt
    cases hpt
  · intro heq
    rw [heq, hcomment] at hpt
    cases hpt

theorem plain_of_skipSeparators {ts : List Token} (h : Plain (skipSeparators ts)) : Plain ts := by
  have hfront : Plain (ts.takeWhile fun t => t.kind == .newline || t.kind == .semicolon) :=
    plain_takeWhile (p := fun k => k == .newline || k == .semicolon) rfl rfl ts
  have happend := hfront.append h
  rwa [skipSeparators, List.takeWhile_append_dropWhile] at happend

theorem Plain.filter_append {ts : List Token} (h : Plain ts) (us : List Token) :
    (ts ++ us).filter (fun t => t.kind != .comment) =
      ts ++ us.filter fun t => t.kind != .comment := by
  rw [List.filter_append, List.filter_eq_self.2 fun t ht => by simpa using (h t ht).2]

/-- Parsers see all plain tokens in front, whatever comes behind them. -/
theorem Plain.exists_tokens {ts : List Token} (h : Plain ts) (us : List Token) :
    ∃ seen, (Stream.ofTokens (ts ++ us)).tokens = ts ++ seen := by
  refine ⟨(us.filter fun t => t.kind != .comment).takeWhile fun t => t.kind != .eof, ?_⟩
  show List.takeWhile _ (List.filter _ _) = _
  rw [h.filter_append, List.takeWhile_append_of_pos fun t ht => by simpa using (h t ht).1]

/-- Parsers see nothing behind an end token. -/
theorem Plain.ofTokens {ts : List Token} (h : Plain ts) {stop : Token} (hstop : stop.kind = .eof)
    (us : List Token) : Stream.ofTokens (ts ++ stop :: us) = ⟨ts, stop⟩ := by
  have hkept : (ts ++ stop :: us).filter (fun t => t.kind != .comment) =
      ts ++ stop :: us.filter fun t => t.kind != .comment := by
    rw [h.filter_append, List.filter_cons_of_pos (by simp [hstop])]
  have hfind : ts.find? (fun t => t.kind == .eof) = none :=
    List.find?_eq_none.2 fun t ht => by simpa using (h t ht).1
  unfold Stream.ofTokens
  simp only [hkept, Stream.mk.injEq]
  constructor
  · rw [List.takeWhile_append_of_pos fun t ht => by simpa using (h t ht).1,
      List.takeWhile_cons_of_neg (by simp [hstop]), List.append_nil]
  · rw [List.find?_append, hfind, List.find?_cons_of_pos (by simp [hstop])]
    rfl

/-- The phrase takes up the tokens of `ts` before `rest`, and it takes up the same tokens in front
of everything that ends it as `rest` does. -/
def Takes (E P : List Token → List Token → Prop) (ts rest : List Token) : Prop :=
  ∃ taken, ts = taken ++ rest ∧ Plain taken ∧ ∀ rest', E rest rest' → P (taken ++ rest') rest'

section Takes

variable {E F A B P : List Token → List Token → Prop}
  {ts ts₁ rest : List Token}

theorem Takes.nil (h : ∀ rest', E rest rest' → P rest' rest') :
    Takes E P rest rest :=
  ⟨[], rfl, plain_nil, h⟩

/-- A phrase of two parts. What ends the second part hides from the first one. -/
theorem Takes.seq (hfirst : Takes E A ts ts₁) (hsecond : Takes F B ts₁ rest)
    (hends : ∀ v r', ts₁ = v ++ rest → F rest r' → E (v ++ rest) (v ++ r'))
    (hphrase : ∀ {x m r}, A x m → B m r → P x r) : Takes F P ts rest := by
  obtain ⟨u, rfl, hu, hagain⟩ := hfirst
  obtain ⟨v, rfl, hv, hagain'⟩ := hsecond
  refine ⟨u ++ v, (List.append_assoc u v rest).symm, hu.append hv, fun rest' hrest => ?_⟩
  rw [List.append_assoc]
  exact hphrase (hagain _ (hends v rest' rfl hrest)) (hagain' rest' hrest)

theorem Takes.imp (h : Takes E A ts rest)
    (hphrase : ∀ {x r}, E rest r → A x r → P x r) : Takes E P ts rest := by
  obtain ⟨taken, heq, hplain, hagain⟩ := h
  exact ⟨taken, heq, hplain, fun rest' hrest => hphrase hrest (hagain rest' hrest)⟩

theorem Takes.token {t : Token} {k : Kind} (ht : t.kind = k) (h : ∀ r, P (t :: r) r)
    (hk : k ≠ .eof ∧ k ≠ .comment := by decide) : Takes E P (t :: rest) rest :=
  ⟨[t], rfl, plain_nil.cons ht hk, fun r _ => h r⟩

theorem Takes.weaken (h : Takes E P ts rest)
    (hends : ∀ {r}, F rest r → E rest r) : Takes F P ts rest := by
  obtain ⟨taken, heq, hplain, hagain⟩ := h
  exact ⟨taken, heq, hplain, fun rest' hrest => hagain rest' (hends hrest)⟩

/-- A phrase that begins with given tokens. -/
theorem Takes.behind {front : List Token} (hfront : Plain front) (h : Takes E A ts rest)
    (hphrase : ∀ {x r}, A x r → P (front ++ x) r) :
    Takes E P (front ++ ts) rest := by
  obtain ⟨taken, rfl, hplain, hagain⟩ := h
  refine ⟨front ++ taken, (List.append_assoc _ _ _).symm, hfront.append hplain, ?_⟩
  intro rest' hrest
  rw [List.append_assoc]
  exact hphrase (hagain rest' hrest)

theorem Takes.cons {t : Token} {k : Kind} (ht : t.kind = k) (h : Takes E A ts rest)
    (hphrase : ∀ {x r}, A x r → P (t :: x) r)
    (hk : k ≠ .eof ∧ k ≠ .comment := by decide) : Takes E P (t :: ts) rest :=
  Takes.behind (plain_nil.cons ht hk) h hphrase

/-- A test of the first token comes out the same in front of all tokens behind the phrase. -/
theorem Takes.guarded {Q : List Token → Prop} (h : Takes E A ts rest)
    (hlt : rest.length < ts.length) (hfirst : Q ts) (hP : ∀ t xs ys, Q (t :: xs) → Q (t :: ys)) :
    Takes E (fun x r => Q x ∧ A x r) ts rest := by
  obtain ⟨taken, rfl, hplain, hagain⟩ := h
  refine ⟨taken, rfl, hplain, fun rest' hrest => ⟨?_, hagain rest' hrest⟩⟩
  cases taken with
  | nil => exact absurd hlt (Nat.lt_irrefl _)
  | cons t taken => exact hP t _ _ hfirst

theorem Takes.ne_nil {taken : List Token} (heq : ts = taken ++ rest)
    (hlt : rest.length < ts.length) : taken ≠ [] := by
  rintro rfl
  rw [heq] at hlt
  exact Nat.lt_irrefl _ hlt

/-- Tokens that are dropped one by one may be anything that the parsers see. -/
theorem Takes.dropWhile {p : Kind → Bool} (hcomment : p .comment = false)
    (hend : p .eof = false)
    (h : Takes E A (ts.dropWhile fun t => p t.kind) rest)
    (hlt : rest.length < (ts.dropWhile fun t => p t.kind).length) :
    Takes E (fun x r => A (x.dropWhile fun t => p t.kind) r) ts rest := by
  obtain ⟨taken, heq, hplain, hagain⟩ := h
  have hne := Takes.ne_nil heq hlt
  refine ⟨ts.takeWhile (fun t => p t.kind) ++ taken, ?_, ?_, fun rest' hrest => ?_⟩
  · rw [List.append_assoc, ← heq, List.takeWhile_append_dropWhile]
  · exact (plain_takeWhile hcomment hend ts).append hplain
  · have hfirst := hagain rest' hrest
    -- The first token behind the dropped ones is not one of them.
    have hkept : p (kindOf (taken ++ rest')) = false := by
      rw [kindOf_append hne rest' rest, ← heq]
      exact kindOf_dropWhile hend ts
    show A (List.dropWhile _ _) rest'
    rwa [List.append_assoc, dropWhile_takeWhile_append hkept]

theorem Takes.skipNewlines (h : Takes E A (skipNewlines ts) rest)
    (hlt : rest.length < (skipNewlines ts).length) :
    Takes E (fun x r => A (skipNewlines x) r) ts rest :=
  Takes.dropWhile (p := fun k => k == .newline) rfl rfl h hlt

theorem Takes.skipSeparators (h : Takes E A (skipSeparators ts) rest)
    (hlt : rest.length < (skipSeparators ts).length) :
    Takes E (fun x r => A (skipSeparators x) r) ts rest :=
  Takes.dropWhile (p := fun k => k == .newline || k == .semicolon) rfl rfl h hlt

/-- A token of a kind after newlines, and a phrase behind it. -/
theorem Takes.visible {t : Token} {k : Kind} (hskip : Parse.skipNewlines ts = t :: ts₁)
    (ht : t.kind = k) (h : Takes E A ts₁ rest) (hle : rest.length ≤ ts₁.length)
    (hk : k ≠ .eof ∧ k ≠ .comment := by decide) :
    Takes E (fun x r => ∃ u m, Parse.skipNewlines x = u :: m ∧ u.kind = k ∧ A m r)
      ts rest := by
  have htoken : Takes E (fun x r => ∃ u m, x = u :: m ∧ u.kind = k ∧ A m r)
      (Parse.skipNewlines ts) rest := by
    rw [hskip]
    exact h.cons ht (fun hx => ⟨t, _, rfl, ht, hx⟩) hk
  exact htoken.skipNewlines (by rw [hskip]; exact Nat.lt_succ_of_le hle)

/-- What ends behind a token after newlines does not show in front of it. -/
theorem stopsStatement_of_visible {t : Token} (hskip : Parse.skipNewlines ts = t :: ts₁)
    (hle : rest.length ≤ ts₁.length) {v : List Token} (hv : ts = v ++ rest)
    (rest' : List Token) : StopsStatement (v ++ rest) (v ++ rest') := by
  have hlt := length_lt_of_skipNewlines hskip
  induction v generalizing ts with
  | nil =>
      rw [hv] at hlt
      exact absurd hlt (Nat.not_lt.2 hle)
  | cons u v ih =>
      by_cases hu : u.kind = .newline
      · have htail : Parse.skipNewlines (v ++ rest) = t :: ts₁ := by
          rw [← hskip, hv, List.cons_append, skipNewlines_cons_of_newline hu]
        exact (ih htail rfl (length_lt_of_skipNewlines htail)).append [u]
      · exact .of_cons hu _ _

end Takes

/-! ## Expressions -/

theorem takes_afterPipe {ts ts₁ rest : List Token} {E A : List Token → List Token → Prop}
    (hpipe : afterPipe? ts = some ts₁) (hfirst : Takes E A ts₁ rest)
    (hlt : rest.length < ts₁.length) :
    Takes E (fun x r => ∃ m, afterPipe? x = some m ∧ A m r) ts rest := by
  obtain ⟨t, after, hskip, ht, rfl⟩ := afterPipe?_eq_some.1 hpipe
  have hle := Nat.le_trans (Nat.le_of_lt hlt) (skipNewlines_length_le after)
  refine (Takes.visible hskip ht (hfirst.skipNewlines hlt) hle).imp ?_
  rintro x r - ⟨u, m, hskip, hu, hfirst⟩
  exact ⟨_, afterPipe?_eq_some.2 ⟨u, m, hskip, hu, rfl⟩, hfirst⟩

theorem takes_afterOperator {ops : List BinOp} {op : BinOp} {ts ts₁ rest : List Token}
    {E A : List Token → List Token → Prop}
    (hop : afterOperator? ops ts = some (op, ts₁)) (hfirst : Takes E A ts₁ rest)
    (hlt : rest.length < ts₁.length) :
    Takes E (fun x r => ∃ m, afterOperator? ops x = some (op, m) ∧ A m r) ts rest := by
  obtain ⟨t, after, rfl, ht, hsymbol, hmem, rfl⟩ := afterOperator?_eq_some.1 hop
  exact Takes.cons ht (hfirst.skipNewlines hlt) fun hx =>
    ⟨_, afterOperator?_eq_some.2 ⟨t, _, rfl, ht, hsymbol, hmem, rfl⟩, hx⟩

theorem takes_skipComma : (ts : List Token) →
    Takes (StopsOperand true) (fun x r => skipComma x = r) ts (skipComma ts)
  | [] => .nil fun _ hrest => skipComma_of_kindOf_ne (hrest.comma rfl (by decide))
  | t :: ts => by
      by_cases ht : t.kind = .comma
      · rw [skipComma_cons_of_comma ht]
        exact .token ht (skipComma_cons_of_comma ht)
      · have hskip : skipComma (t :: ts) = t :: ts := skipComma_of_kindOf_ne ht
        rw [hskip]
        exact .nil fun _ hrest => skipComma_of_kindOf_ne (hrest.comma rfl ht)

mutual

theorem Expression.takes {ts rest : List Token} {e : Expr} :
    Expression ts e rest → Takes StopsLine (fun x r => Expression x e r) ts rest
  | .stages hhead htail =>
      hhead.takesOperand.seq htail.takes (fun v _ _ h => (h.toStops.append v).operand true) .stages

theorem PipelineTail.takes {ts rest : List Token} {stages : List Expr} :
    PipelineTail ts stages rest → Takes StopsLine (fun x r => PipelineTail x stages r) ts rest
  | .nil hpipe => .nil fun _ h =>
      .nil (afterPipe?_eq_none.2 (h.visible _ (by decide) (afterPipe?_eq_none.1 hpipe)))
  | .cons hpipe hstage htail =>
      (takes_afterPipe hpipe hstage.takesOperand hstage.length_lt).seq htail.takes
        (fun v _ _ h => (h.toStops.append v).operand true)
        fun ⟨_, hpipe, hstage⟩ => .cons hpipe hstage

theorem Binary.takesOperand {ops : List (List BinOp)} {commands c : Bool} {ts rest : List Token}
    {e : Expr} : Binary ops commands ts e c rest →
      Takes (StopsOperand commands) (fun x r => Binary ops commands x e c r) ts rest
  | .operand hoperand => hoperand.takesOperand.imp fun _ => .operand
  | .level hleft htail =>
      hleft.takesOperand.seq htail.takesOperand (fun v _ _ h => h.append v) .level

theorem BinaryTail.takesOperand {ops : List BinOp} {tighter : List (List BinOp)}
    {commands c d : Bool} {left e : Expr} {ts rest : List Token} :
    BinaryTail ops tighter commands left c ts e d rest →
      Takes (StopsOperand commands)
        (fun x r => BinaryTail ops tighter commands left c x e d r) ts rest
  | .nil hop => .nil fun _ h => .nil (h.operator _ hop)
  | .cons hop hright htail =>
      (takes_afterOperator hop hright.takesOperand hright.length_lt).seq htail.takesOperand
        (fun v _ _ h => h.append v) fun ⟨_, hop, hright⟩ => .cons hop hright

theorem Unary.takesOperand {commands c : Bool} {ts rest : List Token} {e : Expr} :
    Unary commands ts e c rest →
      Takes (StopsOperand commands) (fun x r => Unary commands x e c r) ts rest
  | .minus hkind htext hoperand => .cons hkind hoperand.takesOperand (.minus hkind htext)
  | .call hfirst hcall =>
      (hcall.takesOperand.guarded hcall.length_lt hfirst fun _ _ _ h => h).imp
        fun _ h => .call h.1 h.2

theorem Call.takesOperand {commands c : Bool} {ts rest : List Token} {e : Expr} :
    Call commands ts e c rest →
      Takes (StopsOperand commands) (fun x r => Call commands x e c r) ts rest
  | .plain hhead hsuffixes hno => by
      have hpath := hhead.takes.seq (hsuffixes.takesOperand commands) (fun v _ _ h => h.append v)
        (P := fun x r => ∃ m, Primary x _ m ∧ Suffixes _ m e r)
        fun hhead hsuffixes => ⟨_, hhead, hsuffixes⟩
      refine hpath.imp ?_
      rintro x r hr ⟨m, hhead, hsuffixes⟩
      refine .plain hhead hsuffixes ?_
      rintro ⟨hcommands, hpath, hstarts⟩
      refine hno ⟨hcommands, hpath, ?_⟩
      refine Bool.of_not_eq_false fun hnot => ?_
      rw [hr.argument hcommands hnot] at hstarts
      cases hstarts
  | .command hhead hsuffixes hpath hstarts hargs => by
      have hpath' := hhead.takes.seq (hsuffixes.takesOperand true) (fun v _ _ h => h.append v)
        (P := fun x r => ∃ m, Primary x _ m ∧ Suffixes _ m _ r)
        fun hhead hsuffixes => ⟨_, hhead, hsuffixes⟩
      refine hpath'.seq (hargs.takesOperand.guarded (Q := fun x => startsArgument x = true)
        hargs.length_lt hstarts fun _ _ _ h => h) (fun v _ _ h => h.append v) ?_
      rintro x m r ⟨m', hhead, hsuffixes⟩ ⟨hstarts, hargs⟩
      exact .command hhead hsuffixes hpath hstarts hargs

theorem Suffixes.takesOperand (commands : Bool) {head e : Expr} {ts rest : List Token} :
    Suffixes head ts e rest →
      Takes (StopsOperand commands) (fun x r => Suffixes head x e r) ts rest
  | .nil hdot hparen => .nil fun r h => by
      refine .nil (h.kind _ (by decide) hdot) ?_
      rintro ⟨hkind, hpath⟩
      exact h.kind .leftParen (by decide) (fun h => hparen ⟨h, hpath⟩) hkind
  | .member hdot hname hmore =>
      .behind ((plain_nil.cons hname).cons hdot) (hmore.takesOperand commands)
        (.member hdot hname)
  | .call hparen hpath hargs hmore =>
      .cons hparen (hargs.takes.seq (hmore.takesOperand commands) (fun v _ _ h => h.append v)
        (P := fun x r => ∃ m, Arguments x _ m ∧ Suffixes _ m e r)
        fun hargs hmore => ⟨_, hargs, hmore⟩)
        fun ⟨_, hargs, hmore⟩ => .call hparen hpath hargs hmore

theorem CommandArguments.takesOperand {ts rest : List Token} {args : List Expr} :
    CommandArguments ts args rest →
      Takes (StopsOperand true) (fun x r => CommandArguments x args r) ts rest
  | .last harg hstops =>
      (harg.takesOperand.seq (takes_skipComma _) (fun v _ _ h => (h.append v).plain)
        (P := fun x r => ∃ m, Binary levels false x _ _ m ∧ skipComma m = r)
        fun harg hskip => ⟨_, harg, hskip⟩).imp
        fun hr ⟨_, harg, hskip⟩ => hskip ▸ .last harg (hskip ▸ hr.argument rfl hstops)
  | @CommandArguments.cons _ _ _ _ _ more harg hstarts hmore => by
      have hskipped := (takes_skipComma _).seq
        (hmore.takesOperand.guarded (Q := fun x => startsArgument x = true) hmore.length_lt hstarts
          fun _ _ _ h => h)
        (fun v _ _ h => h.append v)
        (P := fun x r => startsArgument (skipComma x) = true ∧
          CommandArguments (skipComma x) more r)
        fun hskip hmore => hskip ▸ hmore
      exact harg.takesOperand.seq hskipped (fun v _ _ h => (h.append v).plain)
        fun harg hmore => .cons harg hmore.1 hmore.2

theorem Arguments.takes {E : List Token → List Token → Prop} {ts rest : List Token}
    {args : List Expr} :
    Arguments ts args rest → Takes E (fun x r => Arguments x args r) ts rest
  | .none hskip hparen =>
      (Takes.visible hskip hparen (.nil (P := fun x r => x = r) fun _ _ => rfl)
        (Nat.le_refl _)).imp fun _ ⟨_, _, hskip, hparen, heq⟩ => heq ▸ .none hskip hparen
  | .some hkind hlist =>
      ((hlist.takes.guarded (Q := fun x => kindOf x ≠ .rightParen) hlist.length_lt hkind
        fun _ _ _ h => h).skipNewlines hlist.length_lt).imp fun _ h => .some h.1 h.2

theorem ArgumentList.takes {E : List Token → List Token → Prop} {ts rest : List Token}
    {args : List Expr} :
    ArgumentList ts args rest → Takes E (fun x r => ArgumentList x args r) ts rest
  | .last harg hskip hparen =>
      harg.takes.seq
        (Takes.visible hskip hparen (.nil (P := fun x r => x = r) fun _ _ => rfl)
          (Nat.le_refl _))
        (fun _ r' hv _ => (stopsStatement_of_visible hskip (Nat.le_refl _) hv r').toStopsLine)
        fun harg ⟨_, _, hskip, hparen, heq⟩ => heq ▸ .last harg hskip hparen
  | .cons harg hskip hcomma hmore => by
      have hle := Nat.le_trans (Nat.le_of_lt hmore.length_lt) (skipNewlines_length_le _)
      exact harg.takes.seq
        (Takes.visible hskip hcomma (hmore.takes.skipNewlines hmore.length_lt) hle)
        (fun _ r' hv _ => (stopsStatement_of_visible hskip hle hv r').toStopsLine)
        fun harg ⟨_, _, hskip, hcomma, hmore⟩ => .cons harg hskip hcomma hmore

theorem Primary.takes {E : List Token → List Token → Prop} {ts rest : List Token} {e : Expr} :
    Primary ts e rest → Takes E (fun x r => Primary x e r) ts rest
  | .number hkind hvalue => .token hkind fun _ => .number hkind hvalue
  | .string hkind => .token hkind fun _ => .string hkind
  | .hotkey hkind => .token hkind fun _ => .hotkey hkind
  | .identifier hkind => .token hkind fun _ => .identifier hkind
  | .paren hopen hinner hskip hclose => by
      have hparen := hinner.takes.seq
        (Takes.visible hskip hclose (.nil (P := fun x r => x = r) fun _ _ => rfl)
          (Nat.le_refl _))
        (F := E)
        (fun _ r' hv _ => (stopsStatement_of_visible hskip (Nat.le_refl _) hv r').toStopsLine)
        (P := fun x r => ∃ m u, Expression x _ m ∧ Parse.skipNewlines m = u :: r ∧
          u.kind = .rightParen)
        fun hinner ⟨_, _, hskip, hclose, heq⟩ => ⟨_, _, hinner, heq ▸ hskip, hclose⟩
      have hlt := Nat.lt_trans (length_lt_of_skipNewlines hskip) hinner.length_lt
      exact .cons hopen (hparen.skipNewlines hlt)
        fun ⟨_, _, hinner, hskip, hclose⟩ => .paren hopen hinner hskip hclose

end

theorem Binary.takes {ops : List (List BinOp)} {commands c : Bool} {ts rest : List Token}
    {e : Expr} (h : Binary ops commands ts e c rest) :
    Takes Stops (fun x r => Binary ops commands x e c r) ts rest :=
  h.takesOperand.weaken (·.operand commands)

theorem Suffixes.takes {head e : Expr} {ts rest : List Token} (h : Suffixes head ts e rest) :
    Takes Stops (fun x r => Suffixes head x e r) ts rest :=
  (h.takesOperand false).weaken (·.operand false)

/-! ## Statements -/

theorem Names.takes {ts rest : List Token} {names : List String} (h : Names ts names rest) :
    Takes Stops (fun x r => Names x names r) ts rest := by
  induction h with
  | last hname hcomma =>
      refine .cons hname (.nil (P := fun x r => x = r ∧ kindOf r ≠ .comma) fun r hr => ?_) ?_
      · exact ⟨rfl, hr.kind _ (by decide) hcomma⟩
      · rintro x r ⟨rfl, hcomma⟩
        exact .last hname hcomma
  | cons hname hcomma _ ih =>
      exact .behind ((plain_nil.cons hcomma).cons hname) ih (.cons hname hcomma)

theorem Parameters.takes {ts rest : List Token} {names : List String}
    (h : Parameters ts names rest) : Takes Stops (fun x r => Parameters x names r) ts rest := by
  cases h with
  | none hclose => exact .token hclose fun _ => .none hclose
  | @some _ _ t _ hnames hclose =>
      refine hnames.takes.seq (F := Stops) (.token hclose fun r => ⟨t, rfl, hclose⟩)
        (B := fun x r => ∃ u, x = u :: r ∧ u.kind = .rightParen) ?_ ?_
      · rintro v r' hv -
        cases v with
        | nil =>
            have hlength := congrArg List.length hv
            simp at hlength
        | cons u v => exact .of_head rfl
      · rintro x m r hnames ⟨u, rfl, hclose⟩
        exact .some hnames hclose

mutual

theorem Statement.takes {ts rest : List Token} {s : Stmt} :
    Statement ts s rest → Takes StopsStatement (fun x r => Statement x s r) ts rest
  | .bind hhotkey harrow haction =>
      .behind ((plain_nil.cons harrow).cons hhotkey)
        (haction.takes.skipNewlines haction.length_lt) (.bind hhotkey harrow)
  | .block hblock => hblock.takes.imp fun _ => .block
  | .assign hlet hname hassign hvalue =>
      .behind (((plain_nil.cons hassign).cons hname).cons hlet)
        ((hvalue.takes.weaken (·.toStopsLine)).skipNewlines hvalue.length_lt)
        (.assign hlet hname hassign)
  | .declare hlet hname hassign => by
      refine .behind ((plain_nil.cons hname).cons hlet)
        (.nil (P := fun x r => x = r ∧ kindOf r ≠ .assign) fun _ hr =>
          ⟨rfl, hr.kind _ (by decide) hassign⟩) ?_
      rintro x _ ⟨rfl, hassign⟩
      exact .declare hlet hname hassign
  | .branch hif hbranch => .cons hif hbranch.takes (.branch hif)
  | .loop hwhile hcondition hbody =>
      .cons hwhile
        (hcondition.takes.seq (hbody.takes.skipNewlines hbody.length_lt)
          (fun v _ _ h => h.toStopsLine.append v)
          (P := fun x r => ∃ m, Expression x _ m ∧ Block (skipNewlines m) _ r)
          fun hcondition hbody => ⟨_, hcondition, hbody⟩)
        fun ⟨_, hcondition, hbody⟩ => .loop hwhile hcondition hbody
  | .function hfn hname hopen hparams hbody =>
      .behind (((plain_nil.cons hopen).cons hname).cons hfn)
        (hparams.takes.seq (hbody.takes.skipNewlines hbody.length_lt)
          (fun v _ _ h => h.toStops.append v)
          (P := fun x r => ∃ m, Parameters x _ m ∧ Block (skipNewlines m) _ r)
          fun hparams hbody => ⟨_, hparams, hbody⟩)
        fun ⟨_, hparams, hbody⟩ => .function hfn hname hopen hparams hbody
  | .leave hreturn hkind hvalue =>
      .cons hreturn
        ((hvalue.takes.weaken (·.toStopsLine)).guarded
          (Q := fun x => kindOf x ∉ Kind.rightBrace :: endings) hvalue.length_lt hkind
          fun _ _ _ h => h)
        fun h => .leave hreturn h.1 h.2
  | .leaveNull hreturn hkind => by
      refine .cons hreturn
        (.nil (P := fun x r => x = r ∧ kindOf r ∈ Kind.rightBrace :: endings) fun _ hr =>
          ⟨rfl, hr.ending hkind⟩) ?_
      rintro x _ ⟨rfl, hkind⟩
      exact .leaveNull hreturn hkind
  | .expr hkind he =>
      ((he.takes.weaken (·.toStopsLine)).guarded (Q := fun x => kindOf x ∉ openings)
        he.length_lt hkind fun _ _ _ h => h).imp fun _ h => .expr h.1 h.2

theorem Branch.takes {ts rest : List Token} {s : Stmt} :
    Branch ts s rest → Takes StopsStatement (fun x r => Branch x s r) ts rest
  | .plain hcondition hbody helse =>
      (hcondition.takes.seq (hbody.takes.skipNewlines hbody.length_lt)
        (fun v _ _ h => h.toStopsLine.append v)
        (P := fun x r => ∃ m, Expression x _ m ∧ Block (skipNewlines m) _ r)
        fun hcondition hbody => ⟨_, hcondition, hbody⟩).imp
        fun hr ⟨_, hcondition, hbody⟩ =>
          .plain hcondition hbody (hr.visible _ (by decide) helse)
  | .chain hcondition hbody hskip helse hskip' hif halternative => by
      have hle := Nat.le_of_lt halternative.length_lt
      have hle' := Nat.le_of_lt (Nat.lt_trans halternative.length_lt
        (length_lt_of_skipNewlines hskip'))
      have hcondition' := hcondition.takes.seq (hbody.takes.skipNewlines hbody.length_lt)
        (fun v _ _ h => h.toStopsLine.append v)
        (P := fun x r => ∃ m, Expression x _ m ∧ Block (skipNewlines m) _ r)
        fun hcondition hbody => ⟨_, hcondition, hbody⟩
      refine hcondition'.seq
        (Takes.visible hskip helse (Takes.visible hskip' hif halternative.takes hle) hle')
        (fun v _ _ h => h.append v) ?_
      rintro x m r ⟨m₁, hcondition, hbody⟩ ⟨t, m₂, hskip, helse, u, m₃, hskip', hif, halternative⟩
      exact .chain hcondition hbody hskip helse hskip' hif halternative
  | .otherwise hcondition hbody hskip helse halternative => by
      have hle := Nat.le_of_lt (Nat.lt_of_lt_of_le halternative.length_lt
        (skipNewlines_length_le _))
      have hcondition' := hcondition.takes.seq (hbody.takes.skipNewlines hbody.length_lt)
        (fun v _ _ h => h.toStopsLine.append v)
        (P := fun x r => ∃ m, Expression x _ m ∧ Block (skipNewlines m) _ r)
        fun hcondition hbody => ⟨_, hcondition, hbody⟩
      refine hcondition'.seq
        (Takes.visible hskip helse (halternative.takes.skipNewlines halternative.length_lt) hle)
        (fun v _ _ h => h.append v) ?_
      rintro x m r ⟨m₁, hcondition, hbody⟩ ⟨t, m₂, hskip, helse, halternative⟩
      exact .otherwise hcondition hbody hskip helse halternative

theorem Block.takes {ts rest : List Token} {s : Stmt} :
    Block ts s rest → Takes StopsStatement (fun x r => Block x s r) ts rest
  | .braces hopen hbody =>
      .cons hopen (hbody.takes.skipSeparators hbody.length_lt) (.braces hopen)

theorem BlockTail.takes {ts rest : List Token} {body : List Stmt} :
    BlockTail ts body rest → Takes StopsStatement (fun x r => BlockTail x body r) ts rest
  | .nil hclose => .token hclose fun _ => .nil hclose
  | @BlockTail.cons _ _ _ _ body hkind hfirst hend hmore => by
      have hmore' := hmore.takes.skipSeparators hmore.length_lt
      have hlt := Nat.lt_of_lt_of_le hmore.length_lt (skipSeparators_length_le _)
      have hfirst' := hfirst.takes.guarded (Q := fun x => kindOf x ≠ .rightBrace)
        hfirst.length_lt hkind fun _ _ _ h => h
      have hmore'' := hmore'.guarded (Q := fun x => kindOf x ∈ Kind.rightBrace :: endings)
        hlt hend fun _ _ _ h => h
      exact hfirst'.seq hmore'' (fun v _ _ h => h.append v)
        fun hfirst hmore => .cons hfirst.1 hfirst.2 hmore.1 hmore.2

end

theorem Statements.plain {ts : List Token} {body : List Stmt} (h : Statements ts body) :
    Plain ts := by
  induction h with
  | nil => exact plain_nil
  | cons hfirst _ _ ih =>
      obtain ⟨taken, rfl, hplain, -⟩ := hfirst.takes
      exact hplain.append (plain_of_skipSeparators ih)

end Grammar
end Chord
