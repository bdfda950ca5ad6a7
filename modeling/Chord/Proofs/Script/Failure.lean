import Chord.Proofs.Script.Lookahead

/-!
# How parsers fail

A parser that fails names a token. The tokens up to and including that one are the beginning of no
phrase, and those before it are the beginning of one.

**Input.** Tokens on which a parser fails.

**Algorithm.** A phrase of several parts goes wrong in one of them. The parts before it are read
again, whatever comes behind the token where it goes wrong, and the parts after it can always be
made up.

**Results.** `Fails` says that a parser fails in this way. It is carried from the parts of a phrase
to the phrase by `Fails.sequence`, `Fails.cons`, `Fails.visible` and their companions. Every parser
of expressions fails in this way only (`expression_fails` and its companions).
-/

namespace Chord
namespace Parse

theorem bind_eq_error {ε α β : Type} {x : Except ε α} {f : α → Except ε β} {e : ε} :
    (x >>= f) = .error e ↔ x = .error e ∨ ∃ a, x = .ok a ∧ f a = .error e := by
  cases x with
  | error e' =>
      constructor
      · intro h
        cases h
        exact .inl rfl
      · rintro (h | ⟨a, h, -⟩)
        · cases h
          rfl
        · cases h
  | ok a =>
      constructor
      · intro h
        exact .inr ⟨a, rfl, h⟩
      · rintro (h | ⟨a', h, h'⟩)
        · cases h
        · cases h
          exact h'

theorem kindOf_eq_of_head? {xs ys : List Token} (h : xs.head? = ys.head?) :
    kindOf xs = kindOf ys := by
  cases xs with
  | nil =>
      cases ys with
      | nil => rfl
      | cons y ys => cases h
  | cons x xs =>
      cases ys with
      | nil => cases h
      | cons y ys =>
          cases h
          rfl

end Parse

namespace Grammar

open Parse

/-! ## Phrases are read in one way -/

/-- An end token. -/
def endToken : Token :=
  ⟨.eof, "", .start⟩

theorem eq_of_parses {α : Type} {parser : Nat → Except Halt (α × List Token)} {bound : Nat}
    {a a' : α} {rest rest' : List Token} (h : ∀ n, bound ≤ n → parser n = .ok (a, rest))
    (h' : ∀ n, bound ≤ n → parser n = .ok (a', rest')) : a = a' ∧ rest = rest' :=
  Prod.mk.inj (Except.ok.inj ((h bound (Nat.le_refl _)).symm.trans (h' bound (Nat.le_refl _))))

theorem token_unique {kind : Kind} {xs r r' : List Token} {t t' : Token}
    (h : xs = t :: r ∧ t.kind = kind) (h' : xs = t' :: r' ∧ t'.kind = kind) : t = t' ∧ r = r' :=
  List.cons.inj (h.1.symm.trans h'.1)

section Unique

variable {ts rest rest' : List Token}

theorem Expression.unique {e e' : Expr} (h : Expression ts e rest) (h' : Expression ts e' rest') :
    e = e' ∧ rest = rest' :=
  eq_of_parses (h.parses endToken) (h'.parses endToken)

theorem Binary.unique {ops : List (List BinOp)} {commands : Bool} {p p' : Expr × Bool}
    (h : Binary ops commands ts p.1 p.2 rest) (h' : Binary ops commands ts p'.1 p'.2 rest') :
    p = p' ∧ rest = rest' :=
  eq_of_parses (h.parses endToken) (h'.parses endToken)

theorem Primary.unique {e e' : Expr} (h : Primary ts e rest) (h' : Primary ts e' rest') :
    e = e' ∧ rest = rest' :=
  eq_of_parses (h.parses endToken) (h'.parses endToken)

theorem Suffixes.unique {head e e' : Expr} (h : Suffixes head ts e rest)
    (h' : Suffixes head ts e' rest') : e = e' ∧ rest = rest' :=
  eq_of_parses (h.parses endToken) (h'.parses endToken)

theorem Arguments.unique {args args' : List Expr} (h : Arguments ts args rest)
    (h' : Arguments ts args' rest') : args = args' ∧ rest = rest' :=
  eq_of_parses (h.parses endToken) (h'.parses endToken)

theorem Names.unique {names names' : List String} (h : Names ts names rest)
    (h' : Names ts names' rest') : names = names' ∧ rest = rest' :=
  Prod.mk.inj (Except.ok.inj ((h.parses endToken).symm.trans (h'.parses endToken)))

theorem Statement.unique {s s' : Stmt} (h : Statement ts s rest) (h' : Statement ts s' rest') :
    s = s' ∧ rest = rest' :=
  eq_of_parses (h.parses endToken) (h'.parses endToken)

theorem Block.unique {s s' : Stmt} (h : Block ts s rest) (h' : Block ts s' rest') :
    s = s' ∧ rest = rest' :=
  eq_of_parses (h.parses endToken) (h'.parses endToken)

end Unique

/-! ## Failures -/

/-- The tokens `ts` go wrong in front of `rest`. With the first token of `rest` behind `taken` there
is no phrase any more; without it, some tokens make up a phrase, in front of everything that is
`C`. To a phrase before `ts`, all these tokens look like `ts`, as far as `E` tells. -/
structure Broken (E P : List Token → List Token → Prop) (C : List Token → Prop)
    (ts taken rest : List Token) : Prop where
  split : ts = taken ++ rest
  dead : ∀ {t after}, rest = t :: after → ∀ after',
    E ts (taken ++ t :: after') ∧ ∀ r, ¬P (taken ++ t :: after') r
  repair : ∃ more, ∀ follow, C follow →
    E ts (taken ++ (more ++ follow)) ∧ P (taken ++ (more ++ follow)) follow

/-- A parser stops on `ts` because of a token at which they go wrong. -/
def Fails (stop : Token) (E P : List Token → List Token → Prop) (C : List Token → Prop)
    (ts : List Token) (halt : Halt) : Prop :=
  ∃ wanted taken rest, halt = .mismatch ⟨wanted, rest.headD stop⟩ ∧ Broken E P C ts taken rest

section Fails

variable {stop : Token} {halt : Halt} {ts ts₁ : List Token}
  {E F P Q : List Token → List Token → Prop} {C D : List Token → Prop}

theorem head?_append_cons (taken after after' : List Token) (t : Token) :
    (taken ++ t :: after').head? = (taken ++ t :: after).head? := by
  cases taken with
  | nil => rfl
  | cons u taken => rfl

theorem head?_append_of_ne_nil {v : List Token} (hv : v ≠ []) (xs ys : List Token) :
    (v ++ xs).head? = (v ++ ys).head? := by
  cases v with
  | nil => exact absurd rfl hv
  | cons t v => rfl

/-- The first token does not fit, and other tokens would. -/
theorem Fails.here {wanted : Wanted} (fill : List Token)
    (hdead : ∀ {x r}, x.head? = ts.head? → ¬P x r)
    (hends : ∀ {t after after'}, ts = t :: after → E ts (t :: after'))
    (hrepair : ∀ follow, C follow → E ts (fill ++ follow) ∧ P (fill ++ follow) follow) :
    Fails stop E P C ts (.mismatch ⟨wanted, ts.headD stop⟩) := by
  refine ⟨wanted, [], ts, rfl, rfl, ?_, fill, hrepair⟩
  rintro t after rfl after'
  exact ⟨hends rfl, fun r => hdead rfl⟩

theorem Fails.weaken (h : Fails stop E P C ts halt) (hends : ∀ {x}, E ts x → F ts x) :
    Fails stop F P C ts halt := by
  obtain ⟨wanted, taken, rest, rfl, hsplit, hdead, more, hrepair⟩ := h
  refine ⟨wanted, taken, rest, rfl, hsplit, fun hrest after' => ?_, more, fun follow hfollow => ?_⟩
  · exact ⟨hends (hdead hrest after').1, (hdead hrest after').2⟩
  · exact ⟨hends (hrepair follow hfollow).1, (hrepair follow hfollow).2⟩

/-- A phrase that goes wrong in its first part. The tokens in `fill` make up the other parts. -/
theorem Fails.first {A : List Token → List Token → Prop} (h : Fails stop E A D ts halt)
    (fill : List Token) (hfill : ∀ {follow}, C follow → D (fill ++ follow))
    (hdead : ∀ {x r}, x.head? = ts.head? → P x r → ∃ m, A x m)
    (hrepair : ∀ {x follow}, C follow → E ts x → A x (fill ++ follow) → P x follow) :
    Fails stop E P C ts halt := by
  obtain ⟨wanted, taken, rest, rfl, hsplit, hdead', more, hrepair'⟩ := h
  refine ⟨wanted, taken, rest, rfl, hsplit, ?_, more ++ fill, fun follow hfollow => ?_⟩
  · rintro t after rfl after'
    obtain ⟨hends, hnone⟩ := hdead' rfl after'
    refine ⟨hends, fun r hP => ?_⟩
    obtain ⟨m, hA⟩ := hdead (by rw [hsplit, head?_append_cons]) hP
    exact hnone m hA
  · obtain ⟨hends, hA⟩ := hrepair' (fill ++ follow) (hfill hfollow)
    rw [List.append_assoc]
    exact ⟨hends, hrepair hfollow hends hA⟩

/-- Another description of the phrase that the first token asks for. -/
theorem Fails.narrow (h : Fails stop E Q C ts halt)
    (hdead : ∀ {x r}, x.head? = ts.head? → P x r → Q x r)
    (hrepair : ∀ {x r}, E ts x → Q x r → P x r) : Fails stop E P C ts halt :=
  h.first [] (fun h => h) (fun hhead hP => ⟨_, hdead hhead hP⟩) fun _ hends hQ => hrepair hends hQ

/-- A phrase that goes wrong behind its first part. -/
theorem Fails.after {α : Type} {A B : α → List Token → List Token → Prop} {a : α}
    (hfirst : Takes E (A a) ts ts₁) (h : Fails stop E (B a) C ts₁ halt)
    (hends : ∀ {v x}, ts = v ++ ts₁ → E ts₁ x → F ts (v ++ x))
    (hunique : ∀ {x b r b' r'}, A b x r → A b' x r' → b = b' ∧ r = r') :
    Fails stop F (fun x r => ∃ b m, A b x m ∧ B b m r) C ts halt := by
  obtain ⟨v, hv, -, hagain⟩ := hfirst
  obtain ⟨wanted, taken, rest, rfl, hsplit, hdead, more, hrepair⟩ := h
  refine ⟨wanted, v ++ taken, rest, rfl, ?_, ?_, more, fun follow hfollow => ?_⟩
  · rw [hv, hsplit, List.append_assoc]
  · rintro t after rfl after'
    obtain ⟨hE, hnone⟩ := hdead rfl after'
    rw [List.append_assoc]
    refine ⟨hends hv hE, ?_⟩
    rintro r ⟨b, m, hA, hB⟩
    -- The first part is read as before, so the second part starts where it did.
    obtain ⟨rfl, rfl⟩ := hunique (hagain _ hE) hA
    exact hnone r hB
  · obtain ⟨hE, hB⟩ := hrepair follow hfollow
    rw [List.append_assoc]
    exact ⟨hends hv hE, a, _, hagain _ hE, hB⟩

/-- A phrase of two parts that goes wrong in either of them. -/
theorem Fails.sequence {α β : Type} {A B : α → List Token → List Token → Prop}
    {first : Except Halt (α × List Token)} {next : α × List Token → Except Halt β}
    (h : (first >>= next) = .error halt) (fill : List Token)
    (hfirst : first = .error halt → Fails stop F (fun x r => ∃ a, A a x r) D ts halt)
    (hsecond : ∀ {a ts₁}, first = .ok (a, ts₁) → next (a, ts₁) = .error halt →
      Takes E (A a) ts ts₁ ∧ ts₁.length < ts.length ∧ Fails stop E (B a) C ts₁ halt)
    (hhead : ∀ {x}, x.head? = ts.head? → F ts x)
    (hunique : ∀ {x b r b' r'}, A b x r → A b' x r' → b = b' ∧ r = r')
    (hfill : ∀ {follow}, C follow → D (fill ++ follow) ∧ ∀ a, B a (fill ++ follow) follow) :
    Fails stop F (fun x r => ∃ a m, A a x m ∧ B a m r) C ts halt := by
  rcases bind_eq_error.1 h with h | ⟨⟨a, ts₁⟩, hok, h⟩
  · refine (hfirst h).first fill (fun hfollow => (hfill hfollow).1) ?_ ?_
    · rintro x r - ⟨a, m, hA, -⟩
      exact ⟨m, a, hA⟩
    · rintro x follow hfollow - ⟨a, hA⟩
      exact ⟨a, _, hA, (hfill hfollow).2 a⟩
  · obtain ⟨htakes, hlt, hfails⟩ := hsecond hok h
    refine hfails.after htakes (fun {v x} hv _ => ?_) hunique
    refine hhead ?_
    rw [hv]
    exact head?_append_of_ne_nil (Takes.ne_nil hv hlt) _ _

/-- A phrase that goes wrong behind its first token. -/
theorem Fails.cons {A : List Token → List Token → Prop} (t : Token)
    (h : Fails stop E A C ts halt) (hends : ∀ {x}, F (t :: ts) (t :: x))
    (hdead : ∀ {x r}, P (t :: x) r → A x r) (hrepair : ∀ {x r}, A x r → P (t :: x) r) :
    Fails stop F P C (t :: ts) halt := by
  obtain ⟨wanted, taken, rest, rfl, hsplit, hdead', more, hrepair'⟩ := h
  refine ⟨wanted, t :: taken, rest, rfl, ?_, ?_, more, fun follow hfollow => ?_⟩
  · rw [hsplit, List.cons_append]
  · rintro u after rfl after'
    exact ⟨hends, fun r hP => (hdead' rfl after').2 r (hdead hP)⟩
  · exact ⟨hends, hrepair (hrepair' follow hfollow).2⟩

/-- A phrase in front of which certain tokens are dropped. -/
theorem Fails.dropWhile {A : List Token → List Token → Prop} {p : Kind → Bool}
    (hend : p .eof = false) (h : Fails stop E A C (ts.dropWhile fun t => p t.kind) halt)
    (hends : ∀ {v x}, ts = v ++ ts.dropWhile (fun t => p t.kind) →
      E (ts.dropWhile fun t => p t.kind) x → F ts (v ++ x))
    (hkind : ∀ {x r}, A x r → p (kindOf x) = false)
    (hdead : ∀ {x r}, (x.dropWhile fun t => p t.kind).head? =
      (ts.dropWhile fun t => p t.kind).head? → P x r → A (x.dropWhile fun t => p t.kind) r)
    (hrepair : ∀ {x r}, A (x.dropWhile fun t => p t.kind) r → P x r) :
    Fails stop F P C ts halt := by
  obtain ⟨wanted, taken, rest, rfl, hsplit, hdead', more, hrepair'⟩ := h
  have hfront := (List.takeWhile_append_dropWhile (p := fun t : Token => p t.kind) (l := ts)).symm
  refine ⟨wanted, ts.takeWhile (fun t => p t.kind) ++ taken, rest, rfl, ?_, ?_, more, ?_⟩
  · rw [List.append_assoc, ← hsplit, List.takeWhile_append_dropWhile]
  · rintro t after rfl after'
    obtain ⟨hE, hnone⟩ := hdead' rfl after'
    have hsame : (taken ++ t :: after').head? = (ts.dropWhile fun t => p t.kind).head? := by
      rw [hsplit, head?_append_cons]
    have hkept : p (kindOf (taken ++ t :: after')) = false := by
      rw [kindOf_eq_of_head? hsame]
      exact kindOf_dropWhile hend ts
    rw [List.append_assoc]
    refine ⟨hends hfront hE, fun r hP => ?_⟩
    have hA := hdead (by rw [dropWhile_takeWhile_append hkept]; exact hsame) hP
    rw [dropWhile_takeWhile_append hkept] at hA
    exact hnone r hA
  · intro follow hfollow
    obtain ⟨hE, hA⟩ := hrepair' follow hfollow
    rw [List.append_assoc]
    refine ⟨hends hfront hE, hrepair ?_⟩
    rwa [dropWhile_takeWhile_append (hkind hA)]

theorem Fails.skipNewlines {A : List Token → List Token → Prop}
    (h : Fails stop E A C (skipNewlines ts) halt)
    (hends : ∀ {v x}, ts = v ++ Parse.skipNewlines ts → E (Parse.skipNewlines ts) x → F ts (v ++ x))
    (hkind : ∀ {x r}, A x r → kindOf x ≠ .newline)
    (hdead : ∀ {x r}, (Parse.skipNewlines x).head? = (Parse.skipNewlines ts).head? → P x r →
      A (Parse.skipNewlines x) r)
    (hrepair : ∀ {x r}, A (Parse.skipNewlines x) r → P x r) : Fails stop F P C ts halt :=
  Fails.dropWhile (p := fun k => k == .newline) rfl h hends (fun hA => by simpa using hkind hA)
    hdead hrepair

/-- Newlines in front of a phrase that cannot be told from others before it. -/
theorem Fails.newlines {A : List Token → List Token → Prop}
    (h : Fails stop E A C (Parse.skipNewlines ts) halt)
    (hends : ∀ v {r r'}, E r r' → E (v ++ r) (v ++ r'))
    (hkind : ∀ {x r}, A x r → kindOf x ≠ .newline) :
    Fails stop E (fun x r => A (Parse.skipNewlines x) r) C ts halt :=
  h.skipNewlines (fun {v _} hv hE => hv ▸ hends v hE) hkind (fun _ hA => hA) fun hA => hA

/-- A phrase that goes wrong behind a token that newlines may stand in front of. -/
theorem Fails.visible {A : List Token → List Token → Prop} {t : Token}
    (hskip : Parse.skipNewlines ts = t :: ts₁) (ht : t.kind ≠ .newline)
    (h : Fails stop E A C ts₁ halt)
    (hdead : ∀ {x m r}, Parse.skipNewlines x = t :: m → P x r → A m r)
    (hrepair : ∀ {x m r}, Parse.skipNewlines x = t :: m → A m r → P x r) :
    Fails stop StopsStatement P C ts halt := by
  have htoken : Fails stop StopsStatement (fun x r => ∃ m, x = t :: m ∧ A m r) C
      (Parse.skipNewlines ts) halt := by
    rw [hskip]
    refine h.cons t (.of_cons ht _ _) ?_ fun hA => ⟨_, rfl, hA⟩
    rintro x r ⟨m, heq, hA⟩
    cases heq
    exact hA
  refine htoken.skipNewlines (fun {v _} hv hE => hv ▸ hE.append v) ?_ ?_ ?_
  · rintro x r ⟨m, rfl, -⟩
    exact ht
  · intro x r hhead hP
    rw [hskip] at hhead
    obtain ⟨m, hm⟩ := List.head?_eq_some_iff.1 hhead
    exact ⟨m, hm, hdead hm hP⟩
  · rintro x r ⟨m, hm, hA⟩
    exact hrepair hm hA

end Fails

/-! ## Expressions -/

/-- Nothing stands before the tokens that they would have to look the same to. -/
def Unseen (_ _ : List Token) : Prop :=
  True

/-- The tokens begin with the same token or with a name. -/
def Begins (r r' : List Token) : Prop :=
  r'.head? = r.head? ∨ kindOf r' = .identifier

theorem Begins.append {r r' : List Token} (h : Begins r r') :
    (v : List Token) → Begins (v ++ r) (v ++ r')
  | [] => h
  | _ :: _ => .inl rfl

/-- Every expression ends in front of the tokens. -/
def Closed (ts : List Token) : Prop :=
  kindOf ts ∈ closings

theorem Closed.stops {ts : List Token} (h : Closed ts) : StopsLine [] ts :=
  .of_closing h

theorem ne_newline_of_beginning {k : Kind} (h : k ∈ beginnings) : k ≠ .newline := by
  have hnot : k ∉ [Kind.newline] := notMem_of_apart h
  simpa using hnot

theorem Begins.startsArgument {r r' : List Token} (h : Begins r r')
    (hr : startsArgument r = true) : startsArgument r' = true := by
  refine startsArgument_iff.2 ?_
  rcases h with h | h
  · rw [kindOf_eq_of_head? h]
    exact startsArgument_iff.1 hr
  · rw [h]
    decide

/-- What begins an argument ends a path as any other argument does. -/
theorem Begins.stops {r r' : List Token} (h : Begins r r') (hr : Parse.startsArgument r = true) :
    Stops r r' := by
  have hkind := startsArgument_iff.1 (h.startsArgument hr)
  have hother : ∀ k, k ∉ argumentStarts → kindOf r' ≠ k :=
    fun k hk heq => hk (heq ▸ hkind)
  have hapart : ∀ k ∈ [Kind.dot, .leftParen, .comma, .assign, .newline],
      k ∉ argumentStarts := by decide
  refine ⟨fun k hk _ => hother k (hapart k hk), fun hfalse => ?_, fun ops _ => ?_⟩
  · rw [hr] at hfalse
    cases hfalse
  · exact afterOperator?_eq_none_of_kindOf (hother _ (by decide))

theorem Suffixes.of_closed {head : Expr} {ts : List Token} (h : Closed ts) :
    Suffixes head ts head ts := by
  refine .nil (h.stops.kind .dot (by decide) (by decide)) fun hparen => ?_
  exact h.stops.kind .leftParen (by decide) (by decide) hparen.1

/-! The parts behind the first one of a phrase with alternatives. -/

/-- More arguments of a command, if there are any. -/
inductive MoreArguments : List Token → List Token → Prop
  | none {ts} : startsArgument ts = false → MoreArguments ts ts
  | some {ts args rest} :
      startsArgument ts = true → CommandArguments ts args rest → MoreArguments ts rest

/-- The arguments of a command behind a path, if the path may be one. -/
inductive CommandTail (commands : Bool) (callee : Expr) : List Token → List Token → Prop
  | none {ts} :
      ¬(commands = true ∧ callee.isCallablePath = true) → CommandTail commands callee ts ts
  | some {ts rest} :
      commands = true → callee.isCallablePath = true → MoreArguments ts rest →
      CommandTail commands callee ts rest

theorem CommandTail.of_closed {commands : Bool} {callee : Expr} {ts : List Token} (h : Closed ts) :
    CommandTail commands callee ts ts := by
  by_cases hpath : commands = true ∧ callee.isCallablePath = true
  · exact .some hpath.1 hpath.2 (.none (h.stops.argument rfl))
  · exact .none hpath

/-- The end of a list of arguments, or a comma and more of them. -/
inductive ArgumentTail : List Token → List Token → Prop
  | last {ts t rest} : skipNewlines ts = t :: rest → t.kind = .rightParen → ArgumentTail ts rest
  | cons {ts t ts₁ more rest} :
      skipNewlines ts = t :: ts₁ → t.kind = .comma → ArgumentList (skipNewlines ts₁) more rest →
      ArgumentTail ts rest

theorem call_iff {commands : Bool} {ts rest : List Token} :
    (∃ p : Expr × Bool, Call commands ts p.1 p.2 rest) ↔
      ∃ head m, Primary ts head m ∧
        ∃ callee m', Suffixes head m callee m' ∧ CommandTail commands callee m' rest := by
  constructor
  · rintro ⟨⟨e, c⟩, hcall⟩
    cases hcall with
    | plain hhead hsuffixes hno =>
        refine ⟨_, _, hhead, _, _, hsuffixes, ?_⟩
        by_cases hpath : commands = true ∧ e.isCallablePath = true
        · refine .some hpath.1 hpath.2 (.none (Bool.eq_false_iff.2 fun hstarts => ?_))
          exact hno ⟨hpath.1, hpath.2, hstarts⟩
        · exact .none hpath
    | command hhead hsuffixes hpath hstarts hargs =>
        exact ⟨_, _, hhead, _, _, hsuffixes, .some rfl hpath (.some hstarts hargs)⟩
  · rintro ⟨head, m, hhead, callee, m', hsuffixes, htail⟩
    cases htail with
    | none hpath => exact ⟨(_, _), .plain hhead hsuffixes fun h => hpath ⟨h.1, h.2.1⟩⟩
    | some hcommands hpath hmore =>
        cases hmore with
        | none hstops =>
            refine ⟨(_, _), .plain hhead hsuffixes fun h => ?_⟩
            rw [hstops] at h
            cases h.2.2
        | some hstarts hargs =>
            subst hcommands
            exact ⟨(_, _), .command hhead hsuffixes hpath hstarts hargs⟩

theorem commandArguments_iff {ts rest : List Token} :
    (∃ args, CommandArguments ts args rest) ↔
      ∃ (p : Expr × Bool) (m : List Token), Binary levels false ts p.1 p.2 m ∧
        MoreArguments (skipComma m) rest := by
  constructor
  · rintro ⟨args, hargs⟩
    cases hargs with
    | last harg hstops => exact ⟨(_, _), _, harg, .none hstops⟩
    | cons harg hstarts hmore => exact ⟨(_, _), _, harg, .some hstarts hmore⟩
  · rintro ⟨p, m, harg, hmore⟩
    generalize hm : skipComma m = m' at hmore
    cases hmore with
    | none hstops => exact hm ▸ ⟨_, .last harg (hm ▸ hstops)⟩
    | some hstarts hargs => exact ⟨_, .cons harg (hm ▸ hstarts) (hm ▸ hargs)⟩

theorem argumentList_iff {ts rest : List Token} :
    (∃ args, ArgumentList ts args rest) ↔ ∃ arg m, Expression ts arg m ∧ ArgumentTail m rest := by
  constructor
  · rintro ⟨args, hargs⟩
    cases hargs with
    | last harg hskip hclose => exact ⟨_, _, harg, .last hskip hclose⟩
    | cons harg hskip hcomma hmore => exact ⟨_, _, harg, .cons hskip hcomma hmore⟩
  · rintro ⟨arg, m, harg, htail⟩
    cases htail with
    | last hskip hclose => exact ⟨_, .last harg hskip hclose⟩
    | cons hskip hcomma hmore => exact ⟨_, .cons harg hskip hcomma hmore⟩

/-- A token of a kind that can stand for anything of this kind. -/
def sample (k : Kind) : Token :=
  ⟨k, "", .start⟩

theorem closed_rightParen (ts : List Token) : Closed (sample .rightParen :: ts) := by
  have hmem : Kind.rightParen ∈ closings := by decide
  exact hmem

end Grammar

namespace Parse

open Grammar

variable {stop : Token} {halt : Halt} {ts : List Token}

/-- A stage and the stages behind it. -/
theorem stages_fail {β : Type} {n : Nat} {next : (Expr × Bool) × List Token → Except Halt β}
    (h : (binary stop n levels true ts >>= next) = .error halt)
    (hfirst : binary stop n levels true ts = .error halt → Fails stop Begins
      (fun x r => ∃ p : Expr × Bool, Binary levels true x p.1 p.2 r) Closed ts halt)
    (hsecond : ∀ {p ts₁}, ts₁.length < ts.length → next (p, ts₁) = .error halt →
      Fails stop Stops (fun x r => ∃ stages, PipelineTail x stages r) Closed ts₁ halt) :
    Fails stop Begins (fun x r => ∃ (p : Expr × Bool) (m : List Token),
      Binary levels true x p.1 p.2 m ∧ ∃ stages, PipelineTail m stages r) Closed ts halt := by
  refine Fails.sequence (E := Stops) h [] hfirst ?_ .inl Binary.unique ?_
  · intro p ts₁ hok hnext
    have hbinary := binary_sound hok
    exact ⟨hbinary.takes, hbinary.length_lt, hsecond hbinary.length_lt hnext⟩
  · intro follow hfollow
    have hpipe := hfollow.stops.visible .pipe (by decide) (by decide)
    exact ⟨hfollow, fun _ => ⟨[], .nil (afterPipe?_eq_none.2 hpipe)⟩⟩

/-- An operand and the operators of one level behind it. -/
theorem chain_fails {β : Type} {n : Nat} {tighter : List (List BinOp)}
    {commands : Bool} {next : (Expr × Bool) × List Token → Except Halt β} (ops : List BinOp)
    (g : Expr × Bool → Expr × Bool)
    (h : (binary stop n tighter commands ts >>= next) = .error halt)
    (hfirst : binary stop n tighter commands ts = .error halt → Fails stop Begins
      (fun x r => ∃ p : Expr × Bool, Binary tighter commands x p.1 p.2 r) Closed ts halt)
    (hsecond : ∀ {p ts₁}, ts₁.length < ts.length → next (p, ts₁) = .error halt →
      Fails stop Stops (fun x r => ∃ e d, BinaryTail ops tighter commands (g p).1 (g p).2 x e d r)
        Closed ts₁ halt) :
    Fails stop Begins (fun x r => ∃ (p : Expr × Bool) (m : List Token),
      Binary tighter commands x p.1 p.2 m ∧
        ∃ e d, BinaryTail ops tighter commands (g p).1 (g p).2 m e d r) Closed ts halt := by
  refine Fails.sequence (E := Stops) h [] hfirst ?_ .inl Binary.unique ?_
  · intro p ts₁ hok hnext
    have hbinary := binary_sound hok
    exact ⟨hbinary.takes, hbinary.length_lt, hsecond hbinary.length_lt hnext⟩
  · intro follow hfollow
    exact ⟨hfollow, fun p => ⟨_, _, .nil (hfollow.stops.operator ops rfl)⟩⟩

theorem expect_fails {kind : Kind} {wanted : Wanted} {E : List Token → List Token → Prop}
    {C : List Token → Prop} (h : expect stop kind wanted ts = .error halt)
    (hends : ∀ {t after after'}, ts = t :: after → E ts (t :: after'))
    (hfill : ∀ {follow}, C follow → E ts (sample kind :: follow)) :
    Fails stop E (fun x r => ∃ u, x = u :: r ∧ u.kind = kind) C ts halt := by
  have hhere : ∀ {x r}, x.head? = ts.head? → ¬∃ u, x = u :: r ∧ u.kind = kind := by
    rintro x r hhead ⟨u, rfl, hu⟩
    obtain ⟨after, rfl⟩ := List.head?_eq_some_iff.1 hhead.symm
    rw [expect_eq_ok.2 ⟨rfl, hu⟩] at h
    cases h
  have hmismatch : halt = .mismatch ⟨wanted, ts.headD stop⟩ := by
    cases ts with
    | nil => cases h; rfl
    | cons t ts =>
        simp only [expect] at h
        split at h
        · cases h
        · cases h
          rfl
  rw [hmismatch]
  exact .here [sample kind] hhere hends fun follow hfollow => ⟨hfill hfollow, _, rfl, rfl⟩

/-- A token and what is behind it. -/
theorem token_fails {β : Type} {kind : Kind} {wanted : Wanted}
    {F : List Token → List Token → Prop} {B : Token → List Token → List Token → Prop}
    {C : List Token → Prop} {next : Token × List Token → Except Halt β}
    (h : (expect stop kind wanted ts >>= next) = .error halt) (fill : List Token)
    (hhead : ∀ {x}, x.head? = ts.head? → F ts x) (hsample : ∀ x, F ts (sample kind :: x))
    (hnext : ∀ {u ts₁}, ts₁.length < ts.length → next (u, ts₁) = .error halt →
      Fails stop Unseen (B u) C ts₁ halt)
    (hfill : ∀ {follow}, C follow → ∀ u, B u (fill ++ follow) follow)
    (hkind : kind ≠ .eof ∧ kind ≠ .comment := by decide) :
    Fails stop F (fun x r => ∃ u m, (x = u :: m ∧ u.kind = kind) ∧ B u m r) C ts halt := by
  refine Fails.sequence (E := Unseen) (D := fun _ => True) h fill (fun herror => ?_)
    (fun {u ts₁} hok herror => ?_) hhead token_unique fun hfollow => ⟨trivial, hfill hfollow⟩
  · exact expect_fails herror (fun hts => hhead (by rw [hts]; rfl)) fun _ => hsample _
  · obtain ⟨rfl, hu⟩ := expect_eq_ok.1 hok
    have hlt := Nat.lt_succ_self ts₁.length
    exact ⟨.token hu (fun r => ⟨rfl, hu⟩) hkind, hlt, hnext hlt herror⟩

/-- A parenthesis to close, behind newlines. -/
theorem close_fails {wanted : Wanted}
    (h : expect stop .rightParen wanted (skipNewlines ts) = .error halt) :
    Fails stop StopsLine (fun x r => ∃ u, x = u :: r ∧ u.kind = .rightParen) Closed
      (skipNewlines ts) halt := by
  refine expect_fails h (fun {t after after'} hskip => ?_) fun {follow} _ =>
    .of_closing (closed_rightParen follow)
  have ht : t.kind ≠ .newline := by
    have hkind := kindOf_skipNewlines_ne ts
    rwa [hskip] at hkind
  rw [hskip]
  exact (StopsStatement.of_cons ht after after').toStopsLine

theorem unary_fails_of_call {commands : Bool}
    (h : Fails stop Begins (fun x r => ∃ p : Expr × Bool, Call commands x p.1 p.2 r) Closed ts halt)
    (hfirst : ∀ t ∈ ts.head?, ¬(t.kind = .operator ∧ t.text = "-")) :
    Fails stop Begins (fun x r => ∃ p : Expr × Bool, Unary commands x p.1 p.2 r) Closed ts
      halt := by
  refine h.narrow ?_ ?_
  · rintro x r hhead ⟨⟨e, c⟩, hunary⟩
    cases hunary with
    | @minus _ t _ _ _ _ hkind htext _ =>
        exact absurd ⟨hkind, htext⟩ (hfirst t (by rw [← hhead]; rfl))
    | call _ hcall => exact ⟨_, hcall⟩
  · rintro x r hbegins ⟨p, hcall⟩
    refine ⟨p, .call (fun t ht hminus => ?_) hcall⟩
    rcases hbegins with hhead | hname
    · exact hfirst t (hhead ▸ ht) hminus
    · obtain ⟨m, rfl⟩ := List.head?_eq_some_iff.1 ht
      rw [kindOf_cons, hminus.1] at hname
      cases hname

/-- An expression in parentheses. -/
theorem paren_fails {n : Nat} {t : Token} (ht : t.kind = .leftParen)
    (h : (expression stop n (skipNewlines ts) >>= fun p =>
      expect stop .rightParen .parenEnd (skipNewlines p.2) >>= fun q =>
        Except.ok (p.1, q.2)) = .error halt)
    (hfirst : expression stop n (skipNewlines ts) = .error halt → Fails stop Begins
      (fun x r => ∃ e, Expression x e r) Closed (skipNewlines ts) halt) :
    Fails stop Begins (fun x r => ∃ e, Primary x e r) Closed (t :: ts) halt := by
  have hinner : Fails stop Begins (fun x r => ∃ e m, Expression x e m ∧
      ∃ u, skipNewlines m = u :: r ∧ u.kind = .rightParen) Closed (skipNewlines ts) halt := by
    refine Fails.sequence (E := StopsLine) h [sample .rightParen] hfirst
      (fun {e ts₁} hok hnext => ?_) .inl Expression.unique
      (fun {follow} _ => ⟨closed_rightParen follow, fun _ =>
        ⟨_, skipNewlines_cons_of_ne (t := sample .rightParen) nofun follow, rfl⟩⟩)
    have hexpression := expression_sound hok
    refine ⟨hexpression.takes, hexpression.length_lt, ?_⟩
    rcases bind_eq_error.1 hnext with hnext | ⟨_, _, hnext⟩
    · refine (close_fails hnext).newlines (fun v {_ _} hE => hE.append v) ?_
      rintro x r ⟨u, rfl, hu⟩
      rw [kindOf_cons, hu]
      nofun
    · cases hnext
  have hbehind := hinner.newlines (fun v {_ _} hE => hE.append v)
    fun ⟨_, _, hexpression, _⟩ => ne_newline_of_beginning hexpression.kindOf_mem
  refine hbehind.cons t (.inl rfl) ?_ ?_
  · rintro x r ⟨e, hprimary⟩
    cases hprimary with
    | paren _ hexpression hskip hclose => exact ⟨_, _, hexpression, _, hskip, hclose⟩
    | _ => simp_all
  · rintro x r ⟨e, m, hexpression, u, hskip, hclose⟩
    exact ⟨e, .paren ht hexpression hskip hclose⟩

/-- A name fits wherever a primary expression does. -/
theorem primary_fails_here {wanted : Wanted}
    (hdead : ∀ {x r}, x.head? = ts.head? → ¬∃ e, Primary x e r) :
    Fails stop Begins (fun x r => ∃ e, Primary x e r) Closed ts
      (.mismatch ⟨wanted, ts.headD stop⟩) := by
  refine .here [sample .identifier] hdead (fun hts => .inl (by rw [hts]; rfl)) fun follow _ => ?_
  exact ⟨.inr rfl, _, .identifier (t := sample .identifier) rfl⟩

theorem moreArguments_fails
    (h : Fails stop Begins (fun x r => ∃ args, CommandArguments x args r) Closed ts halt)
    (hstarts : startsArgument ts = true) : Fails stop Begins MoreArguments Closed ts halt := by
  refine h.narrow ?_ ?_
  · intro x r hhead hmore
    cases hmore with
    | none hstops =>
        have hbegins : Begins ts x := .inl hhead
        rw [hbegins.startsArgument hstarts] at hstops
        cases hstops
    | some _ hargs => exact ⟨_, hargs⟩
  · rintro x r hbegins ⟨args, hargs⟩
    exact .some (hbegins.startsArgument hstarts) hargs

/-- The name of a member and the suffixes behind it. -/
theorem member_fails {t : Token} {head : Expr}
    {next : Token × List Token → Except Halt (Expr × List Token)} (ht : t.kind = .dot)
    (h : (expect stop .identifier .propertyName ts >>= next) = .error halt)
    (hnext : ∀ {u ts₁}, ts₁.length < ts.length → next (u, ts₁) = .error halt → Fails stop Stops
      (fun x r => ∃ e, Suffixes (.member head (.identifier u.text)) x e r) Closed ts₁ halt) :
    Fails stop Stops (fun x r => ∃ e, Suffixes head x e r) Closed (t :: ts) halt := by
  have hname := token_fails (F := Unseen) (C := Closed)
    (B := fun u x r => ∃ e, Suffixes (.member head (.identifier u.text)) x e r) h []
    (fun _ => trivial) (fun _ => trivial)
    (fun hlt herror => (hnext hlt herror).weaken fun _ => trivial)
    (fun hfollow _ => ⟨_, .of_closed hfollow⟩)
  refine hname.cons t (.of_head rfl) ?_ ?_
  · rintro x r ⟨e, hsuffixes⟩
    cases hsuffixes with
    | nil hno _ => exact absurd ht hno
    | member _ hu hmore => exact ⟨_, _, ⟨rfl, hu⟩, _, hmore⟩
    | call hparen _ _ _ => cases ht.symm.trans hparen
  · rintro x r ⟨u, m, ⟨rfl, hu⟩, e, hmore⟩
    exact ⟨e, .member ht hu hmore⟩

/-- Arguments in parentheses and the suffixes behind them. -/
theorem callSuffix_fails {n : Nat} {t : Token} {head : Expr}
    {next : List Expr × List Token → Except Halt (Expr × List Token)} (ht : t.kind = .leftParen)
    (hpath : head.isCallablePath = true) (h : (arguments stop n ts >>= next) = .error halt)
    (hfirst : arguments stop n ts = .error halt →
      Fails stop Unseen (fun x r => ∃ args, Arguments x args r) Closed ts halt)
    (hnext : ∀ {args ts₁}, ts₁.length < ts.length → next (args, ts₁) = .error halt →
      Fails stop Stops (fun x r => ∃ e, Suffixes (.call head args) x e r) Closed ts₁ halt) :
    Fails stop Stops (fun x r => ∃ e, Suffixes head x e r) Closed (t :: ts) halt := by
  have hargs : Fails stop Unseen (fun x r => ∃ args m, Arguments x args m ∧
      ∃ e, Suffixes (.call head args) m e r) Closed ts halt := by
    refine Fails.sequence (E := Stops) h [] hfirst (fun {args ts₁} hok herror => ?_)
      (fun _ => trivial) Arguments.unique
      fun hfollow => ⟨hfollow, fun _ => ⟨_, .of_closed hfollow⟩⟩
    have harguments := arguments_sound hok
    have hlt := harguments.length_lt
    exact ⟨harguments.takes, hlt, hnext hlt herror⟩
  refine hargs.cons t (.of_head rfl) ?_ ?_
  · rintro x r ⟨e, hsuffixes⟩
    cases hsuffixes with
    | nil _ hno => exact absurd ⟨ht, hpath⟩ hno
    | member hdot _ _ => cases ht.symm.trans hdot
    | call _ _ harguments hmore => exact ⟨_, _, harguments, _, hmore⟩
  · rintro x r ⟨args, m, harguments, e, hmore⟩
    exact ⟨e, .call ht hpath harguments hmore⟩

/-- The arguments of a command behind a path. -/
theorem commandTail_fails {commands : Bool} {callee : Expr}
    (hpath : commands = true ∧ callee.isCallablePath = true) (hstarts : startsArgument ts = true)
    (h : Fails stop Begins (fun x r => ∃ args, CommandArguments x args r) Closed ts halt) :
    Fails stop Stops (CommandTail commands callee) Closed ts halt := by
  have hmore := (moreArguments_fails h hstarts).weaken (·.stops hstarts)
  refine hmore.narrow ?_ fun _ hmore => .some hpath.1 hpath.2 hmore
  intro x r _ htail
  cases htail with
  | none hno => exact absurd hpath hno
  | some _ _ hmore => exact hmore

/-- A comma and more arguments. -/
theorem argumentTail_fails_of_comma {t : Token} {ts₁ : List Token}
    (hskip : skipNewlines ts = t :: ts₁) (ht : t.kind = .comma)
    (h : Fails stop Begins (fun x r => ∃ args, ArgumentList x args r) Closed (skipNewlines ts₁)
      halt) : Fails stop StopsLine ArgumentTail Closed ts halt := by
  have hmore := h.newlines (fun v {_ _} hE => hE.append v)
    fun ⟨_, hargs⟩ => ne_newline_of_beginning hargs.kindOf_mem
  refine (Fails.visible hskip (by rw [ht]; nofun) hmore ?_ ?_).weaken (·.toStopsLine)
  · intro x m r hm htail
    cases htail with
    | last hskip' hclose =>
        cases hm.symm.trans hskip'
        cases ht.symm.trans hclose
    | cons hskip' _ hargs =>
        cases hm.symm.trans hskip'
        exact ⟨_, hargs⟩
  · rintro x m r hm ⟨args, hargs⟩
    exact .cons hm ht hargs

/-- The end of the arguments. -/
theorem argumentTail_fails_of_close {wanted : Wanted} (hcomma : kindOf (skipNewlines ts) ≠ .comma)
    (h : expect stop .rightParen wanted (skipNewlines ts) = .error halt) :
    Fails stop StopsLine ArgumentTail Closed ts halt := by
  refine (close_fails h).skipNewlines (fun {v _} hv hE => hv ▸ hE.append v) ?_ ?_ ?_
  · rintro x r ⟨u, rfl, hu⟩
    rw [kindOf_cons, hu]
    nofun
  · intro x r hhead htail
    cases htail with
    | last hskip hclose => exact ⟨_, hskip, hclose⟩
    | cons hskip hkind _ =>
        rw [← kindOf_eq_of_head? hhead, hskip] at hcomma
        exact absurd hkind hcomma
  · rintro x r ⟨u, hskip, hclose⟩
    exact .last hskip hclose

/-- A comma may stand before more arguments. -/
theorem skipComma_fails (h : Fails stop Begins MoreArguments Closed (skipComma ts) halt)
    (hstarts : startsArgument (skipComma ts) = true) :
    Fails stop Stops (fun x r => MoreArguments (skipComma x) r) Closed ts halt := by
  by_cases hcomma : kindOf ts = .comma
  · obtain ⟨t, ts₁, rfl, ht⟩ := eq_cons_of_kindOf hcomma (by decide)
    rw [skipComma_cons_of_comma ht] at h
    refine h.cons t (.of_head rfl) (fun {x r} hmore => ?_) (fun {x r} hmore => ?_)
    · rwa [skipComma_cons_of_comma ht] at hmore
    · rwa [skipComma_cons_of_comma ht]
  · rw [skipComma_of_kindOf_ne hcomma] at h hstarts
    refine (h.narrow (fun {x r} hhead hmore => ?_) (fun {x r} hbegins hmore => ?_)).weaken
      (·.stops hstarts)
    · rwa [skipComma_of_kindOf_ne (by rwa [kindOf_eq_of_head? hhead])] at hmore
    · have hkind : kindOf x ∉ [Kind.comma] :=
        notMem_of_apart (startsArgument_iff.1 (hbegins.startsArgument hstarts))
      rwa [skipComma_of_kindOf_ne (by simpa using hkind)]

mutual

theorem expression_fails : ∀ {n : Nat} {ts : List Token} {halt : Halt},
    16 * ts.length + 11 ≤ n → expression stop n ts = .error halt →
      Fails stop Begins (fun x r => ∃ e, Expression x e r) Closed ts halt
  | 0, _, _, hn, _ => absurd hn (by omega)
  | n + 1, ts, halt, hn, h => by
      unfold expression at h
      refine (stages_fail h (binary_fails (by simp [levels]; omega)) ?_).narrow ?_ ?_
      · intro p ts₁ hlt hnext
        rcases bind_eq_error.1 hnext with hnext | ⟨_, _, hnext⟩
        · exact pipelineTail_fails (by omega) hnext
        · cases hnext
      · rintro x r - ⟨e, hstages⟩
        cases hstages with
        | stages hhead htail => exact ⟨(_, _), _, hhead, _, htail⟩
      · rintro x r - ⟨p, m, hhead, stages, htail⟩
        exact ⟨_, .stages hhead htail⟩

theorem pipelineTail_fails : ∀ {n : Nat} {ts : List Token} {halt : Halt},
    16 * ts.length + 1 ≤ n → pipelineTail stop n ts = .error halt →
      Fails stop Stops (fun x r => ∃ stages, PipelineTail x stages r) Closed ts halt
  | 0, _, _, hn, _ => absurd hn (by omega)
  | n + 1, ts, halt, hn, h => by
      unfold pipelineTail at h
      split at h
      · cases h
      · rename_i ts₁ hpipe
        have hlt := length_lt_of_afterPipe hpipe
        obtain ⟨t, after, hskip, ht, rfl⟩ := afterPipe?_eq_some.1 hpipe
        have hstages := stages_fail h (binary_fails (by simp [levels]; omega)) fun hlt' hnext => by
          rcases bind_eq_error.1 hnext with hnext | ⟨_, _, hnext⟩
          · exact pipelineTail_fails (by omega) hnext
          · cases hnext
        have hbehind := hstages.newlines (fun v {_ _} hE => hE.append v) fun ⟨_, _, hhead, _⟩ =>
          ne_newline_of_beginning hhead.kindOf_mem
        have hpipe : ∀ {x m}, skipNewlines x = t :: m → afterPipe? x = some (skipNewlines m) :=
          fun hm => afterPipe?_eq_some.2 ⟨t, _, hm, ht, rfl⟩
        refine (Fails.visible hskip (by rw [ht]; nofun) hbehind ?_ ?_).weaken (·.toStops)
        · rintro x m r hm ⟨stages, htail⟩
          cases htail with
          | nil hnone =>
              rw [hpipe hm] at hnone
              cases hnone
          | cons hsome hhead htail =>
              obtain rfl := Option.some.inj ((hpipe hm).symm.trans hsome)
              exact ⟨(_, _), _, hhead, _, htail⟩
        · rintro x m r hm ⟨p, m', hhead, stages, htail⟩
          exact ⟨_, .cons (hpipe hm) hhead htail⟩

theorem binary_fails : ∀ {n : Nat} {ops : List (List BinOp)} {commands : Bool} {ts : List Token}
    {halt : Halt}, 16 * ts.length + ops.length + 4 ≤ n →
      binary stop n ops commands ts = .error halt →
        Fails stop Begins (fun x r => ∃ p : Expr × Bool, Binary ops commands x p.1 p.2 r) Closed ts
          halt
  | 0, _, _, _, _, hn, _ => absurd hn (by omega)
  | n + 1, [], commands, ts, halt, hn, h => by
      unfold binary at h
      refine (unary_fails (by simpa using hn) h).narrow ?_ ?_
      · rintro x r - ⟨p, hoperand⟩
        cases hoperand with
        | operand hoperand => exact ⟨p, hoperand⟩
      · rintro x r - ⟨p, hoperand⟩
        exact ⟨p, .operand hoperand⟩
  | n + 1, ops :: tighter, commands, ts, halt, hn, h => by
      unfold binary at h
      refine (chain_fails ops (fun p => p) h (binary_fails (by simp at hn; omega)) ?_).narrow ?_ ?_
      · intro p ts₁ hlt hnext
        exact binaryTail_fails (by simp at hn; omega) hnext
      · rintro x r - ⟨⟨e, d⟩, hlevel⟩
        cases hlevel with
        | level hleft htail => exact ⟨(_, _), _, hleft, _, _, htail⟩
      · rintro x r - ⟨p, m, hleft, e, d, htail⟩
        exact ⟨(e, d), .level hleft htail⟩

theorem binaryTail_fails : ∀ {n : Nat} {ops : List BinOp} {tighter : List (List BinOp)}
    {commands c : Bool} {left : Expr} {ts : List Token} {halt : Halt},
    16 * ts.length + tighter.length + 1 ≤ n →
    binaryTail stop n ops tighter commands left c ts = .error halt →
      Fails stop Stops (fun x r => ∃ e d, BinaryTail ops tighter commands left c x e d r) Closed ts
        halt
  | 0, _, _, _, _, _, _, _, hn, _ => absurd hn (by omega)
  | n + 1, ops, tighter, commands, c, left, ts, halt, hn, h => by
      unfold binaryTail at h
      split at h
      · cases h
      · rename_i op ts₁ hop
        have hlt := length_lt_of_afterOperator hop
        obtain ⟨t, after, rfl, ht, hsymbol, hmem, rfl⟩ := afterOperator?_eq_some.1 hop
        have hop : ∀ x, afterOperator? ops (t :: x) = some (op, skipNewlines x) := fun x =>
          afterOperator?_eq_some.2 ⟨t, x, rfl, ht, hsymbol, hmem, rfl⟩
        have hchain := chain_fails ops (fun p => (.binary left op p.1, false)) h
          (binary_fails (by omega)) fun hlt' hnext => binaryTail_fails (by omega) hnext
        have hbehind := hchain.newlines (fun v {_ _} hE => hE.append v) fun ⟨_, _, hright, _⟩ =>
          ne_newline_of_beginning hright.kindOf_mem
        refine hbehind.cons t (.of_head rfl) ?_ ?_
        · rintro x r ⟨e, d, htail⟩
          cases htail with
          | nil hnone =>
              rw [hop] at hnone
              cases hnone
          | cons hsome hright htail =>
              cases (hop x).symm.trans hsome
              exact ⟨(_, _), _, hright, _, _, htail⟩
        · rintro x r ⟨p, m, hright, e, d, htail⟩
          exact ⟨e, d, .cons (hop x) hright htail⟩

theorem unary_fails : ∀ {n : Nat} {commands : Bool} {ts : List Token} {halt : Halt},
    16 * ts.length + 3 ≤ n → unary stop n commands ts = .error halt →
      Fails stop Begins (fun x r => ∃ p : Expr × Bool, Unary commands x p.1 p.2 r) Closed ts halt
  | 0, _, _, _, hn, _ => absurd hn (by omega)
  | n + 1, commands, [], halt, hn, h => unary_fails_of_call (call_fails (by omega) h) nofun
  | n + 1, commands, t :: ts, halt, hn, h => by
      simp only [unary] at h
      rw [List.length_cons] at hn
      split at h
      · rename_i hminus
        have hminus : t.kind = .operator ∧ t.text = "-" := by simpa using hminus
        rcases bind_eq_error.1 h with h | ⟨_, _, h⟩
        · refine (unary_fails (by omega) h).cons t (.inl rfl) ?_ ?_
          · rintro x r ⟨⟨e, c⟩, hunary⟩
            cases hunary with
            | minus _ _ hoperand => exact ⟨(_, _), hoperand⟩
            | call hfirst _ => exact absurd hminus (hfirst t rfl)
          · rintro x r ⟨p, hoperand⟩
            exact ⟨(_, _), .minus hminus.1 hminus.2 hoperand⟩
        · cases h
      · rename_i hminus
        refine unary_fails_of_call (call_fails (by rw [List.length_cons]; omega) h) ?_
        intro u hu
        cases hu
        simpa using hminus

theorem call_fails : ∀ {n : Nat} {commands : Bool} {ts : List Token} {halt : Halt},
    16 * ts.length + 2 ≤ n → call stop n commands ts = .error halt →
      Fails stop Begins (fun x r => ∃ p : Expr × Bool, Call commands x p.1 p.2 r) Closed ts halt
  | 0, _, _, _, hn, _ => absurd hn (by omega)
  | n + 1, commands, ts, halt, hn, h => by
      unfold call at h
      refine (Fails.sequence (E := Stops) h [] (primary_fails (by omega)) ?_ .inl Primary.unique
        ?_).narrow (fun _ => call_iff.1) (fun _ => call_iff.2)
      · intro head ts₁ hok hnext
        have hprimary := primary_sound hok
        have hlt := hprimary.length_lt
        refine ⟨hprimary.takes, hlt, ?_⟩
        rcases bind_eq_error.1 hnext with hnext | ⟨⟨callee, ts₂⟩, hok', hnext⟩
        · refine (suffixes_fails (by omega) hnext).first [] (fun h => h) ?_ ?_
          · rintro x r - ⟨callee, m, hsuffixes, -⟩
            exact ⟨_, _, hsuffixes⟩
          · rintro x follow hfollow - ⟨callee, hsuffixes⟩
            exact ⟨callee, follow, hsuffixes, .of_closed hfollow⟩
        · have hsuffixes := suffixes_sound hok'
          have hle := hsuffixes.length_le
          simp only at hnext
          split at hnext
          · rename_i hcommand
            have hcommand : (commands = true ∧ callee.isCallablePath = true) ∧
                startsArgument ts₂ = true := by simpa using hcommand
            rcases bind_eq_error.1 hnext with hnext | ⟨_, _, hnext⟩
            · have htail := commandTail_fails hcommand.1 hcommand.2
                (commandArguments_fails (by omega) hnext)
              exact htail.after hsuffixes.takes (fun {v _} hv hE => hv ▸ hE.append v)
                Suffixes.unique
            · cases hnext
          · cases hnext
      · intro follow hfollow
        exact ⟨hfollow, fun head => ⟨head, follow, .of_closed hfollow, .of_closed hfollow⟩⟩

theorem suffixes_fails : ∀ {n : Nat} {head : Expr} {ts : List Token} {halt : Halt},
    16 * ts.length + 1 ≤ n → suffixes stop n head ts = .error halt →
      Fails stop Stops (fun x r => ∃ e, Suffixes head x e r) Closed ts halt
  | 0, _, _, _, hn, _ => absurd hn (by omega)
  | n + 1, head, [], halt, hn, h => nomatch h
  | n + 1, head, t :: ts, halt, hn, h => by
      simp only [suffixes] at h
      rw [List.length_cons] at hn
      split at h
      · rename_i hdot
        refine member_fails (by simpa using hdot) h fun hlt herror => ?_
        exact suffixes_fails (by omega) herror
      · split at h
        · rename_i hparen
          have hparen : t.kind = .leftParen ∧ head.isCallablePath = true := by simpa using hparen
          refine callSuffix_fails hparen.1 hparen.2 h (arguments_fails (by omega))
            fun hlt herror => ?_
          exact suffixes_fails (by omega) herror
        · cases h

theorem commandArguments_fails : ∀ {n : Nat} {ts : List Token} {halt : Halt},
    16 * ts.length + 11 ≤ n → commandArguments stop n ts = .error halt →
      Fails stop Begins (fun x r => ∃ args, CommandArguments x args r) Closed ts halt
  | 0, _, _, hn, _ => absurd hn (by omega)
  | n + 1, ts, halt, hn, h => by
      unfold commandArguments at h
      refine (Fails.sequence (E := Stops) (B := fun _ x r => MoreArguments (skipComma x) r) h []
        (binary_fails (by simp [levels]; omega)) ?_ .inl Binary.unique ?_).narrow
        (fun _ => commandArguments_iff.1) (fun _ => commandArguments_iff.2)
      · intro p ts₁ hok hnext
        have hbinary := binary_sound hok
        have hlt := hbinary.length_lt
        have hle := skipComma_length_le ts₁
        refine ⟨hbinary.takes, hlt, ?_⟩
        simp only at hnext
        split at hnext
        · rename_i hstarts
          rcases bind_eq_error.1 hnext with hnext | ⟨_, _, hnext⟩
          · exact skipComma_fails
              (moreArguments_fails (commandArguments_fails (by omega) hnext) hstarts) hstarts
          · cases hnext
        · cases hnext
      · intro follow hfollow
        refine ⟨hfollow, fun _ => ?_⟩
        have hcomma : kindOf follow ≠ .comma :=
          hfollow.stops.kind .comma (by decide) (by decide)
        rw [List.nil_append, skipComma_of_kindOf_ne hcomma]
        exact .none (hfollow.stops.argument rfl)

theorem arguments_fails : ∀ {n : Nat} {ts : List Token} {halt : Halt},
    16 * ts.length + 13 ≤ n → arguments stop n ts = .error halt →
      Fails stop Unseen (fun x r => ∃ args, Arguments x args r) Closed ts halt
  | 0, _, _, hn, _ => absurd hn (by omega)
  | n + 1, ts, halt, hn, h => by
      have hle := skipNewlines_length_le ts
      have hlist : kindOf (skipNewlines ts) ≠ .rightParen ∧
          argumentList stop n (skipNewlines ts) = .error halt := by
        unfold arguments at h
        split at h
        · rename_i hskip
          rw [hskip]
          exact ⟨nofun, h⟩
        · rename_i t ts₁ hskip
          rw [hskip]
          split at h
          · cases h
          · rename_i hparen
            exact ⟨by simpa using hparen, h⟩
      refine (argumentList_fails (by omega) hlist.2).skipNewlines (fun _ _ => trivial) ?_ ?_ ?_
      · rintro x r ⟨args, hargs⟩
        exact ne_newline_of_beginning hargs.kindOf_mem
      · rintro x r hhead ⟨args, hargs⟩
        cases hargs with
        | none hskip hparen =>
            rw [← kindOf_eq_of_head? hhead, hskip] at hlist
            exact absurd hparen hlist.1
        | some _ hargs => exact ⟨_, hargs⟩
      · rintro x r ⟨args, hargs⟩
        have hparen : kindOf (skipNewlines x) ∉ [Kind.rightParen] :=
          notMem_of_apart hargs.kindOf_mem
        exact ⟨_, .some (by simpa using hparen) hargs⟩

theorem argumentList_fails : ∀ {n : Nat} {ts : List Token} {halt : Halt},
    16 * ts.length + 12 ≤ n → argumentList stop n ts = .error halt →
      Fails stop Begins (fun x r => ∃ args, ArgumentList x args r) Closed ts halt
  | 0, _, _, hn, _ => absurd hn (by omega)
  | n + 1, ts, halt, hn, h => by
      unfold argumentList at h
      refine (Fails.sequence (E := StopsLine) (B := fun _ x r => ArgumentTail x r) h
        [sample .rightParen] (expression_fails (by omega)) ?_ .inl Expression.unique ?_).narrow
        (fun _ => argumentList_iff.1) (fun _ => argumentList_iff.2)
      · intro arg ts₁ hok hnext
        have hexpression := expression_sound hok
        have hlt := hexpression.length_lt
        refine ⟨hexpression.takes, hlt, ?_⟩
        simp only at hnext
        split at hnext
        · rename_i hcomma
          obtain ⟨t, ts₂, hskip, ht⟩ := eq_cons_of_kindOf (beq_iff_eq.1 hcomma) nofun
          have hlt₂ := length_lt_of_skipNewlines hskip
          have hle := skipNewlines_length_le ts₂
          simp only [hskip, List.drop_one, List.tail_cons] at hnext
          rcases bind_eq_error.1 hnext with hnext | ⟨_, _, hnext⟩
          · exact argumentTail_fails_of_comma hskip ht (argumentList_fails (by omega) hnext)
          · cases hnext
        · rename_i hcomma
          rcases bind_eq_error.1 hnext with hnext | ⟨_, _, hnext⟩
          · exact argumentTail_fails_of_close (by simpa using hcomma) hnext
          · cases hnext
      · intro follow _
        exact ⟨closed_rightParen follow, fun _ =>
          .last (skipNewlines_cons_of_ne (t := sample .rightParen) nofun follow) rfl⟩

theorem primary_fails : ∀ {n : Nat} {ts : List Token} {halt : Halt},
    16 * ts.length + 1 ≤ n → primary stop n ts = .error halt →
      Fails stop Begins (fun x r => ∃ e, Primary x e r) Closed ts halt
  | 0, _, _, hn, _ => absurd hn (by omega)
  | n + 1, [], halt, hn, h => by
      cases h
      exact primary_fails_here fun {x r} hhead hprimary => by
        obtain rfl := List.head?_eq_none_iff.1 hhead
        obtain ⟨e, hprimary⟩ := hprimary
        cases hprimary
  | n + 1, t :: ts, halt, hn, h => by
      rw [List.length_cons] at hn
      simp only [primary] at h
      split at h
      · rename_i hkind
        split at h
        · cases h
        · rename_i hnone
          cases h
          refine primary_fails_here ?_
          rintro x r hhead ⟨e, hprimary⟩
          obtain ⟨m, rfl⟩ := List.head?_eq_some_iff.1 hhead
          cases hprimary <;> simp_all
      · cases h
      · cases h
      · cases h
      · rename_i hkind
        have hle := skipNewlines_length_le ts
        exact paren_fails hkind h (expression_fails (by omega))
      · cases h
        refine primary_fails_here ?_
        rintro x r hhead ⟨e, hprimary⟩
        obtain ⟨m, rfl⟩ := List.head?_eq_some_iff.1 hhead
        cases hprimary <;> simp_all

end

end Parse
end Chord
