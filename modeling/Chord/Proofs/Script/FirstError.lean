import Chord.Proofs.Script.Failure

/-!
# Syntax errors are found as early as possible

**Input.** A list of tokens without comments that ends with an end token and cannot be read.

**Results.** The parsers of statements fail as those of expressions do (`statement_fails` and its
companions). So the token that a syntax error names is the first one after which no script can be
completed (`parse_error_earliest`): nothing that begins with the tokens up to it can be read, and
something that begins with the tokens before it can.
-/

namespace Chord
namespace Grammar

open Parse

/-- A block or the script ends here. -/
def EndsBlock (ts : List Token) : Prop :=
  kindOf ts ∈ [Kind.rightBrace, .eof]

theorem EndsBlock.closed {ts : List Token} (h : EndsBlock ts) : Closed ts := by
  have hsubset : ∀ k ∈ [Kind.rightBrace, .eof], k ∈ closings := by decide
  exact hsubset _ h

theorem EndsBlock.ending {ts : List Token} (h : EndsBlock ts) :
    kindOf ts ∈ .rightBrace :: endings := by
  have hsubset : ∀ k ∈ [Kind.rightBrace, .eof], k ∈ .rightBrace :: endings := by decide
  exact hsubset _ h

theorem stopsStatement_of_head? {r r' : List Token} (hr : kindOf r ≠ .newline)
    (h : r'.head? = r.head?) : StopsStatement r r' := by
  cases r with
  | nil =>
      obtain rfl := List.head?_eq_none_iff.1 h
      exact ⟨⟨.of_head rfl, fun _ _ h => h⟩, fun h => h⟩
  | cons t r =>
      obtain ⟨m, rfl⟩ := List.head?_eq_some_iff.1 h
      exact .of_cons hr r m

/-- What newlines and semicolons are followed by shows only as what no statement goes on with. -/
theorem stopsStatement_append {v r r' : List Token} (hv : v ≠ [])
    (h : kindOf r' ∉ [Kind.newline, .pipe, .elseWord]) : StopsStatement (v ++ r) (v ++ r') := by
  have hskip : skipNewlines r' = r' := skipNewlines_of_kindOf_ne fun hk => h (by simp [hk])
  have hvisible : ∀ k ∈ [Kind.pipe, .elseWord], kindOf (skipNewlines r') ≠ k := by
    intro k hk heq
    rw [hskip] at heq
    exact h (heq ▸ List.mem_cons_of_mem _ hk)
  cases v with
  | nil => exact absurd rfl hv
  | cons t v =>
      have hline : StopsLine (t :: v ++ r) (t :: v ++ r') :=
        ⟨.of_head rfl, fun k hk => visible_append (fun _ => hvisible k hk) (t :: v)⟩
      exact ⟨hline, fun h => h⟩

/-! ## Behind a statement -/

/-- Something that may stand behind a statement, and a phrase after the separators there. -/
def Resumes (ends : List Kind) (P : List Token → List Token → Prop) (ts rest : List Token) : Prop :=
  kindOf ts ∈ ends ∧ P (skipSeparators ts) rest

/-- The separators in front of tokens, and what they do not hide. -/
theorem exists_separators (ts : List Token) : ∃ front, ts = front ++ skipSeparators ts ∧
    ∀ {ys}, kindOf ys ∉ [Kind.newline, .semicolon] → skipSeparators (front ++ ys) = ys := by
  refine ⟨_, List.takeWhile_append_dropWhile.symm, fun {ys} h => ?_⟩
  exact dropWhile_takeWhile_append (p := fun k => k == .newline || k == .semicolon)
    (by simpa using h) ts

section Resumes

variable {stop : Token} {halt : Halt} {ts : List Token} {P : List Token → List Token → Prop}
  {C : List Token → Prop}

/-- Something else stands behind a statement. -/
theorem resumes_fails_here {ends : List Kind} {wanted : Wanted} (hkind : kindOf ts ∉ ends)
    (hnewline : .newline ∈ ends) (fill : List Token)
    (hfill : ∀ follow, C follow → StopsStatement ts (fill ++ follow) ∧
      Resumes ends P (fill ++ follow) follow) :
    Fails stop StopsStatement (Resumes ends P) C ts (.mismatch ⟨wanted, ts.headD stop⟩) := by
  refine .here fill (fun {x r} hhead hresumes => ?_) (fun {t after after'} hts => ?_) hfill
  · exact hkind (kindOf_eq_of_head? hhead ▸ hresumes.1)
  · refine stopsStatement_of_head? (fun h => hkind (h ▸ hnewline)) ?_
    rw [hts]
    rfl

/-- A statement is followed by a phrase that goes wrong. -/
theorem resumes_fails {ends : List Kind} (h : Fails stop Unseen P C (skipSeparators ts) halt)
    (hkind : kindOf ts ∈ ends)
    (hP : ∀ {x r}, P x r → kindOf x ∉ [Kind.newline, .semicolon, .pipe, .elseWord])
    (fill : List Token)
    (hfill : ∀ follow, C follow → StopsStatement ts (fill ++ follow) ∧
      Resumes ends P (fill ++ follow) follow) :
    Fails stop StopsStatement (Resumes ends P) C ts halt := by
  obtain ⟨wanted, taken, rest, rfl, hsplit, hdead, more, hrepair⟩ := h
  obtain ⟨front, hfront, hdrop⟩ := exists_separators ts
  have hts : ts = front ++ taken ++ rest := by rw [List.append_assoc, ← hsplit, ← hfront]
  have hfirst := kindOf_skipSeparators_notMem ts
  refine ⟨wanted, front ++ taken, rest, rfl, hts, ?_, ?_⟩
  · rintro t after rfl after'
    have hsame : (taken ++ t :: after').head? = (skipSeparators ts).head? := by
      rw [hsplit, head?_append_cons]
    have hE : StopsStatement (skipSeparators ts) (taken ++ t :: after') :=
      stopsStatement_of_head? (fun h => hfirst (by simp [h])) hsame
    rw [List.append_assoc]
    refine ⟨hfront ▸ hE.append front, ?_⟩
    rintro r ⟨-, hresumed⟩
    rw [hdrop (by rwa [kindOf_eq_of_head? hsame])] at hresumed
    exact (hdead rfl after').2 r hresumed
  · by_cases hnone : front ++ taken = []
    · -- Nothing has been taken up, so anything may be put in its place.
      rw [hnone]
      exact ⟨fill, hfill⟩
    · refine ⟨more, fun follow hfollow => ?_⟩
      obtain ⟨-, hphrase⟩ := hrepair follow hfollow
      have hsame : (front ++ taken ++ (more ++ follow)).head? = ts.head? := by
        rw [hts]
        exact head?_append_of_ne_nil hnone _ _
      rw [List.append_assoc] at hsame ⊢
      refine ⟨?_, kindOf_eq_of_head? hsame ▸ hkind, ?_⟩
      · by_cases hseparated : front = []
        · rw [hseparated, List.nil_append] at hfront
          rw [← hfront] at hfirst
          exact stopsStatement_of_head? (fun h => hfirst (by simp [h])) hsame
        · have hsubset : ∀ k ∈ [Kind.newline, .pipe, .elseWord],
              k ∈ [Kind.newline, .semicolon, .pipe, .elseWord] := by decide
          exact hfront ▸ stopsStatement_append hseparated fun h => hP hphrase (hsubset _ h)
      · have hsubset : ∀ k ∈ [Kind.newline, .semicolon],
            k ∈ [Kind.newline, .semicolon, .pipe, .elseWord] := by decide
        rwa [hdrop fun h => hP hphrase (hsubset _ h)]

end Resumes

/-! ## Statements by their first token -/

section Inversion

variable {t : Token} {ts rest : List Token} {s : Stmt}

theorem Statement.of_hotkey (ht : t.kind = .hotkey) (h : Statement (t :: ts) s rest) :
    ∃ u m, (ts = u :: m ∧ u.kind = .arrow) ∧ ∃ action, Statement (skipNewlines m) action rest := by
  cases h with
  | bind _ harrow haction => exact ⟨_, _, ⟨rfl, harrow⟩, _, haction⟩
  | block hblock => cases ht.symm.trans hblock.kindOf_eq
  | expr hkind _ => simp [ht, openings] at hkind
  | _ => simp_all

theorem Statement.of_let (ht : t.kind = .letWord) (h : Statement (t :: ts) s rest) :
    ∃ u m, (ts = u :: m ∧ u.kind = .identifier) ∧
      ((kindOf m ≠ .assign ∧ m = rest) ∨ ∃ v m', (m = v :: m' ∧ v.kind = .assign) ∧
        ∃ value, Expression (skipNewlines m') value rest) := by
  cases h with
  | assign _ hname hassign hvalue =>
      exact ⟨_, _, ⟨rfl, hname⟩, .inr ⟨_, _, ⟨rfl, hassign⟩, _, hvalue⟩⟩
  | declare _ hname hassign => exact ⟨_, _, ⟨rfl, hname⟩, .inl ⟨hassign, rfl⟩⟩
  | block hblock => cases ht.symm.trans hblock.kindOf_eq
  | expr hkind _ => simp [ht, openings] at hkind
  | _ => simp_all

theorem Statement.of_if (ht : t.kind = .ifWord) (h : Statement (t :: ts) s rest) :
    Branch ts s rest := by
  cases h with
  | branch _ hbranch => exact hbranch
  | block hblock => cases ht.symm.trans hblock.kindOf_eq
  | expr hkind _ => simp [ht, openings] at hkind
  | _ => simp_all

theorem Statement.of_while (ht : t.kind = .whileWord) (h : Statement (t :: ts) s rest) :
    ∃ condition m, Expression ts condition m ∧ ∃ body, Block (skipNewlines m) body rest := by
  cases h with
  | loop _ hcondition hbody => exact ⟨_, _, hcondition, _, hbody⟩
  | block hblock => cases ht.symm.trans hblock.kindOf_eq
  | expr hkind _ => simp [ht, openings] at hkind
  | _ => simp_all

theorem Statement.of_fn (ht : t.kind = .fnWord) (h : Statement (t :: ts) s rest) :
    ∃ u m, (ts = u :: m ∧ u.kind = .identifier) ∧ ∃ v m', (m = v :: m' ∧ v.kind = .leftParen) ∧
      ∃ params m'', Parameters m' params m'' ∧ ∃ body, Block (skipNewlines m'') body rest := by
  cases h with
  | function _ hname hopen hparams hbody =>
      exact ⟨_, _, ⟨rfl, hname⟩, _, _, ⟨rfl, hopen⟩, _, _, hparams, _, hbody⟩
  | block hblock => cases ht.symm.trans hblock.kindOf_eq
  | expr hkind _ => simp [ht, openings] at hkind
  | _ => simp_all

theorem Statement.of_return (ht : t.kind = .returnWord) (h : Statement (t :: ts) s rest) :
    (kindOf ts ∈ .rightBrace :: endings ∧ ts = rest) ∨
      (kindOf ts ∉ .rightBrace :: endings ∧ ∃ value, Expression ts value rest) := by
  cases h with
  | leave _ hkind hvalue => exact .inr ⟨hkind, _, hvalue⟩
  | leaveNull _ hkind => exact .inl ⟨hkind, rfl⟩
  | block hblock => cases ht.symm.trans hblock.kindOf_eq
  | expr hkind _ => simp [ht, openings] at hkind
  | _ => simp_all

theorem Statement.of_leftBrace (ht : kindOf ts = .leftBrace) (h : Statement ts s rest) :
    Block ts s rest := by
  cases h with
  | block hblock => exact hblock
  | expr hkind _ => simp [ht, openings] at hkind
  | _ => simp_all

theorem Statement.of_notMem (ht : kindOf ts ∉ openings) (h : Statement ts s rest) :
    ∃ e, Expression ts e rest := by
  cases h with
  | expr _ he => exact ⟨_, he⟩
  | block hblock => simp [hblock.kindOf_eq, openings] at ht
  | _ => simp_all [openings]

end Inversion

/-! The parts behind the first one of a phrase with alternatives. -/

/-- A comma and more names, if there are any. -/
inductive NamesTail : List Token → List Token → Prop
  | none {ts} : kindOf ts ≠ .comma → NamesTail ts ts
  | some {u ts names rest} : u.kind = .comma → Names ts names rest → NamesTail (u :: ts) rest

theorem names_cons_iff {t : Token} {ts rest : List Token} (ht : t.kind = .identifier) :
    (∃ names, Names (t :: ts) names rest) ↔ NamesTail ts rest := by
  constructor
  · rintro ⟨names, h⟩
    cases h with
    | last _ hcomma => exact .none hcomma
    | cons _ hcomma hmore => exact .some hcomma hmore
  · intro h
    cases h with
    | none hcomma => exact ⟨_, .last ht hcomma⟩
    | some hcomma hmore => exact ⟨_, .cons ht hcomma hmore⟩

theorem Parameters.of_kindOf_ne {ts rest : List Token} {params : List String}
    (hts : kindOf ts ≠ .rightParen) (h : Parameters ts params rest) :
    ∃ u, Names ts params (u :: rest) ∧ u.kind = .rightParen := by
  cases h with
  | none hclose => exact absurd hclose hts
  | some hnames hclose => exact ⟨_, hnames, hclose⟩

theorem Names.kindOf_eq {ts rest : List Token} {names : List String} (h : Names ts names rest) :
    kindOf ts = .identifier := by
  cases h with
  | last hname _ => exact hname
  | cons hname _ _ => exact hname

theorem Parameters.unique {ts rest rest' : List Token} {params params' : List String}
    (h : Parameters ts params rest) (h' : Parameters ts params' rest') :
    params = params' ∧ rest = rest' := by
  cases h with
  | none hclose =>
      cases h' with
      | none _ => exact ⟨rfl, rfl⟩
      | some hnames _ => cases hclose.symm.trans hnames.kindOf_eq
  | some hnames hclose =>
      obtain ⟨u, hnames', -⟩ := h'.of_kindOf_ne (by rw [hnames.kindOf_eq]; nofun)
      obtain ⟨rfl, heq⟩ := hnames.unique hnames'
      cases heq
      exact ⟨rfl, rfl⟩

/-- What stands behind an `else`. -/
inductive Alternative : List Token → List Token → Prop
  | branch {u ts s rest} : u.kind = .ifWord → Branch ts s rest → Alternative (u :: ts) rest
  | block {ts s rest} : Block ts s rest → Alternative ts rest

theorem Alternative.kindOf_mem {ts rest : List Token} (h : Alternative ts rest) :
    kindOf ts ∈ [Kind.ifWord, .leftBrace] := by
  cases h with
  | branch hif _ => simp [hif]
  | block hblock => simp [hblock.kindOf_eq]

/-- An alternative, if there is one. -/
inductive ElseTail : List Token → List Token → Prop
  | none {ts} : kindOf (skipNewlines ts) ≠ .elseWord → ElseTail ts ts
  | some {ts t ts₁ rest} :
      skipNewlines ts = t :: ts₁ → t.kind = .elseWord → Alternative (skipNewlines ts₁) rest →
      ElseTail ts rest

theorem branch_iff {ts rest : List Token} :
    (∃ s, Branch ts s rest) ↔ ∃ condition m, Expression ts condition m ∧
      ∃ body m', Block (skipNewlines m) body m' ∧ ElseTail m' rest := by
  constructor
  · rintro ⟨s, h⟩
    cases h with
    | plain hcondition hbody helse => exact ⟨_, _, hcondition, _, _, hbody, .none helse⟩
    | chain hcondition hbody hskip helse hskip' hif halternative =>
        exact ⟨_, _, hcondition, _, _, hbody, .some hskip helse (hskip' ▸ .branch hif halternative)⟩
    | otherwise hcondition hbody hskip helse halternative =>
        exact ⟨_, _, hcondition, _, _, hbody, .some hskip helse (.block halternative)⟩
  · rintro ⟨condition, m, hcondition, body, m', hbody, helse⟩
    cases helse with
    | none helse => exact ⟨_, .plain hcondition hbody helse⟩
    | @some _ ts₁ _ hskip helse halternative =>
        generalize hts : skipNewlines ts₁ = ts₂ at halternative
        cases halternative with
        | branch hif halternative =>
            exact ⟨_, .chain hcondition hbody hskip helse hts hif halternative⟩
        | block halternative =>
            exact ⟨_, .otherwise hcondition hbody hskip helse (hts ▸ halternative)⟩

theorem block_iff {ts rest : List Token} :
    (∃ s, Block ts s rest) ↔ ∃ u m, (ts = u :: m ∧ u.kind = .leftBrace) ∧
      ∃ body, BlockTail (skipSeparators m) body rest := by
  constructor
  · rintro ⟨s, h⟩
    cases h with
    | braces hopen hbody => exact ⟨_, _, ⟨rfl, hopen⟩, _, hbody⟩
  · rintro ⟨u, m, ⟨rfl, hopen⟩, body, hbody⟩
    exact ⟨_, .braces hopen hbody⟩

/-! Tokens that make up a phrase. -/

theorem blockTail_sample (ts : List Token) : BlockTail (sample .rightBrace :: ts) [] ts :=
  .nil rfl

theorem skipSeparators_sample (ts : List Token) :
    skipSeparators (sample .rightBrace :: ts) = sample .rightBrace :: ts :=
  skipSeparators_of_kindOf_notMem (notMem_of_apart (blockTail_sample ts).kindOf_mem)

theorem block_sample (ts : List Token) :
    Block (sample .leftBrace :: sample .rightBrace :: ts) (.block []) ts := by
  refine .braces rfl ?_
  rw [skipSeparators_sample]
  exact blockTail_sample ts

theorem closed_leftBrace (ts : List Token) : Closed (sample .leftBrace :: ts) := by
  have hmem : Kind.leftBrace ∈ closings := by decide
  exact hmem

/-- A block behind an expression. -/
theorem skipNewlines_block_sample (ts : List Token) :
    ∃ s, Block (skipNewlines (sample .leftBrace :: sample .rightBrace :: ts)) s ts := by
  rw [skipNewlines_cons_of_ne (t := sample .leftBrace) nofun]
  exact ⟨_, block_sample ts⟩

theorem ElseTail.of_endsBlock {ts : List Token} (h : EndsBlock ts) : ElseTail ts ts :=
  .none (h.closed.stops.visible .elseWord (by decide) (by decide))

/-- The tokens are a whole script, with nothing behind it. -/
def Script (ts rest : List Token) : Prop :=
  ∃ body, Statements (skipSeparators ts) body ∧ rest = []

end Grammar

namespace Parse

open Grammar

variable {stop : Token} {halt : Halt} {ts : List Token}

theorem statementEnd_eq_error {inBlock : Bool} (h : statementEnd stop inBlock ts = .error halt) :
    halt = .mismatch ⟨.separator, ts.headD stop⟩ ∧
      kindOf ts ∉ if inBlock then .rightBrace :: endings else endings := by
  constructor
  · unfold statementEnd fail at h
    split at h
    · cases h
    · cases h
    · cases h
    · split at h
      · cases h
      · cases h
        rfl
    · cases h
      rfl
  · intro hmem
    rw [statementEnd_eq_ok.2 hmem] at h
    cases h

theorem parameters_fails (h : parameters stop ts = .error halt) :
    Fails stop Unseen (fun x r => ∃ names, Names x names r)
      (fun follow => kindOf follow = .rightParen) ts halt := by
  have hhere : ∀ {ts : List Token}, kindOf ts ≠ .identifier →
      Fails stop Unseen (fun x r => ∃ names, Names x names r)
        (fun follow => kindOf follow = .rightParen) ts
        (.mismatch ⟨.parameterName, ts.headD stop⟩) := by
    intro ts hts
    refine .here [sample .identifier] ?_ (fun _ => trivial)
      fun follow hfollow => ⟨trivial, [""], ?_⟩
    · rintro x r hhead ⟨names, hnames⟩
      exact hts (kindOf_eq_of_head? hhead ▸ hnames.kindOf_eq)
    · have hcomma : kindOf follow ≠ .comma := by
        rw [hfollow]
        decide
      exact .last (t := sample .identifier) rfl hcomma
  fun_induction parameters stop ts with
  | case1 =>
      cases h
      exact hhere (by decide)
  | case2 t hkind => cases h
  | case3 t hkind u ts hcomma ih =>
      have hkind : t.kind = .identifier := by simpa using hkind
      have hcomma : u.kind = .comma := by simpa using hcomma
      rcases bind_eq_error.1 h with h | ⟨_, _, h⟩
      · have htail : Fails stop Unseen NamesTail (fun follow => kindOf follow = .rightParen)
            (u :: ts) halt := by
          refine (ih h).cons u trivial ?_ ?_
          · intro x r htail
            cases htail with
            | none hno => exact absurd hcomma hno
            | some _ hmore => exact ⟨_, hmore⟩
          · rintro x r ⟨_, hmore⟩
            exact .some hcomma hmore
        exact htail.cons t trivial (names_cons_iff hkind).1 (names_cons_iff hkind).2
      · cases h
  | case4 t hkind u ts hcomma => cases h
  | case5 t ts hkind =>
      cases h
      exact hhere (by simpa using hkind)

section Parameters

variable {β : Type} {B : List Token → List Token → Prop} {C : List Token → Prop}

/-- A name of the parameters is missing. -/
theorem parameters_first_fails (hclose : kindOf ts ≠ .rightParen)
    (h : parameters stop ts = .error halt) (fill : List Token)
    (hfill : ∀ {follow}, C follow → B (fill ++ follow) follow) :
    Fails stop Unseen (fun x r => ∃ params m, Parameters x params m ∧ B m r) C ts halt := by
  refine (parameters_fails h).first (sample .rightParen :: fill) (fun _ => rfl) ?_ ?_
  · rintro x r hhead ⟨params, m, hparams, -⟩
    obtain ⟨u, hnames, -⟩ := hparams.of_kindOf_ne (by rwa [kindOf_eq_of_head? hhead])
    exact ⟨_, _, hnames⟩
  · rintro x follow hfollow - ⟨params, hnames⟩
    exact ⟨params, _, .some hnames rfl, hfill hfollow⟩

/-- The parenthesis behind the parameters is missing. -/
theorem parameters_close_fails {wanted : Wanted} {names : List String} {ts₁ : List Token}
    (hclose : kindOf ts ≠ .rightParen) (hnames : Names ts names ts₁)
    (h : expect stop .rightParen wanted ts₁ = .error halt) (fill : List Token)
    (hfill : ∀ {follow}, C follow → B (fill ++ follow) follow) :
    Fails stop Unseen (fun x r => ∃ params m, Parameters x params m ∧ B m r) C ts halt := by
  have hclosed : Fails stop Stops (fun x r => ∃ u, x = u :: r ∧ u.kind = .rightParen)
      (fun _ => True) ts₁ halt :=
    expect_fails h (fun hts => .of_head (by rw [hts]; rfl)) fun {follow} _ =>
      (StopsLine.of_closing (closed_rightParen follow)).toStops
  have hsequence := Fails.after (F := Unseen) (A := fun names x r => Names x names r)
    (B := fun _ x r => ∃ u, x = u :: r ∧ u.kind = .rightParen) hnames.takes hclosed
    (fun _ _ => trivial) Names.unique
  refine hsequence.first fill (fun _ => trivial) ?_ ?_
  · rintro x r hhead ⟨params, m, hparams, -⟩
    obtain ⟨u, hnames, hu⟩ := hparams.of_kindOf_ne (by rwa [kindOf_eq_of_head? hhead])
    exact ⟨_, _, _, hnames, u, rfl, hu⟩
  · rintro x follow hfollow - ⟨params, m, hnames, u, rfl, hu⟩
    exact ⟨params, _, .some hnames hu, hfill hfollow⟩

/-- The parameters of a function and what is behind them. -/
theorem parameters_sequence_fails {rest : List String × List Token → Except Halt β}
    {next : List String × List Token → Token × List Token → Except Halt β}
    (h : (if kindOf ts == .rightParen then Except.ok ([], ts) >>= rest
      else parameters stop ts >>= rest) = .error halt)
    (hrest : ∀ p, rest p = expect stop .rightParen .parametersEnd p.2 >>= next p)
    (fill : List Token) (hfill : ∀ {follow}, C follow → B (fill ++ follow) follow)
    (hnext : ∀ {p q}, q.2.length < ts.length → next p q = .error halt →
      Fails stop Stops B C q.2 halt) :
    Fails stop Unseen (fun x r => ∃ params m, Parameters x params m ∧ B m r) C ts halt := by
  have hafter : ∀ {p q}, Parameters ts p.1 q.2 → next p q = .error halt →
      Fails stop Unseen (fun x r => ∃ params m, Parameters x params m ∧ B m r) C ts halt :=
    fun hparams herror => (hnext hparams.length_lt herror).after hparams.takes (fun _ _ => trivial)
      Parameters.unique
  split at h
  · rename_i hclose
    obtain ⟨t, ts₁, rfl, ht⟩ := eq_cons_of_kindOf (beq_iff_eq.1 hclose) nofun
    rcases bind_eq_error.1 h with h | ⟨p, hok, h⟩
    · cases h
    · cases hok
      rw [hrest] at h
      rcases bind_eq_error.1 h with h | ⟨q, hok, h⟩
      · rw [expect_eq_ok.2 ⟨rfl, ht⟩] at h
        cases h
      · obtain ⟨hcons, -⟩ := expect_eq_ok.1 hok
        cases hcons
        exact hafter (.none ht) h
  · rename_i hclose
    have hclose : kindOf ts ≠ .rightParen := by simpa using hclose
    rcases bind_eq_error.1 h with h | ⟨p, hok, h⟩
    · exact parameters_first_fails hclose h fill hfill
    · have hnames := parameters_sound hok
      rw [hrest] at h
      rcases bind_eq_error.1 h with h | ⟨q, hok', h⟩
      · exact parameters_close_fails hclose hnames h fill hfill
      · obtain ⟨hcons, hu⟩ := expect_eq_ok.1 hok'
        rw [hcons] at hnames
        exact hafter (.some hnames hu) h

end Parameters

theorem expr_fails
    (h : Fails stop Begins (fun x r => ∃ e, Expression x e r) Closed ts halt)
    (hkind : kindOf ts ∉ openings) :
    Fails stop Unseen (fun x r => ∃ s, Statement x s r) EndsBlock ts halt := by
  refine (h.first [] EndsBlock.closed ?_ ?_).weaken fun _ => trivial
  · rintro x r hhead ⟨s, hs⟩
    obtain ⟨e, he⟩ := hs.of_notMem (by rwa [kindOf_eq_of_head? hhead])
    exact ⟨r, e, he⟩
  · rintro x follow - hbegins ⟨e, he⟩
    refine ⟨_, .expr ?_ he⟩
    rcases hbegins with hhead | hname
    · rwa [kindOf_eq_of_head? hhead]
    · rw [hname]
      decide

/-- A brace ends the statement before it and the block. -/
theorem resumes_rightBrace (ts : List Token) :
    Resumes (.rightBrace :: endings) (fun x r => ∃ body, BlockTail x body r)
      (sample .rightBrace :: ts) ts := by
  refine ⟨List.mem_cons_self, [], ?_⟩
  rw [skipSeparators_sample]
  exact blockTail_sample ts

theorem stopsStatement_rightBrace (ts ts' : List Token) :
    StopsStatement ts (sample .rightBrace :: ts') := by
  have hclosing : Kind.rightBrace ∈ closings := by decide
  exact ⟨.of_closing hclosing, fun _ => List.mem_cons_self⟩

/-- The end of the script ends the statement before it. -/
theorem resumes_nil :
    Resumes endings (fun x r => ∃ body, Statements x body ∧ r = []) [] [] :=
  ⟨by decide, [], .nil, rfl⟩

theorem stopsStatement_nil (ts : List Token) : StopsStatement ts [] :=
  ⟨.of_closing (by decide), fun _ => by decide⟩

theorem statement_sample {ts : List Token} (h : EndsBlock ts) :
    Statement (skipNewlines (sample .returnWord :: ts)) (.leave none) ts := by
  rw [skipNewlines_cons_of_ne (t := sample .returnWord) nofun]
  exact .leaveNull rfl h.ending

/-- Newlines before a block. -/
theorem skipNewlines_block_fails
    (h : Fails stop StopsLine (fun x r => ∃ s, Block x s r) EndsBlock (skipNewlines ts) halt) :
    Fails stop StopsLine (fun x r => ∃ s, Block (skipNewlines x) s r) EndsBlock ts halt := by
  refine h.newlines (fun v {_ _} hE => hE.append v) ?_
  rintro x r ⟨s, hs⟩
  rw [hs.kindOf_eq]
  nofun

theorem ne_newline_of_statement {rest : List Token} {s : Stmt} (h : Statement ts s rest) :
    kindOf ts ≠ .newline := by
  have hnot : kindOf ts ∉ [Kind.newline] := notMem_of_apart h.kindOf_mem
  simpa using hnot

/-- A binding: an arrow and the action. -/
theorem bind_fails {β : Type} {next : Token × List Token → Except Halt β} {t : Token}
    (ht : t.kind = .hotkey) (h : (expect stop .arrow .arrow ts >>= next) = .error halt)
    (hnext : ∀ {u ts₁}, ts₁.length < ts.length → next (u, ts₁) = .error halt →
      Fails stop Unseen (fun x r => ∃ s, Statement x s r) EndsBlock (skipNewlines ts₁) halt) :
    Fails stop Unseen (fun x r => ∃ s, Statement x s r) EndsBlock (t :: ts) halt := by
  have hbehind := token_fails (F := Unseen) (C := EndsBlock)
    (B := fun _ x r => ∃ action, Statement (skipNewlines x) action r) h [sample .returnWord]
    (fun _ => trivial) (fun _ => trivial)
    (fun hlt herror => (hnext hlt herror).newlines (fun _ {_ _} _ => trivial) fun ⟨_, hs⟩ =>
      ne_newline_of_statement hs)
    (fun hfollow _ => ⟨_, statement_sample hfollow⟩)
  refine hbehind.cons t trivial ?_ ?_
  · rintro x r ⟨s, hs⟩
    exact hs.of_hotkey ht
  · rintro x r ⟨u, m, ⟨rfl, hu⟩, action, haction⟩
    exact ⟨_, .bind ht hu haction⟩

/-- A declaration: a name, and perhaps a value. -/
theorem let_fails {β : Type} {next : Token × List Token → Except Halt β} {t : Token}
    (ht : t.kind = .letWord)
    (h : (expect stop .identifier .variableName ts >>= next) = .error halt)
    (hnext : ∀ {u ts₁}, ts₁.length < ts.length → next (u, ts₁) = .error halt →
      ∃ v ts₂, ts₁ = v :: ts₂ ∧ v.kind = .assign ∧
        Fails stop Begins (fun x r => ∃ e, Expression x e r) Closed (skipNewlines ts₂) halt) :
    Fails stop Unseen (fun x r => ∃ s, Statement x s r) EndsBlock (t :: ts) halt := by
  have hbehind := token_fails (F := Unseen) (C := EndsBlock)
    (B := fun _ m r => (kindOf m ≠ .assign ∧ m = r) ∨ ∃ v m', (m = v :: m' ∧ v.kind = .assign) ∧
      ∃ value, Expression (skipNewlines m') value r) h [] (fun _ => trivial) (fun _ => trivial)
    (fun hlt herror => by
      obtain ⟨v, ts₂, rfl, hv, hvalue⟩ := hnext hlt herror
      have hlines := hvalue.newlines (fun v {_ _} hE => hE.append v)
        fun ⟨_, he⟩ => ne_newline_of_beginning he.kindOf_mem
      have hclosed := hlines.first [] EndsBlock.closed (fun _ hP => ⟨_, hP⟩) fun _ _ hA => hA
      refine hclosed.cons v trivial ?_ fun hvalue => .inr ⟨v, _, ⟨rfl, hv⟩, hvalue⟩
      rintro x r (⟨hno, -⟩ | ⟨v', m', ⟨heq, -⟩, hvalue⟩)
      · exact absurd hv hno
      · cases heq
        exact hvalue)
    (fun hfollow _ => .inl ⟨hfollow.closed.stops.kind .assign (by decide) (by decide), rfl⟩)
  refine hbehind.cons t trivial ?_ ?_
  · rintro x r ⟨s, hs⟩
    exact hs.of_let ht
  · rintro x r ⟨u, m, ⟨rfl, hu⟩, ⟨hassign, rfl⟩ | ⟨v, m', ⟨rfl, hv⟩, value, hvalue⟩⟩
    · exact ⟨_, .declare ht hu hassign⟩
    · exact ⟨_, .assign ht hu hv hvalue⟩

/-- A condition and what begins with a block behind it. -/
theorem condition_fails {β : Type} {n : Nat} {next : Expr × List Token → Except Halt β}
    {B : List Token → List Token → Prop} (hn : 16 * ts.length + 11 ≤ n)
    (h : (expression stop n ts >>= next) = .error halt)
    (hB : ∀ {x r}, B x r → kindOf x = .leftBrace)
    (hfill : ∀ {follow}, EndsBlock follow →
      B (sample .leftBrace :: sample .rightBrace :: follow) follow)
    (hnext : ∀ {e ts₁}, ts₁.length < ts.length → next (e, ts₁) = .error halt →
      Fails stop StopsLine B EndsBlock (skipNewlines ts₁) halt) :
    Fails stop Unseen (fun x r => ∃ condition m, Expression x condition m ∧ B (skipNewlines m) r)
      EndsBlock ts halt := by
  refine Fails.sequence (E := StopsLine) h [sample .leftBrace, sample .rightBrace]
    (fun h => (expression_fails hn h).weaken fun _ => trivial) (fun {e ts₁} hok herror => ?_)
    (fun _ => trivial) Expression.unique (fun {follow} hfollow => ⟨closed_leftBrace _, fun _ => ?_⟩)
  · have hexpression := expression_sound hok
    have hlt := hexpression.length_lt
    refine ⟨hexpression.takes, hlt, ?_⟩
    refine (hnext hlt herror).newlines (fun v {_ _} hE => hE.append v) fun hphrase => ?_
    rw [hB hphrase]
    nofun
  · show B (skipNewlines (sample .leftBrace :: _)) follow
    rw [skipNewlines_cons_of_ne (t := sample .leftBrace) nofun]
    exact hfill hfollow

/-- A loop: a condition and a block. -/
theorem loop_fails {β : Type} {n : Nat} {next : Expr × List Token → Except Halt β} {t : Token}
    (ht : t.kind = .whileWord) (hn : 16 * ts.length + 11 ≤ n)
    (h : (expression stop n ts >>= next) = .error halt)
    (hnext : ∀ {e ts₁}, ts₁.length < ts.length → next (e, ts₁) = .error halt →
      Fails stop StopsLine (fun x r => ∃ s, Block x s r) EndsBlock (skipNewlines ts₁) halt) :
    Fails stop Unseen (fun x r => ∃ s, Statement x s r) EndsBlock (t :: ts) halt := by
  have hbehind := condition_fails hn h (fun ⟨_, hbody⟩ => hbody.kindOf_eq)
    (fun {follow} _ => ⟨_, block_sample follow⟩) hnext
  refine hbehind.cons t trivial ?_ ?_
  · rintro x r ⟨s, hs⟩
    exact hs.of_while ht
  · rintro x r ⟨e, m, hexpression, body, hbody⟩
    exact ⟨_, .loop ht hexpression hbody⟩

/-- A function: a name, parameters and a block. -/
theorem function_fails {β : Type} {t : Token}
    {rest : Token × List Token → Token × List Token → List String × List Token → Except Halt β}
    {next : Token × List Token → Token × List Token → List String × List Token →
      Token × List Token → Except Halt β}
    (ht : t.kind = .fnWord)
    (h : (expect stop .identifier .functionName ts >>= fun p =>
      expect stop .leftParen .parametersStart p.2 >>= fun q =>
        if kindOf q.2 == .rightParen then Except.ok ([], q.2) >>= rest p q
        else parameters stop q.2 >>= rest p q) = .error halt)
    (hrest : ∀ p q m, rest p q m = expect stop .rightParen .parametersEnd m.2 >>= next p q m)
    (hnext : ∀ {p q m w}, w.2.length < ts.length → next p q m w = .error halt →
      Fails stop StopsLine (fun x r => ∃ s, Block x s r) EndsBlock (skipNewlines w.2) halt) :
    Fails stop Unseen (fun x r => ∃ s, Statement x s r) EndsBlock (t :: ts) halt := by
  have hbehind : Fails stop Unseen (fun x r => ∃ u m, (x = u :: m ∧ u.kind = .identifier) ∧
      ∃ v m', (m = v :: m' ∧ v.kind = .leftParen) ∧
        ∃ params m'', Parameters m' params m'' ∧ ∃ body, Block (skipNewlines m'') body r)
      EndsBlock ts halt := by
    refine token_fails h [sample .leftParen, sample .rightParen, sample .leftBrace,
      sample .rightBrace] (fun _ => trivial) (fun _ => trivial) (fun {u ts₁} hlt₁ herror => ?_)
      fun {follow} _ _ => ⟨_, _, ⟨rfl, rfl⟩, _, _, .none rfl, skipNewlines_block_sample follow⟩
    refine token_fails herror [sample .rightParen, sample .leftBrace, sample .rightBrace]
      (fun _ => trivial) (fun _ => trivial) (fun {v ts₂} hlt₂ herror => ?_)
      fun {follow} _ _ => ⟨_, _, .none rfl, skipNewlines_block_sample follow⟩
    refine parameters_sequence_fails herror (hrest _ _) [sample .leftBrace, sample .rightBrace]
      (fun {follow} _ => skipNewlines_block_sample follow) fun {p q} hlt₃ herror => ?_
    exact (skipNewlines_block_fails (hnext (by omega) herror)).weaken (·.toStops)
  refine hbehind.cons t trivial ?_ ?_
  · rintro x r ⟨s, hs⟩
    exact hs.of_fn ht
  · rintro x r ⟨u, m, ⟨rfl, hu⟩, v, m', ⟨rfl, hv⟩, params, m'', hparams, body, hbody⟩
    exact ⟨_, .function ht hu hv hparams hbody⟩

/-- A result to leave with. -/
theorem leave_fails {t : Token} (ht : t.kind = .returnWord)
    (hkind : kindOf ts ∉ .rightBrace :: endings)
    (h : Fails stop Begins (fun x r => ∃ e, Expression x e r) Closed ts halt) :
    Fails stop Unseen (fun x r => ∃ s, Statement x s r) EndsBlock (t :: ts) halt := by
  have hvalue : Fails stop Begins (fun x r => (kindOf x ∈ .rightBrace :: endings ∧ x = r) ∨
      (kindOf x ∉ .rightBrace :: endings ∧ ∃ value, Expression x value r)) EndsBlock ts halt := by
    refine h.first [] EndsBlock.closed ?_ ?_
    · rintro x r hhead (⟨hmem, -⟩ | ⟨-, value, hvalue⟩)
      · exact absurd (kindOf_eq_of_head? hhead ▸ hmem) hkind
      · exact ⟨r, value, hvalue⟩
    · rintro x follow - - ⟨value, hvalue⟩
      exact .inr ⟨notMem_of_apart hvalue.kindOf_mem, value, hvalue⟩
  refine hvalue.cons t trivial ?_ ?_
  · rintro x r ⟨s, hs⟩
    exact hs.of_return ht
  · rintro x r (⟨hmem, rfl⟩ | ⟨hnot, value, hvalue⟩)
    · exact ⟨_, .leaveNull ht hmem⟩
    · exact ⟨_, .leave ht hnot hvalue⟩

theorem alternative_branch_fails {u : Token} (hu : u.kind = .ifWord)
    (h : Fails stop Unseen (fun x r => ∃ s, Branch x s r) EndsBlock ts halt) :
    Fails stop Unseen Alternative EndsBlock (u :: ts) halt := by
  refine h.cons u trivial ?_ fun ⟨s, hs⟩ => .branch hu hs
  intro x r halternative
  cases halternative with
  | branch _ hs => exact ⟨_, hs⟩
  | block hs => cases hu.symm.trans hs.kindOf_eq

theorem alternative_block_fails (hif : kindOf ts ≠ .ifWord)
    (h : Fails stop StopsLine (fun x r => ∃ s, Block x s r) EndsBlock ts halt) :
    Fails stop Unseen Alternative EndsBlock ts halt := by
  refine (h.narrow ?_ fun _ ⟨s, hs⟩ => .block hs).weaken fun _ => trivial
  intro x r hhead halternative
  cases halternative with
  | branch hu _ =>
      rw [← kindOf_eq_of_head? hhead] at hif
      exact absurd hu hif
  | block hs => exact ⟨_, hs⟩

/-- An `else`, which newlines may surround, and the alternative. -/
theorem elseTail_fails {t : Token} {ts₁ : List Token} (hskip : skipNewlines ts = t :: ts₁)
    (ht : t.kind = .elseWord)
    (h : Fails stop Unseen Alternative EndsBlock (skipNewlines ts₁) halt) :
    Fails stop StopsStatement ElseTail EndsBlock ts halt := by
  have hlines := h.newlines (fun _ {_ _} _ => trivial) fun h => by
    have hnot : kindOf _ ∉ [Kind.newline] := notMem_of_apart h.kindOf_mem
    simpa using hnot
  refine Fails.visible hskip (by rw [ht]; nofun) hlines ?_ fun hm halternative =>
    .some hm ht halternative
  intro x m r hm htail
  cases htail with
  | none hno =>
      rw [hm] at hno
      exact absurd ht hno
  | some hm' _ halternative =>
      cases hm.symm.trans hm'
      exact halternative

/-- A block and perhaps an alternative. -/
theorem consequence_fails {β : Type} {n : Nat} {next : Stmt × List Token → Except Halt β}
    (hts : kindOf ts ≠ .newline) (h : (block stop n ts >>= next) = .error halt)
    (hfirst : block stop n ts = .error halt →
      Fails stop StopsLine (fun x r => ∃ s, Block x s r) EndsBlock ts halt)
    (hnext : ∀ {s ts₁}, ts₁.length < ts.length → next (s, ts₁) = .error halt →
      Fails stop StopsStatement ElseTail EndsBlock ts₁ halt) :
    Fails stop StopsLine (fun x r => ∃ body m, Block x body m ∧ ElseTail m r) EndsBlock ts
      halt := by
  refine Fails.sequence (E := StopsStatement) (B := fun _ => ElseTail) h [] hfirst
    (fun {s ts₁} hok herror => ?_)
    (fun hhead => (stopsStatement_of_head? hts hhead).toStopsLine) Block.unique
    fun hfollow => ⟨hfollow, fun _ => .of_endsBlock hfollow⟩
  have hblock := block_sound hok
  have hlt := hblock.length_lt
  exact ⟨hblock.takes, hlt, hnext hlt herror⟩

mutual

theorem statement_fails : ∀ {n : Nat} {ts : List Token} {halt : Halt},
    16 * ts.length + 13 ≤ n → statement stop n ts = .error halt →
      Fails stop Unseen (fun x r => ∃ s, Statement x s r) EndsBlock ts halt
  | 0, _, _, hn, _ => absurd hn (by omega)
  | n + 1, [], halt, hn, h => by
      unfold statement at h
      rcases bind_eq_error.1 h with h | ⟨_, _, h⟩
      · exact expr_fails (expression_fails (by omega) h) (by decide)
      · cases h
  | n + 1, t :: ts, halt, hn, h => by
      simp only [statement] at h
      rw [List.length_cons] at hn
      split at h
      · rename_i ht
        refine bind_fails ht h fun {u ts₁} hlt herror => ?_
        have hle := skipNewlines_length_le ts₁
        rcases bind_eq_error.1 herror with herror | ⟨_, _, herror⟩
        · exact statement_fails (by omega) herror
        · cases herror
      · rename_i ht
        have hbrace : kindOf (t :: ts) = .leftBrace := ht
        have hblock := block_fails (by rw [hbrace]; nofun) (by rw [List.length_cons]; omega) h
        refine (hblock.narrow ?_ fun _ ⟨s, hs⟩ => ⟨s, .block hs⟩).weaken fun _ => trivial
        rintro x r hhead ⟨s, hs⟩
        exact ⟨s, hs.of_leftBrace (by rw [kindOf_eq_of_head? hhead, hbrace])⟩
      · rename_i ht
        refine let_fails ht h fun {u ts₁} hlt herror => ?_
        dsimp only at herror
        split at herror
        · rename_i hassign
          obtain ⟨v, ts₂, rfl, hv⟩ := eq_cons_of_kindOf (beq_iff_eq.1 hassign) nofun
          have hle := skipNewlines_length_le ts₂
          rw [List.length_cons] at hlt
          rw [List.drop_one, List.tail_cons] at herror
          rcases bind_eq_error.1 herror with herror | ⟨_, _, herror⟩
          · exact ⟨v, ts₂, rfl, hv, expression_fails (by omega) herror⟩
          · cases herror
        · cases herror
      · rename_i ht
        refine (branch_fails (by omega) h).cons t trivial ?_ fun ⟨s, hs⟩ => ⟨s, .branch ht hs⟩
        rintro x r ⟨s, hs⟩
        exact ⟨s, hs.of_if ht⟩
      · rename_i ht
        refine loop_fails ht (by omega) h fun {e ts₁} hlt herror => ?_
        have hle := skipNewlines_length_le ts₁
        rcases bind_eq_error.1 herror with herror | ⟨_, _, herror⟩
        · exact block_fails (kindOf_skipNewlines_ne ts₁) (by omega) herror
        · cases herror
      · rename_i ht
        refine function_fails ht h (fun _ _ _ => rfl) fun {p q m w} hlt herror => ?_
        have hle := skipNewlines_length_le w.2
        rcases bind_eq_error.1 herror with herror | ⟨_, _, herror⟩
        · exact block_fails (kindOf_skipNewlines_ne w.2) (by omega) herror
        · cases herror
      · rename_i ht
        split at h
        · cases h
        · cases h
        · cases h
        · cases h
        · rcases bind_eq_error.1 h with h | ⟨_, _, h⟩
          · exact leave_fails ht (by simp_all [endings]) (expression_fails (by omega) h)
          · cases h
      · rename_i ht
        rcases bind_eq_error.1 h with h | ⟨_, _, h⟩
        · exact expr_fails (expression_fails (by rw [List.length_cons]; omega) h)
            (by simp_all [openings])
        · cases h

theorem branch_fails : ∀ {n : Nat} {ts : List Token} {halt : Halt},
    16 * ts.length + 12 ≤ n → branch stop n ts = .error halt →
      Fails stop Unseen (fun x r => ∃ s, Branch x s r) EndsBlock ts halt
  | 0, _, _, hn, _ => absurd hn (by omega)
  | n + 1, ts, halt, hn, h => by
      unfold branch at h
      refine (condition_fails (B := fun x r => ∃ body m, Block x body m ∧ ElseTail m r) (by omega) h
        (fun ⟨_, _, hbody, _⟩ => hbody.kindOf_eq)
        (fun {follow} hfollow => ⟨_, _, block_sample follow, .of_endsBlock hfollow⟩) ?_).narrow
        (fun _ => branch_iff.1) (fun _ => branch_iff.2)
      intro e ts₁ hlt₁ herror
      have hle₁ := skipNewlines_length_le ts₁
      have hline := kindOf_skipNewlines_ne ts₁
      refine consequence_fails hline herror (block_fails hline (by omega)) ?_
      intro body ts₂ hlt₂ herror
      simp only at herror
      split at herror
      · rename_i helse
        obtain ⟨t, ts₃, hskip, ht⟩ := eq_cons_of_kindOf (beq_iff_eq.1 helse) nofun
        have hlt₃ := length_lt_of_skipNewlines hskip
        have hle₃ := skipNewlines_length_le ts₃
        simp only [hskip, List.drop_one, List.tail_cons] at herror
        refine elseTail_fails hskip ht ?_
        split at herror
        · rename_i hif
          obtain ⟨u, ts₄, hskip', hu⟩ := eq_cons_of_kindOf (beq_iff_eq.1 hif) nofun
          have hlt₄ := length_lt_of_skipNewlines hskip'
          simp only [hskip', List.tail_cons] at herror ⊢
          rcases bind_eq_error.1 herror with herror | ⟨_, _, herror⟩
          · exact alternative_branch_fails hu (branch_fails (by omega) herror)
          · cases herror
        · rename_i hif
          rcases bind_eq_error.1 herror with herror | ⟨_, _, herror⟩
          · exact alternative_block_fails (by simpa using hif)
              (block_fails (kindOf_skipNewlines_ne ts₃) (by omega) herror)
          · cases herror
      · cases herror

theorem block_fails : ∀ {n : Nat} {ts : List Token} {halt : Halt}, kindOf ts ≠ .newline →
    16 * ts.length + 12 ≤ n → block stop n ts = .error halt →
      Fails stop StopsLine (fun x r => ∃ s, Block x s r) EndsBlock ts halt
  | 0, _, _, _, hn, _ => absurd hn (by omega)
  | n + 1, ts, halt, hts, hn, h => by
      unfold block at h
      refine (token_fails h [sample .rightBrace]
        (fun hhead => (stopsStatement_of_head? hts hhead).toStopsLine)
        (fun x => .of_closing (closed_leftBrace x)) ?_ ?_).narrow (fun _ => block_iff.1)
        (fun _ => block_iff.2)
      · intro u ts₁ hlt herror
        rcases bind_eq_error.1 herror with herror | ⟨_, _, herror⟩
        · have hle := skipSeparators_length_le ts₁
          have htail := blockTail_fails (by omega) herror
          refine Fails.dropWhile (p := fun k => k == .newline || k == .semicolon) rfl htail
            (fun _ _ => trivial) ?_ (fun _ h => h) (fun h => h)
          rintro x r ⟨body, hbody⟩
          have hnot : kindOf x ∉ [Kind.newline, .semicolon] := notMem_of_apart hbody.kindOf_mem
          simpa using hnot
        · cases herror
      · refine fun {follow} _ _ => ⟨[], ?_⟩
        rw [List.singleton_append, skipSeparators_sample]
        exact blockTail_sample follow

theorem blockTail_fails : ∀ {n : Nat} {ts : List Token} {halt : Halt},
    16 * ts.length + 14 ≤ n → blockTail stop n ts = .error halt →
      Fails stop Unseen (fun x r => ∃ body, BlockTail x body r) EndsBlock ts halt
  | 0, _, _, hn, _ => absurd hn (by omega)
  | n + 1, [], halt, hn, h => by
      cases h
      refine .here [sample .rightBrace] ?_ (fun _ => trivial) fun follow _ =>
        ⟨trivial, _, blockTail_sample follow⟩
      rintro x r hhead ⟨body, hbody⟩
      have hkind := hbody.kindOf_mem
      rw [kindOf_eq_of_head? hhead] at hkind
      revert hkind
      decide
  | n + 1, t :: ts, halt, hn, h => by
      simp only [blockTail] at h
      split at h
      · cases h
      · rename_i hclose
        have hclose : t.kind ≠ .rightBrace := by simpa using hclose
        refine (Fails.sequence (E := StopsStatement)
          (B := fun _ => Resumes (.rightBrace :: endings) fun x r => ∃ body, BlockTail x body r) h
          [sample .rightBrace] (statement_fails (by omega)) ?_ (fun _ => trivial) Statement.unique
          ?_).narrow ?_ ?_
        · intro s ts₁ hok hnext
          have hstatement := statement_sound hok
          have hlt := hstatement.length_lt
          refine ⟨hstatement.takes, hlt, ?_⟩
          rcases bind_eq_error.1 hnext with hnext | ⟨_, hend, hnext⟩
          · obtain ⟨rfl, hkind⟩ := statementEnd_eq_error hnext
            exact resumes_fails_here hkind (by decide) [sample .rightBrace] fun follow _ =>
              ⟨stopsStatement_rightBrace ts₁ follow, resumes_rightBrace follow⟩
          · have hkind := statementEnd_eq_ok.1 hend
            have hle := skipSeparators_length_le ts₁
            rcases bind_eq_error.1 hnext with hnext | ⟨_, _, hnext⟩
            · refine resumes_fails (blockTail_fails (by omega) hnext) hkind ?_ [sample .rightBrace]
                fun follow _ => ⟨stopsStatement_rightBrace ts₁ follow, resumes_rightBrace follow⟩
              rintro x r ⟨body, hbody⟩
              exact notMem_of_apart hbody.kindOf_mem
            · cases hnext
        · intro follow _
          have hbrace : Kind.rightBrace ∈ [Kind.rightBrace, .eof] := by decide
          exact ⟨hbrace, fun _ => resumes_rightBrace follow⟩
        · rintro x r hhead ⟨body, hbody⟩
          cases hbody with
          | nil hbrace =>
              cases hhead
              exact absurd hbrace hclose
          | cons _ hfirst hend hmore => exact ⟨_, _, hfirst, hend, _, hmore⟩
        · rintro x r - ⟨s, m, hfirst, hend, body, hmore⟩
          have hbrace : kindOf x ∉ [Kind.rightBrace] := notMem_of_apart hfirst.kindOf_mem
          exact ⟨_, .cons (by simpa using hbrace) hfirst hend hmore⟩

end

theorem statements_fails : ∀ {n : Nat} {ts : List Token} {halt : Halt},
    16 * ts.length + 14 ≤ n → statements stop n ts = .error halt →
      Fails stop Unseen (fun x r => ∃ body, Statements x body ∧ r = []) (· = []) ts halt
  | 0, _, _, hn, _ => absurd hn (by omega)
  | n + 1, [], halt, hn, h => nomatch h
  | n + 1, t :: ts, halt, hn, h => by
      simp only [statements] at h
      refine (Fails.sequence (E := StopsStatement)
        (B := fun _ => Resumes endings fun x r => ∃ body, Statements x body ∧ r = []) h []
        (statement_fails (by omega)) ?_ (fun _ => trivial) Statement.unique ?_).narrow ?_ ?_
      · intro s ts₁ hok hnext
        have hstatement := statement_sound hok
        have hlt := hstatement.length_lt
        refine ⟨hstatement.takes, hlt, ?_⟩
        rcases bind_eq_error.1 hnext with hnext | ⟨_, hend, hnext⟩
        · obtain ⟨rfl, hkind⟩ := statementEnd_eq_error hnext
          refine resumes_fails_here hkind (by decide) [] ?_
          rintro follow rfl
          exact ⟨stopsStatement_nil ts₁, resumes_nil⟩
        · have hkind := statementEnd_eq_ok.1 hend
          have hle := skipSeparators_length_le ts₁
          rcases bind_eq_error.1 hnext with hnext | ⟨_, _, hnext⟩
          · refine resumes_fails (statements_fails (by omega) hnext) hkind ?_ [] ?_
            · rintro x r ⟨body, hbody, -⟩
              exact notMem_of_apart hbody.kindOf_mem
            · rintro follow rfl
              exact ⟨stopsStatement_nil ts₁, resumes_nil⟩
          · cases hnext
      · rintro follow rfl
        have heof : Kind.eof ∈ [Kind.rightBrace, .eof] := by decide
        exact ⟨heof, fun _ => resumes_nil⟩
      · rintro x r hhead ⟨body, hbody, rfl⟩
        cases hbody with
        | nil => cases hhead
        | cons hfirst hend hmore => exact ⟨_, _, hfirst, hend, _, hmore, rfl⟩
      · rintro x r - ⟨s, m, hfirst, hend, body, hmore, rfl⟩
        exact ⟨_, .cons hfirst hend hmore, rfl⟩

end Parse

/-! ## Scripts -/

theorem Stream.run_eq_error {α : Type} {s : Stream} {err : SyntaxError}
    {parser : Token → Nat → List Token → Except Parse.Halt (α × List Token)}
    (h : s.run parser = .error err) :
    ∃ halt, parser s.stop (Parse.depthBound s.tokens) s.tokens = .error halt ∧
      (halt = .mismatch err ∨ halt = .spent) := by
  unfold Stream.run at h
  split at h
  · cases h
  · rename_i e hrun
    cases h
    exact ⟨_, hrun, .inl rfl⟩
  · rename_i hrun
    exact ⟨_, hrun, .inr rfl⟩

/-- The tokens that a parser sees go wrong at the token that is reported. -/
theorem parse_fails {ts : List Token} {err : SyntaxError} (h : parse ts = .error err) :
    Grammar.Fails (Stream.ofTokens ts).stop Grammar.Unseen Grammar.Script (· = [])
      (Stream.ofTokens ts).tokens (.mismatch err) := by
  obtain ⟨halt, hrun, herr⟩ := Stream.run_eq_error h
  generalize Stream.ofTokens ts = stream at hrun ⊢
  have hle := Grammar.skipSeparators_length_le stream.tokens
  have hstatements : Parse.statements stream.stop (Parse.depthBound stream.tokens)
      (Parse.skipSeparators stream.tokens) = .error halt := by
    cases hstatements : Parse.statements stream.stop (Parse.depthBound stream.tokens)
      (Parse.skipSeparators stream.tokens) with
    | error halt' =>
        rw [hstatements] at hrun
        cases hrun
        rfl
    | ok result =>
        rw [hstatements] at hrun
        cases hrun
  have hfails := Parse.statements_fails (by unfold Parse.depthBound; omega) hstatements
  have hhalt : halt = .mismatch err := by
    rcases herr with herr | rfl
    · exact herr
    · obtain ⟨_, _, _, hhalt, -⟩ := hfails
      cases hhalt
  rw [← hhalt]
  refine Grammar.Fails.dropWhile (p := fun k => k == .newline || k == .semicolon) rfl hfails
    (fun _ _ => trivial) ?_ (fun _ h => h) (fun h => h)
  rintro x r ⟨body, hbody, -⟩
  have hnot : Parse.kindOf x ∉ [Kind.newline, .semicolon] :=
    Grammar.notMem_of_apart hbody.kindOf_mem
  simpa using hnot

/-- A list that ends with an end token is split by its first one. -/
theorem exists_stop {ts : List Token} (hcomment : ∀ t ∈ ts, t.kind ≠ .comment)
    (hlast : ∃ t, ts.getLast? = some t ∧ t.kind = .eof) :
    ∃ seen stop unseen, ts = seen ++ stop :: unseen ∧ stop.kind = .eof ∧ Grammar.Plain seen := by
  obtain ⟨last, hlast, heof⟩ := hlast
  have hsome : (ts.find? fun t => t.kind == .eof).isSome := by
    rw [List.find?_isSome]
    exact ⟨last, List.mem_of_getLast? hlast, by simp [heof]⟩
  obtain ⟨stop, hfind⟩ := Option.isSome_iff_exists.1 hsome
  obtain ⟨hstop, seen, unseen, rfl, hseen⟩ := List.find?_eq_some_iff_append.1 hfind
  refine ⟨seen, stop, unseen, rfl, by simpa using hstop, fun t ht => ⟨?_, ?_⟩⟩
  · simpa using hseen t ht
  · exact hcomment t (List.mem_append_left _ ht)

section Earliest

variable {stop : Token} {taken rest unseen : List Token}

/-- Nothing that begins with the tokens up to where they go wrong is a script. -/
theorem parse_ne_ok_of_broken {err : SyntaxError} (hstop : stop.kind = .eof)
    (hplain : Grammar.Plain (taken ++ rest))
    (hbroken : Grammar.Broken Grammar.Unseen Grammar.Script (· = []) (taken ++ rest) taken rest)
    (h : parse (taken ++ (rest ++ stop :: unseen)) = .error err) {us : List Token}
    (hus : taken ++ (rest ++ stop :: unseen).take 1 <+: us) (p : Program) : parse us ≠ .ok p := by
  intro hparse
  obtain ⟨behind, rfl⟩ := hus
  have hread := parse_eq_ok_iff.1 hparse
  cases rest with
  | nil =>
      -- The end of the script is reported: nothing behind it makes a difference.
      rw [List.append_nil] at hplain
      rw [List.append_assoc, List.nil_append, List.take_succ_cons, List.cons_append,
        hplain.ofTokens hstop] at hread
      have hagain : parse (taken ++ stop :: unseen) = .ok p :=
        parse_eq_ok_iff.2 (by rwa [hplain.ofTokens hstop])
      cases h.symm.trans hagain
  | cons t after =>
      have hfront : Grammar.Plain (taken ++ [t]) := by
        intro u hu
        refine hplain u ?_
        rw [List.append_cons]
        exact List.mem_append_left _ hu
      obtain ⟨seen, hseen⟩ := hfront.exists_tokens behind
      rw [List.cons_append, List.take_succ_cons, List.take_zero, hseen, List.append_assoc] at hread
      exact (hbroken.dead rfl seen).2 [] ⟨p.statements, hread, rfl⟩

/-- Some script begins with the tokens before the one where they go wrong. -/
theorem exists_parse_of_broken (hstop : stop.kind = .eof)
    (hbroken : Grammar.Broken Grammar.Unseen Grammar.Script (· = []) (taken ++ rest) taken rest) :
    ∃ us p, (∀ t ∈ us, t.kind ≠ .comment) ∧ taken <+: us ∧ parse us = .ok p := by
  obtain ⟨more, hrepair⟩ := hbroken.repair
  obtain ⟨-, body, hbody, -⟩ := hrepair [] rfl
  rw [List.append_nil] at hbody
  have hplain : Grammar.Plain (taken ++ more) := Grammar.plain_of_skipSeparators hbody.plain
  refine ⟨taken ++ more ++ [stop], ⟨body⟩, ?_, ?_, ?_⟩
  · intro t ht
    rcases List.mem_append.1 ht with ht | ht
    · exact (hplain t ht).2
    · rw [List.mem_singleton.1 ht, hstop]
      nofun
  · rw [List.append_assoc]
    exact List.prefix_append _ _
  · refine parse_eq_ok_iff.2 ?_
    rwa [hplain.ofTokens hstop]

end Earliest

/-- **Syntax errors are found at the earliest token**: no script begins with the tokens up to and
including the one that is reported, and some script begins with the tokens before it. -/
theorem parse_error_earliest {ts : List Token} {err : SyntaxError}
    (hcomment : ∀ t ∈ ts, t.kind ≠ .comment) (hlast : ∃ t, ts.getLast? = some t ∧ t.kind = .eof)
    (h : parse ts = .error err) :
    ∃ i, ts[i]? = some err.found ∧
      (∀ us, ts.take (i + 1) <+: us → ∀ p, parse us ≠ .ok p) ∧
      ∃ us p, (∀ t ∈ us, t.kind ≠ .comment) ∧ ts.take i <+: us ∧ parse us = .ok p := by
  obtain ⟨seen, stop, unseen, rfl, hstop, hplain⟩ := exists_stop hcomment hlast
  have hfails := parse_fails h
  rw [hplain.ofTokens hstop unseen] at hfails
  obtain ⟨wanted, taken, rest, herr, hbroken⟩ := hfails
  obtain rfl := hbroken.split
  cases herr
  rw [List.append_assoc] at h ⊢
  refine ⟨taken.length, ?_, fun us hus p => ?_, ?_⟩
  · rw [List.getElem?_append_right (Nat.le_refl _), Nat.sub_self]
    cases rest with
    | nil => rfl
    | cons t after => rfl
  · rw [List.take_length_add_append] at hus
    exact parse_ne_ok_of_broken hstop hplain hbroken h hus p
  · rw [List.take_left' rfl]
    exact exists_parse_of_broken hstop hbroken

/-- An alternative without braces, on a line of its own. -/
def bareAlternative : List Token :=
  [⟨.ifWord, "if", ⟨1, 1⟩⟩, ⟨.identifier, "a", ⟨1, 4⟩⟩, ⟨.leftBrace, "\x7b", ⟨1, 6⟩⟩,
    ⟨.rightBrace, "\x7d", ⟨1, 7⟩⟩, ⟨.newline, "\n", ⟨1, 8⟩⟩, ⟨.elseWord, "else", ⟨2, 1⟩⟩,
    ⟨.number, "1", ⟨2, 6⟩⟩, ⟨.eof, "", ⟨2, 7⟩⟩]

theorem parse_error_earliest_bareAlternative :
    parse bareAlternative = .error ⟨.blockStart, ⟨.number, "1", ⟨2, 6⟩⟩⟩ ∧
      ∃ i, bareAlternative[i]? = some ⟨.number, "1", ⟨2, 6⟩⟩ ∧
        (∀ us, bareAlternative.take (i + 1) <+: us → ∀ p, parse us ≠ .ok p) ∧
        ∃ us p, (∀ t ∈ us, t.kind ≠ .comment) ∧ bareAlternative.take i <+: us ∧
          parse us = .ok p := by
  have hcomment : ∀ t ∈ bareAlternative, t.kind ≠ .comment := by decide
  have hlast : ∃ t, bareAlternative.getLast? = some t ∧ t.kind = .eof := ⟨_, rfl, rfl⟩
  have hparse : parse bareAlternative = .error ⟨.blockStart, ⟨.number, "1", ⟨2, 6⟩⟩⟩ := rfl
  exact ⟨hparse, parse_error_earliest hcomment hlast hparse⟩

end Chord
