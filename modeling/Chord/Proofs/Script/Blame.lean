import Chord.Proofs.Script.Shapes
import Chord.Proofs.Token.Lexis

/-!
# What syntax errors name

**Input.** Tokens on which a parser stops, and the texts that scripts are scanned from.

**Algorithm.** A parser only ever looks at the tokens that it was given, and what it leaves over is
among them. `Within` says so of one result, and it is carried from the parts of a phrase to the
phrase by `Within.bind`.

**Results.** A syntax error names one of the tokens or the end token, and a number is missed only at
a number token whose text denotes none (`Blames`). This holds of every parser (`expression_within`,
`statement_within` and their companions). The number tokens of a script do denote numbers, and its
hotkeys have keys, so that `script_lexis` follows.
-/

namespace Chord
namespace Parse

/-- What an error can name among the tokens `all` and the end token. -/
structure Blames (stop : Token) (all : List Token) (e : SyntaxError) : Prop where
  found : e.found ∈ all ++ [stop]
  number : e.wanted = .number →
    e.found ∈ all ∧ e.found.kind = .number ∧ Decimal.read? e.found.text.toList = none

/-- A result of reading some of the tokens `all`. -/
def Within {α : Type} (stop : Token) (all : List Token) : Except Halt (α × List Token) → Prop
  | .ok (_, rest) => rest ⊆ all
  | .error (.mismatch e) => Blames stop all e
  | .error .spent => True

section Steps

variable {α β : Type} {stop t : Token} {all ts rest : List Token} {wanted : Wanted}

theorem Within.bind {x : Except Halt (α × List Token)}
    {f : α × List Token → Except Halt (β × List Token)}
    (hx : Within stop all x) (hf : ∀ a rest, rest ⊆ all → Within stop all (f (a, rest))) :
    Within stop all (x >>= f) := by
  match x, hx with
  | .ok (a, rest), hrest => exact hf a rest hrest
  | .error (.mismatch e), he => exact he
  | .error .spent, _ => exact trivial

theorem subset_of_cons (h : t :: ts ⊆ all) : ts ⊆ all :=
  List.Subset.trans (List.subset_cons_self t ts) h

theorem skipNewlines_subset (h : ts ⊆ all) : skipNewlines ts ⊆ all :=
  List.Subset.trans (List.dropWhile_subset _) h

theorem skipSeparators_subset (h : ts ⊆ all) : skipSeparators ts ⊆ all :=
  List.Subset.trans (List.dropWhile_subset _) h

theorem drop_subset (n : Nat) (h : ts ⊆ all) : ts.drop n ⊆ all :=
  List.Subset.trans (List.drop_subset n ts) h

theorem skipComma_subset (h : ts ⊆ all) : skipComma ts ⊆ all := by
  unfold skipComma
  split
  · exact h
  · split
    · exact subset_of_cons h
    · exact h

theorem afterPipe_subset (h : ts ⊆ all) (hpipe : afterPipe? ts = some rest) : rest ⊆ all := by
  obtain ⟨t, after, hskip, -, rfl⟩ := Grammar.afterPipe?_eq_some.1 hpipe
  have hfront := skipNewlines_subset h
  rw [hskip] at hfront
  exact skipNewlines_subset (subset_of_cons hfront)

theorem afterOperator_subset {ops : List BinOp} {op : BinOp} (h : ts ⊆ all)
    (hop : afterOperator? ops ts = some (op, rest)) : rest ⊆ all := by
  obtain ⟨t, after, rfl, -, -, -, rfl⟩ := Grammar.afterOperator?_eq_some.1 hop
  exact skipNewlines_subset (subset_of_cons h)

theorem fail_within (hts : ts ⊆ all) (hwanted : wanted ≠ .number) :
    Within stop all (fail stop wanted ts : Except Halt (α × List Token)) := by
  refine ⟨?_, fun h => absurd h hwanted⟩
  cases ts with
  | nil => exact List.mem_append_right all (List.mem_singleton_self stop)
  | cons t ts => exact List.mem_append_left [stop] (hts List.mem_cons_self)

theorem expect_within {kind : Kind} (hts : ts ⊆ all) (hwanted : wanted ≠ .number) :
    Within stop all (expect stop kind wanted ts) := by
  unfold expect
  split
  · exact fail_within hts hwanted
  · split
    · exact subset_of_cons hts
    · exact fail_within hts hwanted

theorem parameters_within (hts : ts ⊆ all) : Within stop all (parameters stop ts) := by
  fun_induction parameters stop ts with
  | case1 => exact fail_within hts (by decide)
  | case2 t hkind => exact List.nil_subset all
  | case3 t hkind c rest hcomma ih =>
      exact (ih (subset_of_cons (subset_of_cons hts))).bind fun _ _ hrest => hrest
  | case4 t hkind c rest hcomma => exact subset_of_cons hts
  | case5 t ts hkind => exact fail_within hts (by decide)

theorem statementEnd_within {inBlock : Bool} {x : Except Halt (α × List Token)} (hts : ts ⊆ all)
    (hx : Within stop all x) : Within stop all (statementEnd stop inBlock ts >>= fun _ => x) := by
  have hfail : Within stop all ((fail stop .separator ts : Except Halt Unit) >>= fun _ => x) :=
    fail_within (α := α) hts (by decide)
  unfold statementEnd
  split
  · exact hx
  · exact hx
  · exact hx
  · split
    · exact hx
    · exact hfail
  · exact hfail

end Steps

variable {stop : Token} {all : List Token}

/-! ## Expressions -/

mutual

theorem expression_within : ∀ (n : Nat) {ts : List Token}, ts ⊆ all →
    Within stop all (expression stop n ts)
  | 0, _, _ => trivial
  | n + 1, ts, hts => by
      unfold expression
      refine (binary_within n levels true hts).bind fun _ ts₁ hts₁ => ?_
      exact (pipelineTail_within n hts₁).bind fun _ _ hts₂ => hts₂

theorem pipelineTail_within : ∀ (n : Nat) {ts : List Token}, ts ⊆ all →
    Within stop all (pipelineTail stop n ts)
  | 0, _, _ => trivial
  | n + 1, ts, hts => by
      unfold pipelineTail
      split
      · exact hts
      · rename_i hpipe
        refine (binary_within n levels true (afterPipe_subset hts hpipe)).bind fun _ ts₁ hts₁ => ?_
        exact (pipelineTail_within n hts₁).bind fun _ _ hts₂ => hts₂

theorem binary_within : ∀ (n : Nat) (ops : List (List BinOp)) (commands : Bool) {ts : List Token},
    ts ⊆ all → Within stop all (binary stop n ops commands ts)
  | 0, _, _, _, _ => trivial
  | n + 1, [], commands, ts, hts => unary_within n commands hts
  | n + 1, ops :: tighter, commands, ts, hts => by
      unfold binary
      exact (binary_within n tighter commands hts).bind fun _ _ hts₁ =>
        binaryTail_within n ops tighter commands _ _ hts₁

theorem binaryTail_within : ∀ (n : Nat) (ops : List BinOp) (tighter : List (List BinOp))
    (commands : Bool) (left : Expr) (isCommand : Bool) {ts : List Token}, ts ⊆ all →
    Within stop all (binaryTail stop n ops tighter commands left isCommand ts)
  | 0, _, _, _, _, _, _, _ => trivial
  | n + 1, ops, tighter, commands, left, isCommand, ts, hts => by
      unfold binaryTail
      split
      · exact hts
      · rename_i hop
        exact (binary_within n tighter commands (afterOperator_subset hts hop)).bind
          fun _ _ hts₁ => binaryTail_within n ops tighter commands _ _ hts₁

theorem unary_within : ∀ (n : Nat) (commands : Bool) {ts : List Token}, ts ⊆ all →
    Within stop all (unary stop n commands ts)
  | 0, _, _, _ => trivial
  | n + 1, commands, [], hts => call_within n commands hts
  | n + 1, commands, t :: ts, hts => by
      simp only [unary]
      split
      · exact (unary_within n commands (subset_of_cons hts)).bind fun _ _ hts₁ => hts₁
      · exact call_within n commands hts

theorem call_within : ∀ (n : Nat) (commands : Bool) {ts : List Token}, ts ⊆ all →
    Within stop all (call stop n commands ts)
  | 0, _, _, _ => trivial
  | n + 1, commands, ts, hts => by
      unfold call
      refine (primary_within n hts).bind fun head ts₁ hts₁ => ?_
      refine (suffixes_within n head hts₁).bind fun e ts₂ hts₂ => ?_
      dsimp only
      split
      · exact (commandArguments_within n hts₂).bind fun _ _ hts₃ => hts₃
      · exact hts₂

theorem suffixes_within : ∀ (n : Nat) (e : Expr) {ts : List Token}, ts ⊆ all →
    Within stop all (suffixes stop n e ts)
  | 0, _, _, _ => trivial
  | n + 1, e, [], hts => hts
  | n + 1, e, t :: ts, hts => by
      simp only [suffixes]
      split
      · exact (expect_within (subset_of_cons hts) (by decide)).bind fun _ _ hts₁ =>
          suffixes_within n _ hts₁
      split
      · exact (arguments_within n (subset_of_cons hts)).bind fun _ _ hts₁ =>
          suffixes_within n _ hts₁
      · exact hts

theorem commandArguments_within : ∀ (n : Nat) {ts : List Token}, ts ⊆ all →
    Within stop all (commandArguments stop n ts)
  | 0, _, _ => trivial
  | n + 1, ts, hts => by
      unfold commandArguments
      refine (binary_within n levels false hts).bind fun _ ts₁ hts₁ => ?_
      have hcomma := skipComma_subset hts₁
      dsimp only
      split
      · exact (commandArguments_within n hcomma).bind fun _ _ hts₂ => hts₂
      · exact hcomma

theorem arguments_within : ∀ (n : Nat) {ts : List Token}, ts ⊆ all →
    Within stop all (arguments stop n ts)
  | 0, _, _ => trivial
  | n + 1, ts, hts => by
      have hskip := skipNewlines_subset hts
      unfold arguments
      split
      · exact argumentList_within n (List.nil_subset all)
      · rename_i heq
        rw [heq] at hskip
        split
        · exact subset_of_cons hskip
        · exact argumentList_within n hskip

theorem argumentList_within : ∀ (n : Nat) {ts : List Token}, ts ⊆ all →
    Within stop all (argumentList stop n ts)
  | 0, _, _ => trivial
  | n + 1, ts, hts => by
      unfold argumentList
      refine (expression_within n hts).bind fun _ ts₁ hts₁ => ?_
      have hskip := skipNewlines_subset hts₁
      dsimp only
      split
      · exact (argumentList_within n (skipNewlines_subset (drop_subset 1 hskip))).bind
          fun _ _ hts₂ => hts₂
      · exact (expect_within hskip (by decide)).bind fun _ _ hts₂ => hts₂

theorem primary_within : ∀ (n : Nat) {ts : List Token}, ts ⊆ all →
    Within stop all (primary stop n ts)
  | 0, _, _ => trivial
  | n + 1, [], hts => fail_within hts (by decide)
  | n + 1, t :: ts, hts => by
      have hrest := subset_of_cons hts
      simp only [primary]
      split
      · rename_i hkind
        split
        · exact hrest
        · -- The only place where a number is missed.
          rename_i hread
          have ht : t ∈ all := hts List.mem_cons_self
          exact ⟨List.mem_append_left [stop] ht, fun _ => ⟨ht, hkind, hread⟩⟩
      · exact hrest
      · exact hrest
      · exact hrest
      · refine (expression_within n (skipNewlines_subset hrest)).bind fun _ ts₁ hts₁ => ?_
        exact (expect_within (skipNewlines_subset hts₁) (by decide)).bind fun _ _ hts₂ => hts₂
      · exact fail_within hts (by decide)

end

/-! ## Statements -/

mutual

theorem statement_within : ∀ (n : Nat) {ts : List Token}, ts ⊆ all →
    Within stop all (statement stop n ts)
  | 0, _, _ => trivial
  | n + 1, [], hts => by
      simp only [statement]
      exact (expression_within n hts).bind fun _ _ hts₁ => hts₁
  | n + 1, t :: ts, hts => by
      have hrest := subset_of_cons hts
      simp only [statement]
      split
      · refine (expect_within hrest (by decide)).bind fun _ ts₁ hts₁ => ?_
        exact (statement_within n (skipNewlines_subset hts₁)).bind fun _ _ hts₂ => hts₂
      · exact block_within n hts
      · refine (expect_within hrest (by decide)).bind fun _ ts₁ hts₁ => ?_
        dsimp only
        split
        · exact (expression_within n (skipNewlines_subset (drop_subset 1 hts₁))).bind
            fun _ _ hts₂ => hts₂
        · exact hts₁
      · exact branch_within n hrest
      · refine (expression_within n hrest).bind fun _ ts₁ hts₁ => ?_
        exact (block_within n (skipNewlines_subset hts₁)).bind fun _ _ hts₂ => hts₂
      · refine (expect_within hrest (by decide)).bind fun name ts₁ hts₁ => ?_
        refine (expect_within hts₁ (by decide)).bind fun _ ts₂ hts₂ => ?_
        have hbody : ∀ (params : List String) (ts₃ : List Token), ts₃ ⊆ all → Within stop all (do
            let (_, ts₄) ← expect stop .rightParen .parametersEnd ts₃
            let (body, ts₅) ← block stop n (skipNewlines ts₄)
            return (Stmt.function name.text params body, ts₅)) := by
          intro params ts₃ hts₃
          refine (expect_within hts₃ (by decide)).bind fun _ ts₄ hts₄ => ?_
          exact (block_within n (skipNewlines_subset hts₄)).bind fun _ _ hts₅ => hts₅
        dsimp only
        split
        · exact hbody [] ts₂ hts₂
        · exact (parameters_within hts₂).bind hbody
      · split
        · exact hrest
        · exact hrest
        · exact hrest
        · exact hrest
        · exact (expression_within n hrest).bind fun _ _ hts₁ => hts₁
      · exact (expression_within n hts).bind fun _ _ hts₁ => hts₁

theorem branch_within : ∀ (n : Nat) {ts : List Token}, ts ⊆ all →
    Within stop all (branch stop n ts)
  | 0, _, _ => trivial
  | n + 1, ts, hts => by
      unfold branch
      refine (expression_within n hts).bind fun _ ts₁ hts₁ => ?_
      refine (block_within n (skipNewlines_subset hts₁)).bind fun _ ts₂ hts₂ => ?_
      have hrest := skipNewlines_subset (drop_subset 1 (skipNewlines_subset hts₂))
      dsimp only
      split
      · split
        · exact (branch_within n (drop_subset 1 hrest)).bind fun _ _ hts₃ => hts₃
        · exact (block_within n hrest).bind fun _ _ hts₃ => hts₃
      · exact hts₂

theorem block_within : ∀ (n : Nat) {ts : List Token}, ts ⊆ all →
    Within stop all (block stop n ts)
  | 0, _, _ => trivial
  | n + 1, ts, hts => by
      unfold block
      refine (expect_within hts (by decide)).bind fun _ ts₁ hts₁ => ?_
      exact (blockTail_within n (skipSeparators_subset hts₁)).bind fun _ _ hts₂ => hts₂

theorem blockTail_within : ∀ (n : Nat) {ts : List Token}, ts ⊆ all →
    Within stop all (blockTail stop n ts)
  | 0, _, _ => trivial
  | n + 1, [], hts => fail_within hts (by decide)
  | n + 1, t :: ts, hts => by
      simp only [blockTail]
      split
      · exact subset_of_cons hts
      · refine (statement_within n hts).bind fun _ ts₁ hts₁ => ?_
        refine statementEnd_within hts₁ ?_
        exact (blockTail_within n (skipSeparators_subset hts₁)).bind fun _ _ hts₂ => hts₂

end

theorem statements_within : ∀ (n : Nat) {ts : List Token}, ts ⊆ all →
    Within stop all (statements stop n ts)
  | 0, _, _ => trivial
  | n + 1, [], hts => hts
  | n + 1, t :: ts, hts => by
      simp only [statements]
      refine (statement_within n hts).bind fun _ ts₁ hts₁ => ?_
      refine statementEnd_within hts₁ ?_
      exact (statements_within n (skipSeparators_subset hts₁)).bind fun _ _ hts₂ => hts₂

end Parse

/-! ## Scripts -/

open Parse

theorem Stream.run_blames {α : Type} {s : Stream} {e : SyntaxError}
    {parser : Token → Nat → List Token → Except Halt (α × List Token)}
    (hparser : ∀ n, Within s.stop s.tokens (parser s.stop n s.tokens))
    (h : s.run parser = .error e) : Blames s.stop s.tokens e := by
  have hwithin := hparser (depthBound s.tokens)
  unfold Stream.run at h
  match hrun : parser s.stop (depthBound s.tokens) s.tokens with
  | .ok (a, rest) =>
      rw [hrun] at h
      cases h
  | .error (.mismatch e') =>
      rw [hrun] at h hwithin
      cases h
      exact hwithin
  | .error .spent =>
      rw [hrun] at h
      cases h
      have hne : Wanted.expression ≠ .number := by decide
      exact ⟨List.mem_append_right _ (List.mem_singleton_self _), fun h => absurd h hne⟩

theorem parse_blames {ts : List Token} {e : SyntaxError} (h : parse ts = .error e) :
    Blames (Stream.ofTokens ts).stop (Stream.ofTokens ts).tokens e := by
  refine Stream.run_blames (fun n => ?_) h
  exact (statements_within n (skipSeparators_subset (List.Subset.refl _))).bind
    fun _ _ hrest => hrest

theorem parseStatement_blames {ts : List Token} {e : SyntaxError}
    (h : parseStatement ts = .error e) :
    Blames (Stream.ofTokens ts).stop (Stream.ofTokens ts).tokens e :=
  Stream.run_blames (fun n => statement_within n (List.Subset.refl _)) h

theorem parseExpression_blames {ts : List Token} {e : SyntaxError}
    (h : parseExpression ts = .error e) :
    Blames (Stream.ofTokens ts).stop (Stream.ofTokens ts).tokens e :=
  Stream.run_blames (fun n => expression_within n (List.Subset.refl _)) h

theorem Stream.ofTokens_subset (ts : List Token) : (Stream.ofTokens ts).tokens ⊆ ts :=
  List.Subset.trans (List.takeWhile_subset _) (List.filter_subset_self _)

/-- No number is missed where the number tokens denote numbers. -/
theorem Parse.Blames.describe_ne_number {ts : List Token} {e : SyntaxError}
    (h : Blames (Stream.ofTokens ts).stop (Stream.ofTokens ts).tokens e)
    (hts : ∀ t ∈ ts, Lexical t) : e.wanted.describe ≠ "number" := by
  have hall : ∀ wanted : Wanted, wanted.describe = "number" → wanted = .number := by
    intro wanted
    cases wanted <;> decide
  intro hnumber
  obtain ⟨hfound, hkind, hread⟩ := h.number (hall _ hnumber)
  have hlexical := hts _ (Stream.ofTokens_subset ts hfound)
  exact (hlexical.number hkind).read?_ne_none hread

/-- The hotkey has a key, also in its canonical text. -/
def HasKey (text : String) (_ : Nat) : Prop :=
  (Hotkey.parse text).key ≠ "" ∧ normalize text ≠ ""

theorem Lexical.hasKey {t : Token} (h : Lexical t) (hkind : t.kind = .hotkey) (line : Nat) :
    HasKey t.text line := by
  obtain ⟨hne, hblank⟩ := h.hotkey hkind
  have htrim : Text.trim t.text.toList ≠ [] := by
    rw [Text.trim_eq_self hblank]
    simpa using hne
  have hkey := Hotkey.parse_key_ne_nil htrim
  refine ⟨by simpa using hkey, fun hempty => ?_⟩
  have htext : (normalize t.text).toList ≠ [] := by
    rw [normalize, Hotkey.toList_text hkey]
    exact Spelling.chain_ne_nil _ hkey
  exact htext (by rw [hempty]; rfl)

theorem KeyIn.hasKey {ts all : List Token} {text : String} {line : Nat} (h : KeyIn [] ts text line)
    (hts : ts ⊆ all) (hall : ∀ t ∈ all, Lexical t) : HasKey text line := by
  obtain ⟨before, t, between, u, after, rfl, -, hkind, -, rfl, -⟩ := h
  exact (hall t (hts (by simp))).hasKey hkind line

/-- **The lexical grammar of scripts**: every token is spelled as its kind asks for. So no parser
misses a number in a script, and no binding is for a hotkey without a key. -/
theorem script_lexis (keepComments : Bool) (source : String) :
    (∀ t ∈ tokens keepComments source, Lexical t) ∧
    (∀ e, parse (tokens keepComments source) = .error e → e.wanted.describe ≠ "number") ∧
    (∀ e, parseStatement (tokens keepComments source) = .error e →
      e.wanted.describe ≠ "number") ∧
    (∀ e, parseExpression (tokens keepComments source) = .error e →
      e.wanted.describe ≠ "number") ∧
    (∀ p, parse (tokens keepComments source) = .ok p → ∀ s ∈ p.statements, s.WellFormed HasKey) ∧
    ∀ s, parseStatement (tokens keepComments source) = .ok s → s.WellFormed HasKey := by
  have hall : ∀ t ∈ tokens keepComments source, Lexical t := fun t => lexical_of_mem_tokens
  have hsubset := Stream.ofTokens_subset (tokens keepComments source)
  refine ⟨hall, fun e he => ?_, fun e he => ?_, fun e he => ?_, fun p hp s hs => ?_, fun s hs => ?_⟩
  · exact (parse_blames he).describe_ne_number hall
  · exact (parseStatement_blames he).describe_ne_number hall
  · exact (parseExpression_blames he).describe_ne_number hall
  · refine ((parse_eq_ok_iff.1 hp).wellFormed s hs).mono fun text line hkey => ?_
    exact hkey.hasKey (skipSeparators_subset hsubset) hall
  · obtain ⟨rest, hrun⟩ := Stream.run_eq_ok.1 hs
    exact (statement_sound hrun).wellFormed.mono fun text line hkey => hkey.hasKey hsubset hall

end Chord
