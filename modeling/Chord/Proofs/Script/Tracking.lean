import Chord.Proofs.Script.Blame
import Chord.Proofs.Script.Cursor
import Chord.Proofs.Script.FirstError
import Mathlib.Logic.Relation

/-!
# A cursor reads what a list parser reads

**Input.** A tape, and the stream that it shows: the tokens before the first end token, and that
one.

**Algorithm.** A cursor in the stream stands for the tokens that are left there, and a parser does
the same to both. The arguments of a command are read with the flag of the cursor turned off, which
is how the parsers on lists are told so. A command is recognized by where it ended, and for this
every operand has to end behind the last command inside of it: closing parentheses see to it.

**Results.** A parser with a cursor agrees with its companion on lists, however much further it may
descend (`Tape.Shows.expression_agrees`, `Tape.Shows.statement_agrees` and their companions).
`parse_progress`: reading any list of tokens moves on and ends.
-/

namespace Chord

open Parse

/-- The tokens that are left at a cursor. -/
def Stream.rest (s : Stream) (c : Cursor) : List Token :=
  s.tokens.drop c.position

namespace Tape

/-- A tape shows a stream: the tokens before its first end token, and that one. -/
structure Shows (tape : Tape) (s : Stream) : Prop where
  split : ∃ unseen, tape.tokens = s.tokens ++ s.stop :: unseen
  plain : ∀ t ∈ s.tokens, t.kind ≠ .eof
  stop : s.stop.kind = .eof

end Tape

/-- A cursor that stands in the stream or at its end, behind the last command. -/
structure Stream.Stands (s : Stream) (commands : Bool) (c : Cursor) : Prop where
  inside : c.position ≤ s.tokens.length
  commands : c.commands = commands
  reached : ∀ e ∈ c.commandEnd, e ≤ c.position

/-- A cursor that has moved on since the last command. -/
structure Stream.Passed (s : Stream) (commands : Bool) (c : Cursor) : Prop
    extends s.Stands commands c where
  passed : ∀ e ∈ c.commandEnd, e < c.position

theorem Stream.Stands.withCommands {s : Stream} {c : Cursor} {before : Bool}
    (h : s.Stands before c) (commands : Bool) : s.Stands commands (c.withCommands commands) :=
  ⟨h.inside, rfl, h.reached⟩

theorem Stream.Passed.withCommands {s : Stream} {c : Cursor} {before : Bool}
    (h : s.Passed before c) (commands : Bool) : s.Passed commands (c.withCommands commands) :=
  ⟨h.toStands.withCommands commands, h.passed⟩

theorem Stream.Stands.endCommand {s : Stream} {c : Cursor} {commands : Bool}
    (h : s.Stands commands c) : s.Stands true c.endCommand := by
  refine ⟨h.inside, rfl, ?_⟩
  rintro _ ⟨⟩
  exact Nat.le_refl _

namespace Tape

section Looking

variable {tape : Tape} {s : Stream} {commands : Bool} {c : Cursor} {t : Token} {ts : List Token}

/-- The token at the cursor is the first one that is left, or the end token. -/
theorem Shows.current_eq (h : tape.Shows s) (hc : c.position ≤ s.tokens.length) :
    tape.current c = (s.rest c).headD s.stop := by
  obtain ⟨unseen, hsplit⟩ := h.split
  have hlt : c.position < tape.tokens.length := by
    rw [hsplit, List.length_append, List.length_cons]
    omega
  have hcurrent := tape.getElem?_position hlt
  have hdrop : tape.tokens.drop c.position = s.rest c ++ s.stop :: unseen := by
    rw [hsplit, List.drop_append_of_le_length hc]
    rfl
  rw [← List.head?_drop, hdrop] at hcurrent
  cases hrest : s.rest c with
  | nil =>
      rw [hrest] at hcurrent
      exact (Option.some.inj hcurrent).symm
  | cons t ts =>
      rw [hrest] at hcurrent
      exact (Option.some.inj hcurrent).symm

theorem Shows.kind_eq (h : tape.Shows s) (hc : c.position ≤ s.tokens.length) :
    tape.kind c = kindOf (s.rest c) := by
  rw [kind, h.current_eq hc]
  cases s.rest c with
  | nil => exact h.stop
  | cons t ts => rfl

/-- At the end of the stream. -/
theorem Shows.kind_of_nil (h : tape.Shows s) (hc : c.position ≤ s.tokens.length)
    (hrest : s.rest c = []) : tape.kind c = .eof := by
  rw [h.kind_eq hc, hrest]
  rfl

theorem Shows.ne_eof_of_cons (h : tape.Shows s) (hrest : s.rest c = t :: ts) : t.kind ≠ .eof :=
  h.plain t (List.mem_of_mem_drop (hrest ▸ List.mem_cons_self))

theorem Shows.exists_cons {kind : Kind} (h : tape.Shows s) (hc : c.position ≤ s.tokens.length)
    (hkind : tape.kind c = kind) (hne : kind ≠ .eof) :
    ∃ t ts, s.rest c = t :: ts ∧ t.kind = kind :=
  eq_cons_of_kindOf ((h.kind_eq hc).symm.trans hkind) hne

theorem Shows.rest_advance (h : tape.Shows s) (hc : c.position ≤ s.tokens.length) :
    s.rest (tape.advance c) = (s.rest c).tail := by
  have hkind := h.kind_eq hc
  cases hrest : s.rest c with
  | nil =>
      rw [advance, if_pos (by simp [h.kind_of_nil hc hrest]), hrest]
      rfl
  | cons t ts =>
      have hne : tape.kind c ≠ .eof := by
        rw [hkind, hrest]
        exact h.ne_eof_of_cons hrest
      rw [tape.advance_of_ne hne, ← hrest, Stream.rest, Stream.rest, List.tail_drop]

/-- What is at a cursor that is not at the end of the stream. -/
theorem Shows.at_cons (h : tape.Shows s) (hc : c.position ≤ s.tokens.length)
    (hrest : s.rest c = t :: ts) :
    tape.current c = t ∧ tape.kind c = t.kind ∧ s.rest (tape.advance c) = ts := by
  have hcurrent : tape.current c = t := by rw [h.current_eq hc, hrest]; rfl
  exact ⟨hcurrent, by rw [kind, hcurrent], by rw [h.rest_advance hc, hrest]; rfl⟩

theorem Shows.advance_inside (h : tape.Shows s) (hc : c.position ≤ s.tokens.length) :
    (tape.advance c).position ≤ s.tokens.length := by
  by_cases hkind : tape.kind c = .eof
  · rwa [advance, if_pos (by simp [hkind])]
  · rw [tape.advance_of_ne hkind]
    refine Nat.lt_of_le_of_ne hc fun heq => hkind ?_
    exact h.kind_of_nil hc (List.drop_eq_nil_of_le (Nat.le_of_eq heq.symm))

theorem Shows.advance_stands (h : tape.Shows s) (hc : s.Stands commands c) :
    s.Stands commands (tape.advance c) := by
  refine ⟨h.advance_inside hc.inside, (tape.advance_moves c).commands.trans hc.commands, ?_⟩
  intro e he
  refine Nat.le_trans (hc.reached e ?_) (tape.advance_moves c).forward
  unfold advance at he
  split at he <;> exact he

/-- A step forward leaves the last command behind. -/
theorem Shows.advance_passed (h : tape.Shows s) (hc : s.Stands commands c)
    (hkind : tape.kind c ≠ .eof) : s.Passed commands (tape.advance c) := by
  refine ⟨h.advance_stands hc, fun e he => ?_⟩
  rw [tape.advance_of_ne hkind] at he ⊢
  exact Nat.lt_succ_of_le (hc.reached e he)

theorem Shows.rest_skip (h : tape.Shows s) (hc : s.Stands commands c) (skips : Kind → Bool) :
    s.rest (tape.skip skips c) = (s.rest c).dropWhile (fun t => skips t.kind) ∧
      s.Stands commands (tape.skip skips c) := by
  fun_induction skip tape skips c with
  | case1 c hskip ih =>
      obtain ⟨hdrop, hstands⟩ := ih (h.advance_stands hc)
      refine ⟨?_, hstands⟩
      cases hrest : s.rest c with
      | nil => simp [h.kind_of_nil hc.inside hrest] at hskip
      | cons t ts =>
          obtain ⟨-, hkind, hadvance⟩ := h.at_cons hc.inside hrest
          have ht : skips t.kind = true := hkind ▸ (Bool.and_eq_true_iff.1 hskip).1
          rw [hdrop, hadvance, List.dropWhile_cons_of_pos (p := fun t : Token => skips t.kind) ht]
  | case2 c hskip =>
      refine ⟨?_, hc⟩
      cases hrest : s.rest c with
      | nil => rfl
      | cons t ts =>
          obtain ⟨-, hkind, -⟩ := h.at_cons hc.inside hrest
          have ht : ¬skips t.kind = true := fun ht =>
            hskip (by simp [hkind, ht, h.ne_eof_of_cons hrest])
          rw [List.dropWhile_cons_of_neg (p := fun t : Token => skips t.kind) ht]

theorem Shows.rest_skipNewlines (h : tape.Shows s) (hc : s.Stands commands c) :
    s.rest (tape.skipNewlines c) = Parse.skipNewlines (s.rest c) :=
  (h.rest_skip hc _).1

/-- The tokens behind the next one and the newlines after it. -/
theorem Shows.rest_skipNewlines_advance (h : tape.Shows s) (hc : s.Stands commands c) :
    s.rest (tape.skipNewlines (tape.advance c)) = Parse.skipNewlines ((s.rest c).drop 1) := by
  rw [h.rest_skipNewlines (h.advance_stands hc), h.rest_advance hc.inside, List.drop_one]

theorem Shows.skipNewlines_stands (h : tape.Shows s) (hc : s.Stands commands c) :
    s.Stands commands (tape.skipNewlines c) :=
  (h.rest_skip hc _).2

theorem Shows.rest_skipSeparators (h : tape.Shows s) (hc : s.Stands commands c) :
    s.rest (tape.skipSeparators c) = Parse.skipSeparators (s.rest c) :=
  (h.rest_skip hc _).1

theorem Shows.skipSeparators_stands (h : tape.Shows s) (hc : s.Stands commands c) :
    s.Stands commands (tape.skipSeparators c) :=
  (h.rest_skip hc _).2

theorem Shows.kindAfterNewlines_eq (h : tape.Shows s) (hc : s.Stands commands c) :
    tape.kindAfterNewlines c = kindOf (Parse.skipNewlines (s.rest c)) := by
  rw [kindAfterNewlines, h.kind_eq (h.skipNewlines_stands hc).inside, h.rest_skipNewlines hc]

theorem Shows.rest_skipComma (h : tape.Shows s) (hc : s.Stands commands c) :
    s.rest (tape.skipComma c) = Parse.skipComma (s.rest c) ∧
      s.Stands commands (tape.skipComma c) := by
  unfold skipComma
  cases hrest : s.rest c with
  | nil =>
      rw [h.kind_of_nil hc.inside hrest]
      exact ⟨hrest, hc⟩
  | cons t ts =>
      obtain ⟨-, hkind, hadvance⟩ := h.at_cons hc.inside hrest
      rw [hkind, Parse.skipComma]
      split
      · exact ⟨hadvance, h.advance_stands hc⟩
      · exact ⟨hrest, hc⟩

theorem Shows.startsArgument_eq (h : tape.Shows s) (hc : c.position ≤ s.tokens.length) :
    tape.startsArgument c = Parse.startsArgument (s.rest c) := by
  unfold startsArgument
  rw [h.kind_eq hc]
  rfl

theorem Shows.afterPipe_eq (h : tape.Shows s) (hc : s.Stands commands c) :
    Parse.afterPipe? (s.rest c) = (tape.afterPipe? c).map s.rest := by
  have hkind := h.kind_eq hc.inside
  have hnext := h.kindAfterNewlines_eq hc
  unfold afterPipe?
  split
  · rename_i hpipe
    obtain ⟨t, ts, hrest, ht⟩ := h.exists_cons hc.inside (beq_iff_eq.1 hpipe) (by decide)
    refine Grammar.afterPipe?_eq_some.2 ⟨t, ts, ?_, ht, ?_⟩
    · rw [hrest, skipNewlines_cons_of_ne (by rw [ht]; decide)]
    · rw [h.rest_skipNewlines_advance hc, hrest, List.drop_one, List.tail_cons]
  rename_i hpipe
  split
  · rename_i hnewline
    have hfirst := beq_iff_eq.1 (Bool.and_eq_true_iff.1 hnewline).2
    obtain ⟨t, ts, hskip, ht⟩ := eq_cons_of_kindOf (hnext.symm.trans hfirst) (by decide)
    refine Grammar.afterPipe?_eq_some.2 ⟨t, ts, hskip, ht, ?_⟩
    rw [h.rest_skipNewlines_advance (h.skipNewlines_stands hc), h.rest_skipNewlines hc, hskip,
      List.drop_one, List.tail_cons]
  · rename_i hnewline
    refine afterPipe?_eq_none.2 fun hfirst => ?_
    by_cases heq : kindOf (s.rest c) = .newline
    · exact hnewline (by simp [hkind, hnext, heq, hfirst])
    · rw [skipNewlines_of_kindOf_ne heq, ← hkind] at hfirst
      exact hpipe (by simp [hfirst])

theorem Shows.afterPipe_stands {next : Cursor} (h : tape.Shows s) (hc : s.Stands commands c)
    (hpipe : tape.afterPipe? c = some next) : s.Stands commands next := by
  unfold afterPipe? at hpipe
  split at hpipe
  · cases hpipe
    exact h.skipNewlines_stands (h.advance_stands hc)
  · split at hpipe
    · cases hpipe
      exact h.skipNewlines_stands (h.advance_stands (h.skipNewlines_stands hc))
    · cases hpipe

theorem Shows.afterOperator_eq (h : tape.Shows s) (hc : s.Stands commands c) (ops : List BinOp) :
    Parse.afterOperator? ops (s.rest c) = (tape.operator? ops c).map fun op =>
      (op, s.rest (tape.skipNewlines (tape.advance c))) := by
  unfold operator?
  cases hrest : s.rest c with
  | nil =>
      rw [h.kind_of_nil hc.inside hrest]
      split <;> rfl
  | cons t ts =>
      obtain ⟨hcurrent, hkind, hadvance⟩ := h.at_cons hc.inside hrest
      rw [hcurrent, hkind, h.rest_skipNewlines (h.advance_stands hc), hadvance]
      unfold Parse.afterOperator?
      by_cases hoperator : t.kind = .operator
      · simp only [hoperator, BEq.rfl, if_true, Bool.true_and]
        cases BinOp.ofSymbol? t.text with
        | none => rfl
        | some op =>
            dsimp only
            split <;> rfl
      · have hfalse : (t.kind == .operator) = false := by simpa using hoperator
        simp only [hfalse, Bool.false_eq_true, if_false, Bool.false_and]
        split <;> rfl

end Looking

/-! ## Agreement -/

/-- A result of reading with a cursor and one of reading from a list agree, unless the latter ran
out of depth: they stop in the same way, or the tree and the cursor are related to the other tree,
and the same tokens are left. -/
inductive Agrees {α β : Type} (s : Stream) (R : α → β → Cursor → Prop) :
    Except Halt (α × Cursor) → Except Halt (β × List Token) → Prop
  | spent (x : Except Halt (α × Cursor)) : Agrees s R x (.error .spent)
  | halts (halt : Halt) : Agrees s R (.error halt) (.error halt)
  | reads {a : α} {b : β} {c : Cursor} (h : R a b c) : Agrees s R (.ok (a, c)) (.ok (b, s.rest c))

/-- The trees are the same. -/
def Alike {α : Type} (P : Cursor → Prop) (a b : α) (c : Cursor) : Prop :=
  a = b ∧ P c

/-- The end of the last command tells whether the operand is a command, where that matters. -/
def Marks (c : Cursor) (e : Expr) (isCommand : Bool) : Prop :=
  (c.commandEnd == some c.position) = isCommand ∨ ∃ left op right, e = .binary left op right

/-- The operands are the same, and so is what is known about their being commands. -/
def AlikeOperands (P : Cursor → Prop) (e : Expr) (operand : Expr × Bool) (c : Cursor) : Prop :=
  e = operand.1 ∧ P c ∧ Marks c e operand.2

theorem Marks.assemble {c : Cursor} {e : Expr} {isCommand : Bool} (h : Marks c e isCommand)
    (stages : List Expr) :
    assemble e (c.commandEnd == some c.position) stages = assemble e isCommand stages := by
  rcases h with rfl | ⟨left, op, right, rfl⟩
  · rfl
  · cases isCommand <;> cases (c.commandEnd == some c.position) <;> rfl

section Agreement

variable {α β γ δ : Type} {tape : Tape} {s : Stream} {R : α → β → Cursor → Prop}
  {S : γ → δ → Cursor → Prop} {commands : Bool} {c : Cursor}

theorem Agrees.bind {x : Except Halt (α × Cursor)} {y : Except Halt (β × List Token)}
    {f : α × Cursor → Except Halt (γ × Cursor)}
    {g : β × List Token → Except Halt (δ × List Token)}
    (h : Agrees s R x y)
    (hnext : ∀ {a b c}, R a b c → Agrees s S (f (a, c)) (g (b, s.rest c))) :
    Agrees s S (x >>= f) (y >>= g) := by
  cases h with
  | spent x => exact .spent _
  | halts halt => exact .halts halt
  | reads hR => exact hnext hR

/-- Something is made of the tree. -/
theorem Agrees.map {P : Cursor → Prop} {x : Except Halt (α × Cursor)}
    {y : Except Halt (α × List Token)} (h : Agrees s (Alike P) x y) (f : α → γ) :
    Agrees s (Alike P) (x >>= fun result => .ok (f result.1, result.2))
      (y >>= fun result => .ok (f result.1, result.2)) := by
  refine h.bind ?_
  rintro a _ c ⟨rfl, hc⟩
  exact .reads ⟨rfl, hc⟩

/-- A check behind which nothing is read. -/
theorem Agrees.unit {x : Except Halt Unit} {y : Except Halt (α × Cursor)}
    {z : Except Halt (β × List Token)} (h : Agrees s R y z) :
    Agrees s R (x >>= fun _ => y) (x >>= fun _ => z) := by
  cases x with
  | error halt => exact .halts halt
  | ok _ => exact h

theorem Shows.fail_agrees (h : tape.Shows s) (hc : c.position ≤ s.tokens.length)
    (wanted : Wanted) : Agrees s R (tape.fail wanted c) (Parse.fail s.stop wanted (s.rest c)) := by
  rw [fail, h.current_eq hc]
  exact .halts _

theorem Shows.expect_agrees {kind : Kind} (h : tape.Shows s) (hc : s.Stands commands c)
    (hkind : kind ≠ .eof) (wanted : Wanted) :
    Agrees s (Alike (s.Passed commands)) (tape.expect kind wanted c)
      (Parse.expect s.stop kind wanted (s.rest c)) := by
  have hfail : Agrees s (Alike (s.Passed commands)) (tape.fail wanted c)
      (Parse.fail s.stop wanted (s.rest c) : Except Halt (Token × List Token)) :=
    h.fail_agrees hc.inside wanted
  unfold expect
  cases hrest : s.rest c with
  | nil =>
      rw [if_neg (by simpa [h.kind_of_nil hc.inside hrest] using hkind.symm)]
      rwa [hrest] at hfail
  | cons t ts =>
      obtain ⟨hcurrent, hat, hadvance⟩ := h.at_cons hc.inside hrest
      have hpassed := h.advance_passed hc (hat ▸ h.ne_eof_of_cons hrest)
      rw [hrest] at hfail
      rw [hat, Parse.expect]
      split
      · rw [hcurrent, ← hadvance]
        exact .reads ⟨rfl, hpassed⟩
      · exact hfail

theorem Shows.statementEnd_eq (h : tape.Shows s) (hc : c.position ≤ s.tokens.length)
    (inBlock : Bool) :
    tape.statementEnd inBlock c = Parse.statementEnd s.stop inBlock (s.rest c) := by
  unfold statementEnd fail
  rw [h.kind_eq hc, h.current_eq hc]
  rfl

theorem Shows.parameters_agrees (h : tape.Shows s) (hc : s.Stands commands c) :
    Agrees s (Alike (s.Stands commands)) (tape.parameters c)
      (Parse.parameters s.stop (s.rest c)) := by
  fun_induction parameters tape c with
  | case1 c hname hcomma ih =>
      have hnext := h.advance_stands hc
      obtain ⟨t, ts, hrest, ht⟩ := h.exists_cons hc.inside (beq_iff_eq.1 hname) (by decide)
      obtain ⟨u, us, hrest', hu⟩ := h.exists_cons hnext.inside (beq_iff_eq.1 hcomma) (by decide)
      obtain ⟨hcurrent, -, hadvance⟩ := h.at_cons hc.inside hrest
      obtain ⟨-, -, hadvance'⟩ := h.at_cons hnext.inside hrest'
      rw [hrest, ← hadvance, hrest', Parse.parameters, if_pos (by simp [ht]),
        if_pos (by simp [hu]), hcurrent, ← hadvance']
      exact (ih (h.advance_stands hnext)).map (t.text :: ·)
  | case2 c hname hcomma =>
      have hnext := h.advance_stands hc
      obtain ⟨t, ts, hrest, ht⟩ := h.exists_cons hc.inside (beq_iff_eq.1 hname) (by decide)
      obtain ⟨hcurrent, -, hadvance⟩ := h.at_cons hc.inside hrest
      have hread : Parse.parameters s.stop (t :: ts) = .ok ([t.text], ts) := by
        rw [h.kind_eq hnext.inside, hadvance] at hcomma
        cases ts with
        | nil => rw [Parse.parameters, if_pos (by simp [ht])]
        | cons u us =>
            rw [kindOf_cons] at hcomma
            rw [Parse.parameters, if_pos (by simp [ht]), if_neg hcomma]
      rw [hrest, hread, hcurrent, ← hadvance]
      exact .reads ⟨rfl, hnext⟩
  | case3 c hname =>
      have hread : Parse.parameters s.stop (s.rest c) =
          Parse.fail s.stop .parameterName (s.rest c) := by
        rw [h.kind_eq hc.inside] at hname
        cases hrest : s.rest c with
        | nil => rw [Parse.parameters]
        | cons t ts =>
            rw [hrest] at hname
            unfold Parse.parameters
            exact if_neg hname
      rw [hread]
      exact h.fail_agrees hc.inside .parameterName

/-- Commands are on in parentheses, and behind them as they were before. -/
theorem Agrees.withCommands {x : Except Halt (α × Cursor)} {y : Except Halt (α × List Token)}
    (h : Agrees s (Alike (s.Passed true)) x y) (commands : Bool) :
    Agrees s (Alike (s.Passed commands))
      (x >>= fun result => .ok (result.1, result.2.withCommands commands)) y := by
  cases h with
  | spent x => exact .spent _
  | halts halt => exact .halts halt
  | @reads a b c hR =>
      obtain ⟨rfl, hc⟩ := hR
      exact .reads (c := c.withCommands commands) ⟨rfl, hc.withCommands commands⟩

end Agreement

section Tracking

variable {tape : Tape} {s : Stream} {k : Nat}

mutual

theorem Shows.expression_agrees (h : tape.Shows s) : ∀ {n : Nat} {c : Cursor},
    s.Stands true c → Agrees s (Alike (s.Stands true)) (tape.expression (k + n) c)
      (Parse.expression s.stop n (s.rest c))
  | 0, _, _ => .spent _
  | n + 1, c, hc => by
      unfold expression Parse.expression
      refine (h.binary_agrees hc).bind ?_
      rintro head ⟨_, isCommand⟩ c₁ ⟨rfl, hc₁, hmarks⟩
      refine (h.pipelineTail_agrees hc₁).bind ?_
      rintro stages _ c₂ ⟨rfl, hc₂⟩
      exact .reads ⟨hmarks.assemble stages, hc₂⟩

theorem Shows.pipelineTail_agrees (h : tape.Shows s) : ∀ {n : Nat} {c : Cursor},
    s.Stands true c → Agrees s (Alike (s.Stands true)) (tape.pipelineTail (k + n) c)
      (Parse.pipelineTail s.stop n (s.rest c))
  | 0, _, _ => .spent _
  | n + 1, c, hc => by
      unfold pipelineTail Parse.pipelineTail
      rw [h.afterPipe_eq hc]
      cases hpipe : tape.afterPipe? c with
      | none => exact .reads ⟨rfl, hc⟩
      | some next =>
          refine (h.binary_agrees (h.afterPipe_stands hc hpipe)).bind ?_
          rintro stage ⟨_, isCommand⟩ c₁ ⟨rfl, hc₁, -⟩
          exact (h.pipelineTail_agrees hc₁).map (stage :: ·)

theorem Shows.binary_agrees (h : tape.Shows s) : ∀ {n : Nat} {ops : List (List BinOp)}
    {commands : Bool} {c : Cursor}, s.Stands commands c →
    Agrees s (AlikeOperands (s.Stands commands)) (tape.binary (k + n) ops c)
      (Parse.binary s.stop n ops commands (s.rest c))
  | 0, _, _, _, _ => .spent _
  | n + 1, [], commands, c, hc => h.unary_agrees hc
  | n + 1, ops :: tighter, commands, c, hc => by
      unfold binary Parse.binary
      refine (h.binary_agrees hc).bind ?_
      rintro left ⟨_, isCommand⟩ c₁ ⟨rfl, hc₁, hmarks⟩
      exact h.binaryTail_agrees hc₁ hmarks

theorem Shows.binaryTail_agrees (h : tape.Shows s) : ∀ {n : Nat} {ops : List BinOp}
    {tighter : List (List BinOp)} {commands isCommand : Bool} {left : Expr} {c : Cursor},
    s.Stands commands c → Marks c left isCommand →
    Agrees s (AlikeOperands (s.Stands commands)) (tape.binaryTail (k + n) ops tighter left c)
      (Parse.binaryTail s.stop n ops tighter commands left isCommand (s.rest c))
  | 0, _, _, _, _, _, _, _, _ => .spent _
  | n + 1, ops, tighter, commands, isCommand, left, c, hc, hmarks => by
      unfold binaryTail Parse.binaryTail
      rw [h.afterOperator_eq hc]
      cases tape.operator? ops c with
      | none => exact .reads ⟨rfl, hc, hmarks⟩
      | some op =>
          refine (h.binary_agrees (h.skipNewlines_stands (h.advance_stands hc))).bind ?_
          rintro right ⟨_, _⟩ c₁ ⟨rfl, hc₁, -⟩
          exact h.binaryTail_agrees hc₁ (.inr ⟨left, op, right, rfl⟩)

theorem Shows.unary_agrees (h : tape.Shows s) : ∀ {n : Nat} {commands : Bool} {c : Cursor},
    s.Stands commands c →
    Agrees s (AlikeOperands (s.Stands commands)) (tape.unary (k + n) c)
      (Parse.unary s.stop n commands (s.rest c))
  | 0, _, _, _ => .spent _
  | n + 1, commands, c, hc => by
      have hcall := h.call_agrees (n := n) hc
      unfold unary
      cases hrest : s.rest c with
      | nil =>
          rw [hrest] at hcall
          rw [h.kind_of_nil hc.inside hrest]
          exact hcall
      | cons t ts =>
          obtain ⟨hcurrent, hkind, hadvance⟩ := h.at_cons hc.inside hrest
          rw [hrest] at hcall
          rw [hcurrent, hkind]
          simp only [Parse.unary]
          split
          · rw [← hadvance]
            refine (h.unary_agrees (h.advance_stands hc)).bind ?_
            rintro operand ⟨_, _⟩ c₁ ⟨rfl, hc₁, -⟩
            exact .reads ⟨rfl, hc₁, .inr ⟨_, _, _, rfl⟩⟩
          · exact hcall

theorem Shows.call_agrees (h : tape.Shows s) : ∀ {n : Nat} {commands : Bool} {c : Cursor},
    s.Stands commands c →
    Agrees s (AlikeOperands (s.Stands commands)) (tape.call (k + n) c)
      (Parse.call s.stop n commands (s.rest c))
  | 0, _, _, _ => .spent _
  | n + 1, commands, c, hc => by
      unfold call Parse.call
      refine (h.primary_agrees hc).bind ?_
      rintro head _ c₁ ⟨rfl, hc₁⟩
      refine (h.suffixes_agrees hc₁).bind ?_
      rintro e _ c₂ ⟨rfl, hc₂⟩
      dsimp only
      rw [hc₂.commands, h.startsArgument_eq hc₂.inside]
      split
      · rename_i hcommand
        obtain rfl : commands = true :=
          (Bool.and_eq_true_iff.1 (Bool.and_eq_true_iff.1 hcommand).1).1
        refine (h.commandArguments_agrees (hc₂.toStands.withCommands false)).bind ?_
        rintro args _ c₃ ⟨rfl, hc₃⟩
        exact .reads (c := c₃.endCommand) ⟨rfl, hc₃.endCommand, .inl (beq_self_eq_true _)⟩
      · -- The last command ended before the operand did, so this is none.
        have hnone : (c₂.commandEnd == some c₂.position) = false := by
          simpa using fun heq => Nat.lt_irrefl _ (hc₂.passed _ heq)
        exact .reads ⟨rfl, hc₂.toStands, .inl hnone⟩

theorem Shows.suffixes_agrees (h : tape.Shows s) : ∀ {n : Nat} {commands : Bool} {e : Expr}
    {c : Cursor}, s.Passed commands c →
    Agrees s (Alike (s.Passed commands)) (tape.suffixes (k + n) e c)
      (Parse.suffixes s.stop n e (s.rest c))
  | 0, _, _, _, _ => .spent _
  | n + 1, commands, e, c, hc => by
      have hnil : Agrees s (Alike (s.Passed commands)) (.ok (e, c)) (.ok (e, s.rest c)) :=
        .reads ⟨rfl, hc⟩
      unfold suffixes
      cases hrest : s.rest c with
      | nil =>
          rw [hrest] at hnil
          rw [h.kind_of_nil hc.inside hrest]
          exact hnil
      | cons t ts =>
          obtain ⟨-, hkind, hadvance⟩ := h.at_cons hc.inside hrest
          rw [hrest] at hnil
          rw [hkind]
          simp only [Parse.suffixes, ← hadvance]
          split
          · refine (h.expect_agrees (h.advance_stands hc.toStands) (by decide) _).bind ?_
            rintro property _ c₁ ⟨rfl, hc₁⟩
            exact h.suffixes_agrees hc₁
          split
          · refine (h.arguments_agrees hc.toStands).bind ?_
            rintro args _ c₁ ⟨rfl, hc₁⟩
            exact h.suffixes_agrees hc₁
          · rwa [hadvance]

theorem Shows.commandArguments_agrees (h : tape.Shows s) : ∀ {n : Nat} {c : Cursor},
    s.Stands false c →
    Agrees s (Alike (s.Stands false)) (tape.commandArguments (k + n) c)
      (Parse.commandArguments s.stop n (s.rest c))
  | 0, _, _ => .spent _
  | n + 1, c, hc => by
      unfold commandArguments Parse.commandArguments
      refine (h.binary_agrees hc).bind ?_
      rintro arg ⟨_, _⟩ c₁ ⟨rfl, hc₁, -⟩
      obtain ⟨hrest, hcomma⟩ := h.rest_skipComma hc₁
      dsimp only
      rw [← hrest, h.startsArgument_eq hcomma.inside]
      split
      · exact (h.commandArguments_agrees hcomma).map (arg :: ·)
      · exact .reads ⟨rfl, hcomma⟩

theorem Shows.arguments_agrees (h : tape.Shows s) : ∀ {n : Nat} {commands : Bool} {c : Cursor},
    s.Stands commands c →
    Agrees s (Alike (s.Passed commands)) (tape.arguments (k + n) c)
      (Parse.arguments s.stop n (s.rest (tape.advance c)))
  | 0, _, _, _ => .spent _
  | n + 1, commands, c, hc => by
      have hopen := (h.advance_stands hc).withCommands true
      have hinside := h.skipNewlines_stands hopen
      have hlist := (h.argumentList_agrees (n := n) hinside).withCommands commands
      have hskip : Parse.skipNewlines (s.rest (tape.advance c)) =
          s.rest (tape.skipNewlines ((tape.advance c).withCommands true)) :=
        (h.rest_skipNewlines hopen).symm
      unfold arguments Parse.arguments
      dsimp only
      rw [hc.commands, hskip]
      generalize tape.skipNewlines ((tape.advance c).withCommands true) = inside at *
      cases hrest : s.rest inside with
      | nil =>
          rw [hrest] at hlist
          rw [h.kind_of_nil hinside.inside hrest]
          exact hlist
      | cons t ts =>
          obtain ⟨-, hkind, hadvance⟩ := h.at_cons hinside.inside hrest
          rw [hrest] at hlist
          dsimp only
          rw [hkind]
          split
          · have hclosed := h.advance_passed hinside (hkind ▸ h.ne_eof_of_cons hrest)
            rw [← hadvance]
            exact .reads (c := (tape.advance inside).withCommands commands)
              ⟨rfl, hclosed.withCommands commands⟩
          · exact hlist

theorem Shows.argumentList_agrees (h : tape.Shows s) : ∀ {n : Nat} {c : Cursor},
    s.Stands true c →
    Agrees s (Alike (s.Passed true)) (tape.argumentList (k + n) c)
      (Parse.argumentList s.stop n (s.rest c))
  | 0, _, _ => .spent _
  | n + 1, c, hc => by
      unfold argumentList Parse.argumentList
      refine (h.expression_agrees hc).bind ?_
      rintro arg _ c₁ ⟨rfl, hc₁⟩
      have hskip := h.skipNewlines_stands hc₁
      dsimp only
      rw [← h.rest_skipNewlines hc₁, h.kind_eq hskip.inside]
      split
      · rw [← h.rest_skipNewlines_advance hskip]
        have hnext := h.skipNewlines_stands (h.advance_stands hskip)
        exact (h.argumentList_agrees hnext).map (arg :: ·)
      · exact (h.expect_agrees hskip (by decide) _).map (fun _ => [arg])

theorem Shows.primary_agrees (h : tape.Shows s) : ∀ {n : Nat} {commands : Bool} {c : Cursor},
    s.Stands commands c →
    Agrees s (Alike (s.Passed commands)) (tape.primary (k + n) c)
      (Parse.primary s.stop n (s.rest c))
  | 0, _, _, _ => .spent _
  | n + 1, commands, c, hc => by
      have hfail : ∀ wanted, Agrees s (Alike (s.Passed commands)) (tape.fail wanted c)
          (Parse.fail s.stop wanted (s.rest c) : Except Halt (Expr × List Token)) :=
        h.fail_agrees hc.inside
      unfold primary
      cases hrest : s.rest c with
      | nil =>
          rw [hrest] at hfail
          rw [h.kind_of_nil hc.inside hrest]
          exact hfail .expression
      | cons t ts =>
          obtain ⟨hcurrent, hkind, hadvance⟩ := h.at_cons hc.inside hrest
          have hnext := h.advance_passed hc (hkind ▸ h.ne_eof_of_cons hrest)
          have hread : ∀ e : Expr, Agrees s (Alike (s.Passed commands)) (.ok (e, tape.advance c))
              (.ok (e, ts)) := by
            intro e
            rw [← hadvance]
            exact .reads ⟨rfl, hnext⟩
          rw [hrest] at hfail
          rw [hkind, hcurrent]
          simp only [Parse.primary]
          generalize t.kind = kind
          cases kind with
          | number =>
              dsimp only
              cases Decimal.read? t.text.toList with
              | none => exact hfail .number
              | some value => exact hread _
          | string => exact hread _
          | hotkey => exact hread _
          | identifier => exact hread _
          | leftParen =>
              have hopen := hnext.toStands.withCommands true
              have hskip : Parse.skipNewlines ts =
                  s.rest (tape.skipNewlines ((tape.advance c).withCommands true)) := by
                rw [h.rest_skipNewlines hopen, ← hadvance]
                rfl
              dsimp only
              rw [hc.commands, hskip]
              refine (h.expression_agrees (h.skipNewlines_stands hopen)).bind ?_
              rintro e _ c₁ ⟨rfl, hc₁⟩
              have hback := hc₁.withCommands commands
              have hskip₁ : Parse.skipNewlines (s.rest c₁) =
                  s.rest (tape.skipNewlines (c₁.withCommands commands)) :=
                (h.rest_skipNewlines hback).symm
              dsimp only
              rw [hskip₁]
              exact (h.expect_agrees (h.skipNewlines_stands hback) (by decide) _).map (fun _ => e)
          | _ => exact hfail .expression

end

theorem Shows.functionBody_agrees (h : tape.Shows s) {n : Nat}
    (hblock : ∀ {c : Cursor}, s.Stands true c → Agrees s (Alike (s.Stands true))
      (tape.block (k + n) c) (Parse.block s.stop n (s.rest c)))
    (name : String) (params : List String) {c : Cursor} (hc : s.Stands true c) :
    Agrees s (Alike (s.Stands true))
      (do
        let (_, c₁) ← tape.expect .rightParen .parametersEnd c
        let (body, c₂) ← tape.block (k + n) (tape.skipNewlines c₁)
        return (Stmt.function name params body, c₂))
      (do
        let (_, ts₁) ← Parse.expect s.stop .rightParen .parametersEnd (s.rest c)
        let (body, ts₂) ← Parse.block s.stop n (Parse.skipNewlines ts₁)
        return (Stmt.function name params body, ts₂)) := by
  refine (h.expect_agrees hc (by decide) _).bind ?_
  rintro t _ c₁ ⟨rfl, hc₁⟩
  dsimp only
  rw [← h.rest_skipNewlines hc₁.toStands]
  exact (hblock (h.skipNewlines_stands hc₁.toStands)).map (Stmt.function name params)

theorem Shows.leave_agrees (h : tape.Shows s) {n : Nat} {c : Cursor} (hc : s.Stands true c)
    (next : Kind) :
    Agrees s (Alike (s.Stands true))
      (match next with
        | .newline => .ok (.leave none, c)
        | .semicolon => .ok (.leave none, c)
        | .rightBrace => .ok (.leave none, c)
        | .eof => .ok (.leave none, c)
        | _ => do
            let (value, c₁) ← tape.expression (k + n) c
            return (Stmt.leave (some value), c₁))
      (match next with
        | .newline => .ok (.leave none, s.rest c)
        | .semicolon => .ok (.leave none, s.rest c)
        | .rightBrace => .ok (.leave none, s.rest c)
        | .eof => .ok (.leave none, s.rest c)
        | _ => do
            let (value, ts₁) ← Parse.expression s.stop n (s.rest c)
            return (Stmt.leave (some value), ts₁)) := by
  split
  · exact .reads ⟨rfl, hc⟩
  · exact .reads ⟨rfl, hc⟩
  · exact .reads ⟨rfl, hc⟩
  · exact .reads ⟨rfl, hc⟩
  · exact (h.expression_agrees hc).map fun value => Stmt.leave (some value)

mutual

theorem Shows.statement_agrees (h : tape.Shows s) : ∀ {n : Nat} {c : Cursor},
    s.Stands true c → Agrees s (Alike (s.Stands true)) (tape.statement (k + n) c)
      (Parse.statement s.stop n (s.rest c))
  | 0, _, _ => .spent _
  | n + 1, c, hc => by
      have hexpr := (h.expression_agrees (k := k) (n := n) hc).map Stmt.expr
      have hblock := h.block_agrees (n := n) hc
      unfold statement
      cases hrest : s.rest c with
      | nil =>
          rw [hrest] at hexpr
          rw [h.kind_of_nil hc.inside hrest]
          unfold Parse.statement
          exact hexpr
      | cons t ts =>
          obtain ⟨hcurrent, hkind, hadvance⟩ := h.at_cons hc.inside hrest
          have hnext := h.advance_stands hc
          rw [hrest] at hexpr hblock
          rw [hkind, hcurrent]
          simp only [Parse.statement]
          generalize t.kind = kind
          rw [← hadvance]
          cases kind with
          | hotkey =>
              dsimp only
              refine (h.expect_agrees hnext (by decide) _).bind ?_
              rintro u _ c₁ ⟨rfl, hc₁⟩
              dsimp only
              rw [← h.rest_skipNewlines hc₁.toStands]
              exact (h.statement_agrees (h.skipNewlines_stands hc₁.toStands)).map
                fun action => Stmt.bind (.hotkey t.text) action t.pos.line
          | leftBrace => rwa [hadvance]
          | letWord =>
              dsimp only
              refine (h.expect_agrees hnext (by decide) _).bind ?_
              rintro name _ c₁ ⟨rfl, hc₁⟩
              dsimp only
              rw [h.kind_eq hc₁.inside]
              split
              · rw [← h.rest_skipNewlines_advance hc₁.toStands]
                have hvalue := h.skipNewlines_stands (h.advance_stands hc₁.toStands)
                exact (h.expression_agrees hvalue).map fun value =>
                  Stmt.assign name.text (some value)
              · exact .reads ⟨rfl, hc₁.toStands⟩
          | ifWord => exact h.branch_agrees hnext
          | whileWord =>
              dsimp only
              refine (h.expression_agrees hnext).bind ?_
              rintro condition _ c₁ ⟨rfl, hc₁⟩
              dsimp only
              rw [← h.rest_skipNewlines hc₁]
              exact (h.block_agrees (h.skipNewlines_stands hc₁)).map (Stmt.loop condition)
          | fnWord =>
              dsimp only
              refine (h.expect_agrees hnext (by decide) _).bind ?_
              rintro name _ c₁ ⟨rfl, hc₁⟩
              refine (h.expect_agrees hc₁.toStands (by decide) _).bind ?_
              rintro v _ c₂ ⟨rfl, hc₂⟩
              dsimp only
              rw [h.kind_eq hc₂.inside]
              split
              · exact h.functionBody_agrees (fun {_} hc' => h.block_agrees hc') _ [] hc₂.toStands
              · refine (h.parameters_agrees hc₂.toStands).bind ?_
                rintro params _ c₃ ⟨rfl, hc₃⟩
                exact h.functionBody_agrees (fun {_} hc' => h.block_agrees hc') _ params hc₃
          | returnWord =>
              dsimp only
              rw [h.kind_eq hnext.inside]
              exact h.leave_agrees hnext _
          | _ =>
              rw [hadvance]
              exact hexpr

theorem Shows.branch_agrees (h : tape.Shows s) : ∀ {n : Nat} {c : Cursor},
    s.Stands true c → Agrees s (Alike (s.Stands true)) (tape.branch (k + n) c)
      (Parse.branch s.stop n (s.rest c))
  | 0, _, _ => .spent _
  | n + 1, c, hc => by
      unfold branch Parse.branch
      refine (h.expression_agrees hc).bind ?_
      rintro condition _ c₁ ⟨rfl, hc₁⟩
      dsimp only
      rw [← h.rest_skipNewlines hc₁]
      refine (h.block_agrees (h.skipNewlines_stands hc₁)).bind ?_
      rintro consequence _ c₂ ⟨rfl, hc₂⟩
      have hskip := h.skipNewlines_stands hc₂
      have helse := h.skipNewlines_stands (h.advance_stands hskip)
      dsimp only
      rw [h.kindAfterNewlines_eq hc₂, ← h.rest_skipNewlines hc₂,
        ← h.rest_skipNewlines_advance hskip, h.kind_eq helse.inside]
      split
      · split
        · rw [List.drop_one, ← h.rest_advance helse.inside]
          exact (h.branch_agrees (h.advance_stands helse)).map
            fun alternative => Stmt.branch condition consequence (some alternative)
        · exact (h.block_agrees helse).map
            fun alternative => Stmt.branch condition consequence (some alternative)
      · exact .reads ⟨rfl, hc₂⟩

theorem Shows.block_agrees (h : tape.Shows s) : ∀ {n : Nat} {c : Cursor},
    s.Stands true c → Agrees s (Alike (s.Stands true)) (tape.block (k + n) c)
      (Parse.block s.stop n (s.rest c))
  | 0, _, _ => .spent _
  | n + 1, c, hc => by
      unfold block Parse.block
      refine (h.expect_agrees hc (by decide) _).bind ?_
      rintro t _ c₁ ⟨rfl, hc₁⟩
      dsimp only
      rw [← h.rest_skipSeparators hc₁.toStands]
      exact (h.blockTail_agrees (h.skipSeparators_stands hc₁.toStands)).map Stmt.block

theorem Shows.blockTail_agrees (h : tape.Shows s) : ∀ {n : Nat} {c : Cursor},
    s.Stands true c → Agrees s (Alike (s.Stands true)) (tape.blockTail (k + n) c)
      (Parse.blockTail s.stop n (s.rest c))
  | 0, _, _ => .spent _
  | n + 1, c, hc => by
      unfold blockTail
      cases hrest : s.rest c with
      | nil =>
          have hfail : Agrees s (Alike (s.Stands true)) (tape.fail .blockEnd c)
              (Parse.fail s.stop .blockEnd (s.rest c) : Except Halt (List Stmt × List Token)) :=
            h.fail_agrees hc.inside .blockEnd
          rw [hrest] at hfail
          rw [h.kind_of_nil hc.inside hrest]
          exact hfail
      | cons t ts =>
          obtain ⟨-, hkind, hadvance⟩ := h.at_cons hc.inside hrest
          have hne : (t.kind == .eof) = false := by simpa using h.ne_eof_of_cons hrest
          have hfirst := h.statement_agrees (n := n) hc
          rw [hrest] at hfirst
          rw [hkind, hne]
          simp only [Parse.blockTail]
          split
          · rw [← hadvance]
            exact .reads ⟨rfl, h.advance_stands hc⟩
          · refine hfirst.bind ?_
            rintro first _ c₁ ⟨rfl, hc₁⟩
            dsimp only
            rw [h.statementEnd_eq hc₁.inside]
            refine Agrees.unit ?_
            rw [← h.rest_skipSeparators hc₁]
            exact (h.blockTail_agrees (h.skipSeparators_stands hc₁)).map (first :: ·)

end

theorem Shows.statements_agrees (h : tape.Shows s) : ∀ {n : Nat} {c : Cursor},
    s.Stands true c → Agrees s (Alike (s.Stands true)) (tape.statements (k + n) c)
      (Parse.statements s.stop n (s.rest c))
  | 0, _, _ => .spent _
  | n + 1, c, hc => by
      unfold statements
      cases hrest : s.rest c with
      | nil =>
          rw [h.kind_of_nil hc.inside hrest]
          unfold Parse.statements
          dsimp only
          rw [← hrest]
          exact .reads ⟨rfl, hc⟩
      | cons t ts =>
          obtain ⟨-, hkind, -⟩ := h.at_cons hc.inside hrest
          have hne : (t.kind == .eof) = false := by simpa using h.ne_eof_of_cons hrest
          have hfirst := h.statement_agrees (k := k) (n := n) hc
          rw [hrest] at hfirst
          rw [hkind, hne]
          simp only [Parse.statements]
          refine hfirst.bind ?_
          rintro first _ c₁ ⟨rfl, hc₁⟩
          dsimp only
          rw [h.statementEnd_eq hc₁.inside]
          refine Agrees.unit ?_
          rw [← h.rest_skipSeparators hc₁]
          exact (h.statements_agrees (h.skipSeparators_stands hc₁)).map (first :: ·)

theorem Shows.program_agrees (h : tape.Shows s) {n : Nat} {c : Cursor} (hc : s.Stands true c) :
    Agrees s (Alike (s.Stands true)) (tape.program (k + n) c)
      ((Parse.statements s.stop n (Parse.skipSeparators (s.rest c))).map
        fun (body, rest) => (⟨body⟩, rest)) := by
  have hbody := h.statements_agrees (k := k) (n := n) (h.skipSeparators_stands hc)
  rw [h.rest_skipSeparators hc] at hbody
  have hmap : ∀ {x : Except Halt (List Stmt × List Token)},
      (x.map fun (body, rest) => ((⟨body⟩ : Program), rest)) =
        x >>= fun result => .ok (⟨result.1⟩, result.2) := by
    intro x
    cases x <;> rfl
  rw [hmap]
  exact hbody.map Program.mk

end Tracking

/-! ## Tapes of token lists -/

/-- What is on the tape of a list. -/
theorem tokens_ofTokens (ts : List Token) :
    (Tape.ofTokens ts).tokens =
      if ∃ t ∈ (ts.filter fun t => t.kind != .comment).getLast?, t.kind = .eof then
        ts.filter fun t => t.kind != .comment
      else (ts.filter fun t => t.kind != .comment) ++
        [Stream.endAfter (ts.filter fun t => t.kind != .comment)] := by
  unfold Tape.ofTokens
  dsimp only
  split <;> rfl

theorem ofTokens_shows (ts : List Token) : (Tape.ofTokens ts).Shows (Stream.ofTokens ts) := by
  have htokens := tokens_ofTokens ts
  unfold Stream.ofTokens
  dsimp only
  generalize ts.filter (fun t => t.kind != .comment) = kept at *
  cases hfind : kept.find? fun t => t.kind == .eof with
  | none =>
      have hkept : ∀ t ∈ kept, t.kind ≠ .eof := by simpa using hfind
      have htake : kept.takeWhile (fun t => t.kind != .eof) = kept :=
        List.takeWhile_eq_self_iff.2 fun t ht => by simpa using hkept t ht
      have hlast : ¬∃ t ∈ kept.getLast?, t.kind = .eof := fun ⟨t, ht, heof⟩ =>
        hkept t (List.mem_of_getLast? ht) heof
      rw [if_neg hlast] at htokens
      rw [htake]
      exact ⟨⟨[], htokens⟩, hkept, Stream.endAfter_kind kept⟩
  | some t =>
      obtain ⟨ht, seen, unseen, rfl, hseen⟩ := List.find?_eq_some_iff_append.1 hfind
      have ht : t.kind = .eof := by simpa using ht
      have hseen : ∀ u ∈ seen, u.kind ≠ .eof := by simpa using hseen
      have htake : (seen ++ t :: unseen).takeWhile (fun u => u.kind != .eof) = seen := by
        rw [List.takeWhile_append_of_pos fun u hu => by simpa using hseen u hu,
          List.takeWhile_cons_of_neg (by simp [ht]), List.append_nil]
      rw [htake]
      refine ⟨?_, hseen, ht⟩
      rw [htokens]
      split
      · exact ⟨unseen, rfl⟩
      · exact ⟨unseen ++ [Stream.endAfter (seen ++ t :: unseen)], by simp⟩

theorem Shows.mem_tokens {tape : Tape} {s : Stream} (h : tape.Shows s) {t : Token}
    (ht : t ∈ s.tokens ++ [s.stop]) : t ∈ tape.tokens := by
  obtain ⟨unseen, hsplit⟩ := h.split
  rw [hsplit, List.append_cons]
  exact List.mem_append_left _ ht

theorem Shows.depthBound_le {tape : Tape} {s : Stream} (h : tape.Shows s) :
    depthBound s.tokens ≤ depthBound tape.tokens := by
  obtain ⟨unseen, hsplit⟩ := h.split
  have hlength : s.tokens.length ≤ tape.tokens.length := by
    rw [hsplit, List.length_append]
    exact Nat.le_add_right _ _
  unfold depthBound
  omega

theorem start_stands (s : Stream) : s.Stands true .start :=
  ⟨Nat.zero_le _, rfl, nofun⟩

/-- Reading with a cursor ends, and in the same way however much further it may descend: with the
tree that is given, or with the syntax error. -/
def Settles {α : Type} (tape : Tape) (parser : Nat → Except Halt (α × Cursor)) :
    Except SyntaxError α → Prop
  | .ok a => ∀ n, depthBound tape.tokens ≤ n → ∃ c, parser n = .ok (a, c)
  | .error e => ∀ n, depthBound tape.tokens ≤ n → parser n = .error (.mismatch e)

/-- A parser that agrees with one that does not run out of depth settles. -/
theorem Shows.settles {α : Type} {tape : Tape} {s : Stream} (h : tape.Shows s)
    {P : Cursor → Prop} {parser : Nat → Except Halt (α × Cursor)}
    {onList : Token → Nat → List Token → Except Halt (α × List Token)}
    (hagrees : ∀ k, Agrees s (Alike P) (parser (k + depthBound s.tokens))
      (onList s.stop (depthBound s.tokens) s.tokens))
    (hdeep : onList s.stop (depthBound s.tokens) s.tokens ≠ .error .spent) :
    tape.Settles parser (s.run onList) := by
  have hlater : ∀ n, depthBound tape.tokens ≤ n → Agrees s (Alike P) (parser n)
      (onList s.stop (depthBound s.tokens) s.tokens) := by
    intro n hn
    obtain ⟨k, rfl⟩ := Nat.exists_eq_add_of_le' (Nat.le_trans h.depthBound_le hn)
    exact hagrees k
  unfold Stream.run
  match onList s.stop (depthBound s.tokens) s.tokens, hdeep, hlater with
  | .ok (a, rest), _, hlater =>
      intro n hn
      generalize hx : parser n = x
      have hx' := hx ▸ hlater n hn
      cases hx' with
      | reads hR =>
          obtain ⟨rfl, -⟩ := hR
          exact ⟨_, rfl⟩
  | .error (.mismatch e), _, hlater =>
      intro n hn
      generalize hx : parser n = x
      have hx' := hx ▸ hlater n hn
      cases hx'
      rfl
  | .error .spent, hdeep, _ => exact absurd rfl hdeep

/-! ## Depth -/

section Depth

variable {stop : Token} {ts : List Token}

theorem ne_spent_of_fails {α : Type} {E P : List Token → List Token → Prop}
    {C : List Token → Prop} {x : Except Halt α}
    (h : ∀ halt, x = .error halt → Grammar.Fails stop E P C ts halt) : x ≠ .error .spent := by
  intro hspent
  obtain ⟨_, _, _, hhalt, -⟩ := h _ hspent
  cases hhalt

theorem expression_ne_spent : Parse.expression stop (depthBound ts) ts ≠ .error .spent :=
  ne_spent_of_fails fun _ h => expression_fails (by unfold depthBound; omega) h

theorem statement_ne_spent : Parse.statement stop (depthBound ts) ts ≠ .error .spent :=
  ne_spent_of_fails fun _ h => statement_fails (by unfold depthBound; omega) h

theorem statements_ne_spent :
    Parse.statements stop (depthBound ts) (Parse.skipSeparators ts) ≠ .error .spent := by
  have hle := Grammar.skipSeparators_length_le ts
  exact ne_spent_of_fails fun _ h => statements_fails (by unfold depthBound; omega) h

theorem map_ne_spent {α β : Type} {x : Except Halt α} (h : x ≠ .error .spent) (f : α → β) :
    x.map f ≠ .error .spent := by
  intro hspent
  cases x with
  | ok a => cases hspent
  | error halt =>
      cases hspent
      exact h rfl

end Depth

/-! ## Token lists -/

section Lists

variable (ts : List Token)

theorem program_settles :
    (ofTokens ts).Settles (fun n => (ofTokens ts).program n .start) (parse ts) := by
  have hshows := ofTokens_shows ts
  exact hshows.settles (fun k => hshows.program_agrees (start_stands _))
    (map_ne_spent statements_ne_spent _)

theorem statement_settles :
    (ofTokens ts).Settles (fun n => (ofTokens ts).statement n .start) (parseStatement ts) := by
  have hshows := ofTokens_shows ts
  exact hshows.settles (fun k => hshows.statement_agrees (start_stands _)) statement_ne_spent

theorem expression_settles :
    (ofTokens ts).Settles (fun n => (ofTokens ts).expression n .start) (parseExpression ts) := by
  have hshows := ofTokens_shows ts
  exact hshows.settles (fun k => hshows.expression_agrees (start_stands _)) expression_ne_spent

theorem found_mem_tokens {e : SyntaxError} (h : parse ts = .error e) :
    e.found ∈ (ofTokens ts).tokens :=
  (ofTokens_shows ts).mem_tokens (parse_blames h).found

end Lists

/-- A cursor that some successful parsers have moved to from the start of the tape. -/
def Reaches (tape : Tape) (c : Cursor) : Prop :=
  Relation.ReflTransGen tape.Succeeds .start c

theorem Reaches.moves {tape : Tape} {c : Cursor} (h : tape.Reaches c) : tape.Moves .start c := by
  induction h with
  | refl => exact .refl _
  | tail _ hstep ih => exact ih.trans hstep.moves

end Tape

/-- **Reading moves on and ends**: the tape of any list of tokens ends with an end token. Every
statement and every expression that is read moves the cursor by at least one token, no parser moves
it past an end token, and commands may be written behind a phrase exactly where they may be written
before it. Reading a program ends with the program or with an error that names a token on the
tape. -/
theorem parse_progress (ts : List Token) :
    let tape := Tape.ofTokens ts
    let kept := ts.filter fun t => t.kind != .comment
    (tape.tokens = if ∃ t ∈ kept.getLast?, t.kind = .eof then kept
      else kept ++ [Stream.endAfter kept]) ∧
    (∃ before last, tape.tokens = before ++ [last] ∧ last.kind = .eof) ∧
    (∀ n c c' s, tape.statement n c = .ok (s, c') → tape.Advances c c') ∧
    (∀ n c c' e, tape.expression n c = .ok (e, c') → tape.Advances c c') ∧
    (∀ c c', tape.Succeeds c c' → tape.Moves c c') ∧
    (∀ c, tape.Reaches c → c.commands = true ∧
      ∀ e t, tape.tokens[e]? = some t → t.kind = .eof → c.position ≤ e) ∧
    tape.Settles (fun n => tape.statement n .start) (parseStatement ts) ∧
    tape.Settles (fun n => tape.expression n .start) (parseExpression ts) ∧
    tape.Settles (fun n => tape.program n .start) (parse ts) ∧
    ∀ e, parse ts = .error e → e.found ∈ tape.tokens := by
  intro tape kept
  refine ⟨Tape.tokens_ofTokens ts, tape.exists_last, fun _ _ _ _ => Tape.statement_advances,
    fun _ _ _ _ => Tape.expression_advances, fun _ _ => Tape.Succeeds.moves, fun c hc => ?_,
    Tape.statement_settles ts, Tape.expression_settles ts, Tape.program_settles ts,
    fun _ => Tape.found_mem_tokens ts⟩
  exact ⟨hc.moves.commands, fun e t ht heof => hc.moves.held e t ht heof (Nat.zero_le e)⟩

end Chord
