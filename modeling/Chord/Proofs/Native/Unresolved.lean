import Chord.Host.Desktop
import Chord.Library.Standard
import Chord.Proofs.Eval.Straight
import Chord.Proofs.Native.Lowering

/-!
# Actions that cannot be compiled because of a name

Lowering looks up all names of an action before anything runs. The interpreter looks up each name
when it comes to it, and in the same order.

**Input.** A straight action with a name that cannot be resolved.

**Algorithm.** `Checks` compares a step of lowering with the instructions of the part that it
lowers. `Checks.bind` puts two such pairs in sequence, so the first name that lowering cannot
resolve belongs to the first instruction that must fail.

**Results.** `evaluateStatement_of_unresolved`: interpreting the action carries out the instructions
before that one and fails at it, with the fault that lowering found, unless one of them fails by
itself.
-/

namespace Chord
namespace Native

open Eval

variable {σ α β : Type} {registry : Registry σ} {names : List String}

/-- What a step of lowering tells about instructions. If it succeeds, none of them must fail; if it
fails at a name, the first one that must fail does so with this fault. -/
structure Checks (registry : Registry σ) (Q : α → Prop) (m : Lower α)
    (is : List (Instruction names)) : Prop where
  done : ∀ {p p' a}, m p = .ok (a, p') → Q a ∧ is.findSome? (·.unresolved? registry) = none
  failed : ∀ {p cause}, m p = .error (.resolution cause) →
    is.findSome? (·.unresolved? registry) = some cause

namespace Checks

variable {Q : α → Prop} {R : β → Prop} {m : Lower α} {is more : List (Instruction names)}

/-- A step of lowering that cannot fail. -/
theorem pure {a : α} (ha : Q a) (his : is.findSome? (·.unresolved? registry) = none) :
    Checks registry Q (Pure.pure a : Lower α) is where
  done := by
    intro p p' b h
    cases h
    exact ⟨ha, his⟩
  failed := by
    intro p cause h
    cases h

/-- A step of lowering that fails for another reason than a name. -/
theorem unsupported (what : Unsupported) :
    Checks registry Q (throw (.unsupported what) : Lower α) is where
  done := by
    intro p p' a h
    cases h
  failed := by
    intro p cause h
    cases h

/-- A step of lowering that fails at a name. -/
theorem unresolved {cause : Fault} (his : is.findSome? (·.unresolved? registry) = some cause) :
    Checks registry Q (Native.unresolved cause : Lower α) is where
  done := by
    intro p p' a h
    cases h
  failed := by
    intro p c h
    cases h
    exact his

/-- Steps in sequence: the first name that cannot be resolved comes first on both sides. -/
theorem bind {f : α → Lower β} (h : Checks registry Q m is)
    (hf : ∀ a, Q a → Checks registry R (f a) more) :
    Checks registry R (m >>= f) (is ++ more) where
  done := by
    intro p p' b hrun
    obtain ⟨a, q, hfirst, hsecond⟩ := lower_bind_eq_ok hrun
    obtain ⟨ha, his⟩ := h.done hfirst
    obtain ⟨hb, hmore⟩ := (hf a ha).done hsecond
    rw [List.findSome?_append, his, hmore]
    exact ⟨hb, rfl⟩
  failed := by
    intro p cause hrun
    rw [List.findSome?_append]
    rcases lower_bind_eq_error hrun with hfirst | ⟨a, q, hfirst, hsecond⟩
    · rw [h.failed hfirst]
      rfl
    · obtain ⟨ha, his⟩ := h.done hfirst
      rw [his, (hf a ha).failed hsecond]
      rfl

/-- A step of lowering whose result is handed on. -/
theorem map {f : α → β} (h : Checks registry Q m is) (hf : ∀ a, Q a → R (f a)) :
    Checks registry R (m >>= fun a => Pure.pure (f a)) is := by
  have hbind : Checks registry R (m >>= fun a => Pure.pure (f a)) (is ++ []) :=
    h.bind fun a ha => Checks.pure (hf a ha) rfl
  rwa [List.append_nil] at hbind

/-- Only the instructions that must fail count. -/
theorem congr {is' : List (Instruction names)} (h : Checks registry Q m is)
    (heq : is'.findSome? (·.unresolved? registry) = is.findSome? (·.unresolved? registry)) :
    Checks registry Q m is' where
  done := by
    intro p p' a hrun
    rw [heq]
    exact h.done hrun
  failed := by
    intro p cause hrun
    rw [heq]
    exact h.failed hrun

/-- A look-up on both sides. -/
theorem look {callee : Expr} {f : Builtin σ → Lower β}
    (h : ∀ b, registry.resolve callee = .ok b → Checks registry R (f b) is) :
    Checks registry R (resolved (registry.resolve callee) >>= f) (.look callee :: is) := by
  have hfirst : Checks registry (fun b => registry.resolve callee = .ok b)
      (resolved (registry.resolve callee)) [(.look callee : Instruction names)] := by
    cases hresolve : registry.resolve callee with
    | ok b => exact .pure rfl (by simp [Instruction.unresolved?, hresolve])
    | error cause => exact .unresolved (by simp [Instruction.unresolved?, hresolve])
  exact hfirst.bind h

end Checks

/-! ## Calls -/

/-- A call is lowered only with the right number of arguments. -/
theorem lowerCall_checks {callee : Expr} {b : Builtin σ} (hb : registry.resolve callee = .ok b)
    {codes : List Code} {count : Nat} (hcount : codes.length = count) :
    Checks registry (fun _ => True) (lowerCall b codes)
      [(.call callee count : Instruction names)] := by
  subst hcount
  unfold lowerCall
  split
  · rename_i hne
    refine .unresolved ?_
    simpa [Instruction.unresolved?, hb] using hne
  · rename_i heq
    split
    · exact .unsupported _
    · refine .pure trivial ?_
      simpa [Instruction.unresolved?, hb] using heq

theorem lowerBare_checks (callee : Expr) :
    Checks registry (fun _ => True) (lowerBare registry callee)
      [(.look callee : Instruction names), .call callee 0] :=
  .look fun _ hb => lowerCall_checks hb rfl

/-- A stage that is a bare name is lowered only with no parameters or with one. -/
theorem lowerPipeBare_checks (stage : Expr) (input : Code) :
    Checks registry (fun _ => True) (lowerPipeBare registry stage input)
      [(.look stage : Instruction names), .pipe stage] := by
  refine .look fun b hb => ?_
  by_cases hzero : b.arity = 0
  · have hcall : Checks registry (fun _ => True) (lowerCall b [])
        [(.call stage 0 : Instruction names)] := lowerCall_checks hb rfl
    have hsame : ([(.pipe stage : Instruction names)].findSome? (·.unresolved? registry)) =
        [(.call stage 0 : Instruction names)].findSome? (·.unresolved? registry) := by
      simp [Instruction.unresolved?, hb, hzero]
    simp only [hzero, beq_self_eq_true, if_true]
    exact (hcall.map fun _ _ => trivial).congr hsame
  · have hcall : Checks registry (fun _ => True) (lowerCall b [input])
        [(.call stage 1 : Instruction names)] := lowerCall_checks hb rfl
    have hsame : ([(.pipe stage : Instruction names)].findSome? (·.unresolved? registry)) =
        [(.call stage 1 : Instruction names)].findSome? (·.unresolved? registry) := by
      simp [Instruction.unresolved?, hb, hzero, @eq_comm Nat 1]
    have hne : (b.arity == 0) = false := by simpa using hzero
    simp only [hne, Bool.false_eq_true, if_false]
    exact hcall.congr hsame

/-! ## Expressions -/

/-- A name that is a variable of the action can always be lowered. -/
theorem fallback_checks (name : String) :
    Checks registry (fun _ => True) (fallback registry name) ([] : List (Instruction names)) where
  done := fun _ => ⟨trivial, rfl⟩
  failed := by
    intro p cause h
    unfold fallback at h
    cases hresolve : registry.resolve (.identifier name) with
    | error e =>
        rw [hresolve] at h
        cases h
    | ok b =>
        rw [hresolve] at h
        cases harity : b.arity == 0 with
        | false =>
            simp only [harity] at h
            cases h
        | true =>
            simp only [harity] at h
            cases h

theorem identifier_checks (name : String) :
    Checks registry (fun _ => True) (lowerExpr registry names (.identifier name))
      ((Expr.identifier name).instructions names) := by
  simp only [lowerExpr, Expr.instructions]
  split
  · rename_i slot hslot
    have hname : name ∈ names := by
      by_contra hnot
      rw [List.idxOf?_eq_none_iff.2 hnot] at hslot
      cases hslot
    rw [dif_pos hname]
    exact ((fallback_checks name).map fun _ _ => trivial).congr rfl
  · rename_i hslot
    rw [dif_neg (List.idxOf?_eq_none_iff.1 hslot)]
    exact lowerBare_checks _

mutual

/-- Lowering an expression comes to the names of its instructions, in their order. -/
theorem lowerExpr_checks : (e : Expr) → e.isStraight = true →
    Checks registry (fun _ => True) (lowerExpr registry names e) (e.instructions names)
  | .number _, _ => ⟨fun _ => ⟨trivial, rfl⟩, nofun⟩
  | .string _, _ => ⟨fun _ => ⟨trivial, rfl⟩, nofun⟩
  | .hotkey _, _ => ⟨fun _ => ⟨trivial, rfl⟩, nofun⟩
  | .identifier name, _ => identifier_checks name
  | .member object property, _ => lowerBare_checks _
  | .binary left op right, h => by
      obtain ⟨hop, hright⟩ := Bool.and_eq_true_iff.1 h
      obtain ⟨hop, hleft⟩ := Bool.and_eq_true_iff.1 hop
      simp only [lowerExpr, Expr.instructions]
      refine (lowerExpr_checks left hleft).bind fun l _ => ?_
      refine (lowerExpr_checks right hright).bind fun r _ => ?_
      cases op with
      | and => cases hop
      | or => cases hop
      | _ => exact .pure trivial rfl
  | .call callee args, h => by
      simp only [lowerExpr, Expr.instructions]
      refine .look fun b hb => ?_
      exact (lowerArgs_checks args h).bind fun codes hcount => lowerCall_checks hb hcount
  | .pipeline [], _ => ⟨fun _ => ⟨trivial, rfl⟩, nofun⟩
  | .pipeline (first :: rest), h => by
      obtain ⟨hfirst, hrest⟩ := Bool.and_eq_true_iff.1 h
      simp only [lowerExpr, Expr.instructions]
      exact (lowerExpr_checks first hfirst).bind fun code _ => lowerStages_checks rest hrest code

/-- Lowering arguments gives one piece of code for each of them. -/
theorem lowerArgs_checks : (es : List Expr) → Expr.areStraight es = true →
    Checks registry (fun codes => codes.length = es.length) (lowerArgs registry names es)
      (Expr.argInstructions names es)
  | [], _ => .pure rfl rfl
  | e :: es, h => by
      obtain ⟨hfirst, hrest⟩ := Bool.and_eq_true_iff.1 h
      simp only [lowerArgs, Expr.argInstructions]
      refine (lowerExpr_checks e hfirst).bind fun code _ => ?_
      refine (lowerArgs_checks es hrest).map fun codes hcount => ?_
      rw [List.length_cons, List.length_cons, hcount]

theorem lowerStages_checks : (stages : List Expr) → Expr.areStraight stages = true →
    (input : Code) →
    Checks registry (fun _ => True) (lowerStages registry names input stages)
      (Expr.stageInstructions names stages)
  | [], _, _ => .pure trivial rfl
  | .call callee args :: rest, h, input => by
      obtain ⟨hargs, hrest⟩ := Bool.and_eq_true_iff.1 h
      simp only [lowerStages, Expr.stageInstructions]
      refine .look fun b hb => ?_
      refine (lowerArgs_checks args hargs).bind fun codes hcount => ?_
      have hcall : Checks registry (fun _ => True) (lowerCall b (input :: codes))
          [(.call callee (args.length + 1) : Instruction names)] :=
        lowerCall_checks hb (congrArg (· + 1) hcount)
      exact hcall.bind fun code _ => lowerStages_checks rest hrest code
  | .identifier name :: rest, h, input => by
      simp only [lowerStages, Expr.stageInstructions]
      exact (lowerPipeBare_checks (.identifier name) input).bind fun code _ =>
        lowerStages_checks rest (Bool.and_eq_true_iff.1 h).2 code
  | .member object property :: rest, h, input => by
      simp only [lowerStages, Expr.stageInstructions]
      exact (lowerPipeBare_checks (.member object property) input).bind fun code _ =>
        lowerStages_checks rest (Bool.and_eq_true_iff.1 h).2 code
  | .number _ :: _, _, _ => .unresolved rfl
  | .string _ :: _, _, _ => .unresolved rfl
  | .hotkey _ :: _, _, _ => .unresolved rfl
  | .binary _ _ _ :: _, _, _ => .unresolved rfl
  | .pipeline _ :: _, _, _ => .unresolved rfl

end

/-! ## Statements -/

mutual

/-- Lowering a statement comes to the names of its instructions, in their order. -/
theorem lowerStmt_checks : (s : Stmt) → s.isStraight = true →
    Checks registry (fun _ => True) (lowerStmt registry names s) (s.instructions names)
  | .block body, h => by
      simp only [lowerStmt, Stmt.instructions]
      exact (lowerBlock_checks body h).congr rfl
  | .expr e, h => by
      simp only [lowerStmt, Stmt.instructions]
      exact lowerExpr_checks e h
  | .assign name (some e), h => by
      simp only [lowerStmt, Stmt.instructions, lowerExpr?]
      exact (lowerExpr_checks e h).bind fun code _ => .pure trivial rfl
  | .assign name none, _ => ⟨fun _ => ⟨trivial, rfl⟩, nofun⟩
  | .bind _ _ _, h => by cases h
  | .branch _ _ _, h => by cases h
  | .loop _ _, h => by cases h
  | .leave _, h => by cases h
  | .function _ _ _, h => by cases h

theorem lowerBlock_checks : (body : List Stmt) → Stmt.areStraight body = true →
    Checks registry (fun _ => True) (lowerBlock registry names body)
      (Stmt.blockInstructions names body)
  | [], _ => .pure trivial rfl
  | [s], h => by
      simp only [lowerBlock, Stmt.blockInstructions, List.append_nil]
      exact (lowerStmt_checks s (Bool.and_eq_true_iff.1 h).1).congr rfl
  | s :: next :: rest, h => by
      obtain ⟨hfirst, hrest⟩ := Bool.and_eq_true_iff.1 h
      rw [lowerBlock, Stmt.blockInstructions]
      refine ((lowerStmt_checks s hfirst).bind fun first _ => ?_).congr rfl
      exact (lowerBlock_checks (next :: rest) hrest).map fun _ _ => trivial

end

/-! ## Running into the name -/

/-- An action cannot be compiled because lowering it fails. -/
theorem compile_eq_error {s : Stmt} {e : CompileError} (h : compile registry s = .error e) :
    lowerStmt registry s.letNames s {} = .error e := by
  unfold compile at h
  simp only [StateT.run, bind, Except.bind] at h
  split at h
  · rename_i hlower
    cases h
    exact hlower
  · cases h

/-- **Actions that cannot be compiled because of a name.** Interpreting such an action comes to the
first instruction whose name cannot be resolved and fails there, with the fault that lowering found;
unless it fails before, at an instruction that is a division by zero, the call of a function that
returns a fault, or the read of a variable that has no value yet. -/
theorem evaluateStatement_of_unresolved (setup : Setup σ) {s : Stmt}
    (hstraight : s.isStraight = true) {e : Fault}
    (h : compile setup.registry s = .error (.resolution e)) (m : Machine σ) :
    ∃ before missed after, s.instructions s.letNames = before ++ missed :: after ∧
      (∀ i ∈ before, i.unresolved? setup.registry = none) ∧
      missed.unresolved? setup.registry = some e ∧
      ((∃ stack r,
          Instruction.performAll setup before [] ⟨.empty, m⟩ = (.ok stack, r) ∧
          evaluateStatement setup s ⟨.empty, m⟩ = (.error (.fault e), r)) ∨
        ∃ earlier i later stack r cause r', before = earlier ++ i :: later ∧
          Instruction.performAll setup earlier [] ⟨.empty, m⟩ = (.ok stack, r) ∧
          i.Fails setup.registry stack r cause ∧
          i.perform setup stack r = (.error (.fault cause), r') ∧
          evaluateStatement setup s ⟨.empty, m⟩ = (.error (.fault cause), r')) := by
  have hfirst : (s.instructions s.letNames).findSome? (·.unresolved? setup.registry) = some e :=
    (lowerStmt_checks s hstraight).failed (compile_eq_error h)
  obtain ⟨before, missed, after, hinstructions, hmissed, hbefore⟩ :=
    List.findSome?_eq_some_iff.1 hfirst
  refine ⟨before, missed, after, hinstructions, hbefore, hmissed, ?_⟩
  rw [evaluateStatement_eq_performAll setup hstraight, hinstructions,
    Instruction.performAll_append]
  rcases hrun : Instruction.performAll setup before [] ⟨.empty, m⟩ with ⟨stop | stack, r⟩
  · right
    obtain ⟨earlier, i, later, stack, r₀, rfl, hearlier, hfails⟩ :=
      Instruction.performAll_eq_error hrun
    have hstops : (i.perform setup stack r₀).1 = .error stop := by rw [hfails]
    obtain ⟨cause, rfl, hcause⟩ := Instruction.perform_eq_error (hbefore i (by simp)) hstops
    refine ⟨earlier, i, later, stack, r₀, cause, r, rfl, hearlier, hcause, hfails, ?_⟩
    rw [Act.bind_apply, hrun]
    rfl
  · left
    refine ⟨stack, r, rfl, ?_⟩
    have hfails : missed.perform setup stack r = (.error (.fault e), r) :=
      Instruction.perform_of_unresolved hmissed
    rw [Act.bind_apply, hrun]
    simp only [Instruction.performAll, Act.bind_apply, hfails]
    rfl

/-- A text is sent before a function is named that does not exist. -/
def sendAndMiss : Stmt :=
  .block [
    .expr (.call (.identifier "send") [.string "a"]),
    .assign "x" (some (.binary (.string "b") .add
      (.call (.member (.identifier "text") (.identifier "shout")) [.string "c"])))]

/-- What is sent before is sent; then the name is missed. -/
theorem sendAndMiss_fails :
    ∃ before missed after stack r,
      sendAndMiss.instructions sendAndMiss.letNames = before ++ missed :: after ∧
      missed.unresolved? (Registry.standard Desktop.host) =
        some (.unknownFunction "text" "shout") ∧
      Instruction.performAll ⟨Desktop.host, Registry.standard Desktop.host, { loops := 0 }⟩ before
        [] ⟨.empty, { host := Desktop.fresh "" [] }⟩ = (.ok stack, r) ∧
      r.machine.host.sent = ["a"] ∧
      evaluateStatement ⟨Desktop.host, Registry.standard Desktop.host, { loops := 0 }⟩ sendAndMiss
        ⟨.empty, { host := Desktop.fresh "" [] }⟩ =
          (.error (.fault (.unknownFunction "text" "shout")), r) := by
  let setup : Setup Desktop := ⟨Desktop.host, Registry.standard Desktop.host, { loops := 0 }⟩
  let m : Machine Desktop := { host := Desktop.fresh "" [] }
  have hcompile : compile (Registry.standard Desktop.host) sendAndMiss =
      .error (.resolution (.unknownFunction "text" "shout")) := rfl
  have hresult : (evaluateStatement setup sendAndMiss ⟨.empty, m⟩).1 =
      .error (.fault (.unknownFunction "text" "shout")) := by decide +kernel
  have hsent : (evaluateStatement setup sendAndMiss ⟨.empty, m⟩).2.machine.host.sent = ["a"] := by
    decide +kernel
  obtain ⟨before, missed, after, hinstructions, -, hmissed, hstops⟩ :=
    evaluateStatement_of_unresolved setup rfl hcompile m
  rcases hstops with ⟨stack, r, hbefore, hends⟩ | ⟨earlier, i, later, _, _, cause, _, rfl, -,
    hfails, -, hends⟩
  · rw [hends] at hsent
    exact ⟨before, missed, after, stack, r, hinstructions, hmissed, hbefore, hsent, hends⟩
  · rw [hends] at hresult
    cases hresult
    have hi : i ∈ [.literal .null, .drop, .look (.identifier "send"), .literal (.string "a"),
        .call (.identifier "send") 1, .drop, .literal (.string "b"),
        .look (.member (.identifier "text") (.identifier "shout")), .literal (.string "c"),
        .call (.member (.identifier "text") (.identifier "shout")) 1, .operate .add, .set "x"] := by
      show i ∈ sendAndMiss.instructions sendAndMiss.letNames
      rw [hinstructions]
      simp
    cases hfails with
    | call hresolve _ hbody =>
        simp only [List.mem_cons, List.not_mem_nil, reduceCtorEq, false_or, or_false,
          Instruction.call.injEq] at hi
        rcases hi with ⟨rfl, rfl⟩ | ⟨rfl, rfl⟩
        · have hsend : (Registry.standard Desktop.host).resolve (.identifier "send") = .ok _ :=
            hresolve
          cases hsend
          cases hbody
        · have hshout : (Registry.standard Desktop.host).resolve
              (.member (.identifier "text") (.identifier "shout")) = .ok _ := hresolve
          cases hshout
    | pipe => simp at hi
    | bare => simp at hi

end Native
end Chord
