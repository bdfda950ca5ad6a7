import Chord.Proofs.Native.Constructs

/-!
# Lowered code does what is interpreted

**Input.** A `Fixture`, the final pools of an action and what is lowered into it.

**Algorithm.** Lowering only adds to its pools, so an index that it hands out stays good until the
pools are final. `Yields` is what lowering guarantees about a piece of code once they are.

**Results.** `lowerExpr_yields` and `lowerStmt_yields`: whatever is lowered at all computes, or
performs, what the interpreter does from linked states.
-/

namespace Chord
namespace Native

open Eval

variable {σ : Type}

/-! ## Steps of lowering -/

section Steps

variable {α β : Type}

/-- A sequence of lowering steps that succeeds. -/
theorem lower_bind_eq_ok {m : Lower α} {f : α → Lower β} {p p' : Pools} {b : β}
    (h : (m >>= f) p = .ok (b, p')) :
    ∃ a q, m p = .ok (a, q) ∧ f a q = .ok (b, p') := by
  simp only [bind, StateT.bind, Except.bind] at h
  split at h
  · cases h
  · rename_i reached hfirst
    exact ⟨reached.1, reached.2, hfirst, h⟩

/-- A sequence of lowering steps that fails. -/
theorem lower_bind_eq_error {m : Lower α} {f : α → Lower β} {p : Pools} {e : CompileError}
    (h : (m >>= f) p = .error e) :
    m p = .error e ∨ ∃ a q, m p = .ok (a, q) ∧ f a q = .error e := by
  simp only [bind, StateT.bind, Except.bind] at h
  split at h
  · rename_i hfirst
    cases h
    exact .inl hfirst
  · rename_i reached hfirst
    exact .inr ⟨reached.1, reached.2, hfirst, h⟩

end Steps

/-! ## Pools -/

/-- Every entry of the first pools stands at the same place in the second ones. -/
structure Pools.Within (p q : Pools) : Prop where
  constants : ∀ (i : Nat) (v : Value), p.constants[i]? = some v → q.constants[i]? = some v
  failures : ∀ (i : Nat) (cause : Fault), p.failures[i]? = some cause → q.failures[i]? = some cause

theorem Pools.Within.refl (p : Pools) : p.Within p :=
  ⟨fun _ _ h => h, fun _ _ h => h⟩

theorem Pools.Within.trans {p q r : Pools} (hpq : p.Within q) (hqr : q.Within r) : p.Within r :=
  ⟨fun i v h => hqr.constants i v (hpq.constants i v h),
    fun i cause h => hqr.failures i cause (hpq.failures i cause h)⟩

/-- What a step of lowering gives satisfies `Q` as soon as the pools lie within the final ones. -/
def Yields {α : Type} (final : Pools) (m : Lower α) (Q : α → Prop) : Prop :=
  ∀ (p p' : Pools) (a : α), m p = .ok (a, p') → p.Within p' ∧ (p'.Within final → Q a)

section Rules

variable {final : Pools} {α β : Type}

theorem yields_pure {a : α} {Q : α → Prop} (h : Q a) : Yields final (pure a) Q := by
  intro p p' b hrun
  cases hrun
  exact ⟨.refl p, fun _ => h⟩

theorem yields_throw {e : CompileError} {Q : α → Prop} : Yields final (throw e : Lower α) Q := by
  intro p p' a hrun
  cases hrun

theorem yields_bind {m : Lower α} {f : α → Lower β} {P : α → Prop} {Q : β → Prop}
    (hm : Yields final m P) (hf : ∀ a, Yields final (f a) fun b => P a → Q b) :
    Yields final (m >>= f) Q := by
  intro p p' b hrun
  simp only [bind, StateT.bind, Except.bind] at hrun
  split at hrun
  · cases hrun
  · rename_i reached hfirst
    obtain ⟨a, q⟩ := reached
    obtain ⟨hpq, ha⟩ := hm p q a hfirst
    obtain ⟨hqp', hb⟩ := hf a q p' b hrun
    exact ⟨hpq.trans hqp', fun hfinal => hb hfinal (ha (hqp'.trans hfinal))⟩

theorem yields_imp {m : Lower α} {P Q : α → Prop} (hm : Yields final m P) (h : ∀ a, P a → Q a) :
    Yields final m Q := by
  intro p p' a hrun
  obtain ⟨hwithin, ha⟩ := hm p p' a hrun
  exact ⟨hwithin, fun hfinal => h a (ha hfinal)⟩

theorem yields_resolved (r : Except Fault α) : Yields final (resolved r) fun a => r = .ok a := by
  cases r with
  | ok a => exact yields_pure rfl
  | error cause => exact yields_throw

theorem yields_constant (v : Value) :
    Yields final (constant v) fun code => ∃ i, code = .const i ∧ final.constants[i]? = some v := by
  intro p p' code hrun
  cases hrun
  refine ⟨⟨fun i w h => getElem?_push_of_some v h, fun _ _ h => h⟩, ?_⟩
  intro hfinal
  exact ⟨_, rfl, hfinal.constants _ _ (by simp)⟩

theorem yields_raising (cause : Fault) :
    Yields final (raising cause) fun code =>
      ∃ i, code = .raise i ∧ final.failures[i]? = some cause := by
  intro p p' code hrun
  cases hrun
  refine ⟨⟨fun _ _ h => h, fun i c h => getElem?_push_of_some cause h⟩, ?_⟩
  intro hfinal
  exact ⟨_, rfl, hfinal.failures _ _ (by simp)⟩

/-- A call that is lowered has as many arguments as its function takes, and not too many. -/
theorem yields_lowerCall (b : Builtin σ) (args : List Code) :
    Yields final (lowerCall b args) fun code =>
      code = .call b.id args ∧ args.length = b.arity ∧ args.length ≤ maxCallArgs := by
  unfold lowerCall
  split
  · exact yields_throw
  · rename_i harity
    split
    · exact yields_throw
    · rename_i hmax
      exact yields_pure ⟨rfl, by simpa using harity, by omega⟩

end Rules

/-! ## Expressions -/

section Lowered

variable {x : Fixture σ} (enter : Enter σ)

/-- The fallback of a variable without a value calls the function with its name. -/
theorem fallback_yields (name : String) :
    Yields x.pools (fallback x.setup.registry name)
      (Computes x (reading (callBare x.setup.registry enter (.identifier name)))) := by
  unfold fallback
  cases hresolve : x.setup.registry.resolve (.identifier name) with
  | error cause =>
      refine yields_imp (yields_raising cause) ?_
      rintro code ⟨i, rfl, hi⟩
      refine (computes_raise hi).congr ?_
      intro r s hl
      rw [reading_callBare hl.functions, hresolve]
      rfl
  | ok b =>
      have hb := Registry.get?_id_of_resolve hresolve
      have hcall : ∀ (r : Run σ) (s : Active σ), Linked x r s →
          reading (callBare x.setup.registry enter (.identifier name)) r = callBuiltin b [] r := by
        intro r s hl
        rw [reading_callBare hl.functions, hresolve]
        rfl
      by_cases harity : b.arity = 0
      · simp only [harity, beq_self_eq_true, if_true]
        exact yields_pure ((computes_callBuiltin_nil hb).congr hcall)
      · have hne : (b.arity == 0) = false := by simpa using harity
        simp only [hne, Bool.false_eq_true, if_false]
        refine yields_imp (yields_raising (b.mismatch 0)) ?_
        rintro code ⟨i, rfl, hi⟩
        refine (computes_raise hi).congr ?_
        intro r s hl
        rw [hcall r s hl]
        exact callBuiltin_mismatch (fun h => harity h.symm) r

/-- A name called without arguments. -/
theorem lowerBare_yields (callee : Expr) :
    Yields x.pools (lowerBare x.setup.registry callee)
      (Computes x (reading (callBare x.setup.registry enter callee))) := by
  unfold lowerBare
  refine yields_bind (yields_resolved _) ?_
  intro b
  refine yields_imp (yields_lowerCall b []) ?_
  rintro code ⟨rfl, -, -⟩ hresolve
  refine (computes_callBuiltin_nil (Registry.get?_id_of_resolve hresolve)).congr ?_
  intro r s hl
  rw [reading_callBare hl.functions, hresolve]
  rfl

/-- A stage that is a bare name, after code for its input. -/
theorem lowerPipeBare_yields (stage : Expr) (input : Code) :
    Yields x.pools (lowerPipeBare x.setup.registry stage input) fun code =>
      ∀ act, Computes x act input →
        Computes x (act >>= fun v => reading (pipeBare x.setup.registry enter stage v)) code := by
  unfold lowerPipeBare
  refine yields_bind (yields_resolved _) ?_
  intro b
  have hpipe : ∀ act, Computes x act input → x.setup.registry.resolve stage = .ok b →
      ∀ (r : Run σ) (s : Active σ), Linked x r s →
        (act >>= fun v => reading (pipeBare x.setup.registry enter stage v)) r =
          (act >>= fun v => callBuiltin b (if b.arity == 0 then [] else [v])) r := by
    intro act hinput hresolve r s hl
    refine hinput.bind_congr ?_ hl
    intro v r' s' hl'
    rw [reading_pipeBare hl'.functions, hresolve]
    rfl
  by_cases harity : b.arity = 0
  · simp only [harity, beq_self_eq_true, if_true] at hpipe ⊢
    refine yields_bind (yields_lowerCall b []) ?_
    intro code
    refine yields_pure ?_
    rintro ⟨rfl, -, -⟩ hresolve act hinput
    refine Computes.congr ?_ (hpipe act hinput hresolve)
    exact computes_seq hinput (computes_callBuiltin_nil (Registry.get?_id_of_resolve hresolve))
  · have hne : (b.arity == 0) = false := by simpa using harity
    simp only [hne, Bool.false_eq_true, if_false] at hpipe ⊢
    refine yields_imp (yields_lowerCall b [input]) ?_
    rintro code ⟨rfl, -, hmax⟩ hresolve act hinput
    refine Computes.congr ?_ (hpipe act hinput hresolve)
    have hcall := computes_call (Registry.get?_id_of_resolve hresolve)
      (computesAll_cons hinput computesAll_nil) hmax
    simpa only [Act.bind_assoc_act, Act.pure_bind_act] using hcall

mutual

/-- Code for an expression computes its value. -/
theorem lowerExpr_yields : (e : Expr) →
    Yields x.pools (lowerExpr x.setup.registry x.names e) (Computes x (valueOf x.setup enter e))
  | .number v => by
      simp only [lowerExpr]
      refine yields_imp (yields_constant _) ?_
      rintro code ⟨i, rfl, hi⟩
      exact computes_const hi
  | .string text => by
      simp only [lowerExpr]
      refine yields_imp (yields_constant _) ?_
      rintro code ⟨i, rfl, hi⟩
      exact computes_const hi
  | .hotkey text => by
      simp only [lowerExpr]
      refine yields_imp (yields_constant _) ?_
      rintro code ⟨i, rfl, hi⟩
      exact computes_const hi
  | .identifier name => by
      simp only [lowerExpr]
      rw [valueOf_identifier]
      split
      · rename_i slot hslot
        refine yields_bind (fallback_yields enter name) ?_
        intro code
        refine yields_pure ?_
        intro hcode
        refine computes_read ?_ hcode
        rw [List.idxOf_eq_getD_idxOf?, hslot]
        rfl
      · rename_i hslot
        refine yields_imp (lowerBare_yields enter (.identifier name)) ?_
        intro code hcode
        refine hcode.congr ?_
        intro r s hl
        unfold variableOr
        rw [hl.get?_of_not_mem (List.idxOf?_eq_none_iff.1 hslot)]
  | .member object property => by
      have hvalue : valueOf x.setup enter (.member object property) =
          reading (callBare x.setup.registry enter (.member object property)) := by
        unfold valueOf
        simp only [evalExpr]
      simp only [lowerExpr]
      rw [hvalue]
      exact lowerBare_yields enter _
  | .binary left op right => by
      simp only [lowerExpr]
      refine yields_bind (lowerExpr_yields left) ?_
      intro l
      refine yields_bind (lowerExpr_yields right) ?_
      intro r
      cases op with
      | and =>
          refine yields_pure ?_
          intro hr hl
          rw [valueOf_and]
          exact computes_both hl hr
      | or =>
          refine yields_pure ?_
          intro hr hl
          rw [valueOf_or]
          exact computes_either hl hr
      | _ =>
          refine yields_pure ?_
          intro hr hl
          rw [valueOf_binary x.setup enter rfl]
          exact computes_binary _ hl hr
  | .call callee args => by
      simp only [lowerExpr]
      refine yields_bind (yields_resolved _) ?_
      intro b
      refine yields_bind (lowerArgs_yields args) ?_
      intro codes
      refine yields_imp (yields_lowerCall b codes) ?_
      rintro code ⟨rfl, -, hmax⟩ hcodes hresolve
      refine (computes_call (Registry.get?_id_of_resolve hresolve) hcodes hmax).congr ?_
      intro r s hl
      rw [valueOf_call_apply hl.functions, hresolve]
      rfl
  | .pipeline [] => by
      simp only [lowerExpr]
      exact yields_pure computes_null
  | .pipeline (first :: rest) => by
      simp only [lowerExpr]
      rw [valueOf_pipeline]
      refine yields_bind (lowerExpr_yields first) ?_
      intro input
      refine yields_imp (lowerStages_yields input rest) ?_
      intro code hcode hinput
      exact hcode _ hinput

/-- Codes for arguments compute their values. -/
theorem lowerArgs_yields : (es : List Expr) →
    Yields x.pools (lowerArgs x.setup.registry x.names es)
      (ComputesAll x (valuesOf x.setup enter es))
  | [] => by
      simp only [lowerArgs, valuesOf_nil]
      exact yields_pure computesAll_nil
  | e :: es => by
      simp only [lowerArgs, valuesOf_cons]
      refine yields_bind (lowerExpr_yields e) ?_
      intro code
      refine yields_bind (lowerArgs_yields es) ?_
      intro codes
      refine yields_pure ?_
      intro hcodes hcode
      exact computesAll_cons hcode hcodes

/-- Code for stages, after code for their input, computes what the stages make of it. -/
theorem lowerStages_yields : (input : Code) → (stages : List Expr) →
    Yields x.pools (lowerStages x.setup.registry x.names input stages) fun code =>
      ∀ act, Computes x act input →
        Computes x (act >>= pipedThrough x.setup enter stages) code
  | input, [] => by
      simp only [lowerStages]
      refine yields_pure ?_
      intro act hinput
      have hpiped : pipedThrough x.setup enter [] = pure := by
        funext v
        exact pipedThrough_nil x.setup enter v
      rw [hpiped, Act.bind_pure_act]
      exact hinput
  | input, .call callee args :: rest => by
      simp only [lowerStages]
      refine yields_bind (yields_resolved _) ?_
      intro b
      refine yields_bind (lowerArgs_yields args) ?_
      intro codes
      refine yields_bind (yields_lowerCall b (input :: codes)) ?_
      intro code
      refine yields_imp (lowerStages_yields code rest) ?_
      rintro last hlast ⟨rfl, -, hmax⟩ hcodes hresolve act hinput
      have hcall := hlast _ (computes_call (Registry.get?_id_of_resolve hresolve)
        (computesAll_cons hinput hcodes) hmax)
      simp only [Act.bind_assoc_act, Act.pure_bind_act] at hcall
      refine hcall.congr ?_
      intro r s hl
      refine hinput.bind_congr ?_ hl
      intro v r' s' hl'
      rw [pipedThrough_call_apply hl'.functions, hresolve]
      rfl
  | input, .identifier name :: rest => by
      simp only [lowerStages]
      refine yields_bind (lowerPipeBare_yields enter (.identifier name) input) ?_
      intro code
      refine yields_imp (lowerStages_yields code rest) ?_
      intro last hlast hcode act hinput
      have hnext := hlast _ (hcode act hinput)
      simpa only [Act.bind_assoc_act, ← pipedThrough_identifier] using hnext
  | input, .member object property :: rest => by
      simp only [lowerStages]
      refine yields_bind (lowerPipeBare_yields enter (.member object property) input) ?_
      intro code
      refine yields_imp (lowerStages_yields code rest) ?_
      intro last hlast hcode act hinput
      have hnext := hlast _ (hcode act hinput)
      simpa only [Act.bind_assoc_act, ← pipedThrough_member] using hnext
  | _, .number _ :: _ => by
      simp only [lowerStages]
      exact yields_throw
  | _, .string _ :: _ => by
      simp only [lowerStages]
      exact yields_throw
  | _, .hotkey _ :: _ => by
      simp only [lowerStages]
      exact yields_throw
  | _, .binary _ _ _ :: _ => by
      simp only [lowerStages]
      exact yields_throw
  | _, .pipeline _ :: _ => by
      simp only [lowerStages]
      exact yields_throw

end

/-- Code for an expression that may be missing. -/
theorem lowerExpr?_yields (e : Option Expr) :
    Yields x.pools (lowerExpr? x.setup.registry x.names e)
      (Computes x (valueOf? x.setup enter e)) := by
  cases e with
  | none => exact yields_pure computes_null
  | some e => exact lowerExpr_yields enter e

/-! ## Statements -/

theorem evalBlock_singleton (last : Value) (s : Stmt) :
    evalBlock x.setup enter last [s] = evalStmt x.setup enter s := by
  simp only [evalBlock]
  funext r
  rw [Act.bind_apply]
  rcases evalStmt x.setup enter s r with ⟨e | flow, r'⟩
  · rfl
  · cases flow <;> rfl

mutual

/-- Code for a statement performs it, given that every variable it sets has a slot. -/
theorem lowerStmt_yields : (s : Stmt) →
    (∀ name ∈ s.assigned, name ∈ x.names) →
    Yields x.pools (lowerStmt x.setup.registry x.names s) (Performs x (evalStmt x.setup enter s))
  | .bind _ _ _, _ => by
      simp only [lowerStmt]
      exact yields_throw
  | .function _ _ _, _ => by
      simp only [lowerStmt]
      exact yields_throw
  | .block body, hnames => by
      simp only [lowerStmt, evalStmt]
      exact lowerBlock_yields body hnames
  | .expr e, _ => by
      simp only [lowerStmt, evalStmt]
      exact yields_imp (lowerExpr_yields enter e) fun _ h => performs_expr h
  | .assign name e, hnames => by
      simp only [lowerStmt, evalStmt]
      refine yields_bind (lowerExpr?_yields enter e) ?_
      intro value
      refine yields_pure ?_
      intro hvalue
      exact performs_write hvalue (hnames name List.mem_cons_self)
  | .branch condition consequence none, hnames => by
      simp only [lowerStmt, evalStmt]
      refine yields_bind (lowerExpr_yields enter condition) ?_
      intro c
      refine yields_bind (lowerStmt_yields consequence hnames) ?_
      intro t
      refine yields_pure ?_
      intro ht hc
      exact performs_branch hc ht (performs_expr computes_null)
  | .branch condition consequence (some alternative), hnames => by
      have hconsequence : ∀ name ∈ consequence.assigned, name ∈ x.names :=
        fun name h => hnames name (List.mem_append_left _ h)
      have halternative : ∀ name ∈ alternative.assigned, name ∈ x.names :=
        fun name h => hnames name (List.mem_append_right _ h)
      simp only [lowerStmt, evalStmt]
      refine yields_bind (lowerExpr_yields enter condition) ?_
      intro c
      refine yields_bind (lowerStmt_yields consequence hconsequence) ?_
      intro t
      refine yields_bind (lowerStmt_yields alternative halternative) ?_
      intro e
      refine yields_pure ?_
      intro he ht hc
      exact performs_branch hc ht he
  | .loop condition body, hnames => by
      simp only [lowerStmt, evalStmt]
      refine yields_bind (lowerExpr_yields enter condition) ?_
      intro c
      refine yields_bind (lowerStmt_yields body hnames) ?_
      intro b
      refine yields_pure ?_
      intro hb hc
      exact performs_loop hc hb
  | .leave e, _ => by
      simp only [lowerStmt, evalStmt]
      refine yields_bind (lowerExpr?_yields enter e) ?_
      intro value
      refine yields_pure ?_
      intro hvalue
      exact performs_leave hvalue

/-- Code for statements in order performs them. -/
theorem lowerBlock_yields : (body : List Stmt) →
    (∀ name ∈ Stmt.assignedAll body, name ∈ x.names) →
    Yields x.pools (lowerBlock x.setup.registry x.names body)
      (Performs x (evalBlock x.setup enter .null body))
  | [], _ => by
      simp only [lowerBlock, evalBlock]
      exact yields_pure (performs_expr computes_null)
  | [s], hnames => by
      simp only [lowerBlock]
      rw [evalBlock_singleton]
      exact lowerStmt_yields s fun name h => hnames name (List.mem_append_left _ h)
  | s :: next :: rest, hnames => by
      have hfirst : ∀ name ∈ s.assigned, name ∈ x.names :=
        fun name h => hnames name (List.mem_append_left _ h)
      have hrest : ∀ name ∈ Stmt.assignedAll (next :: rest), name ∈ x.names :=
        fun name h => hnames name (List.mem_append_right _ h)
      have hlast : ∀ v, evalBlock x.setup enter v (next :: rest) =
          evalBlock x.setup enter .null (next :: rest) := by
        intro v
        simp only [evalBlock]
      rw [lowerBlock, evalBlock]
      refine yields_bind (lowerStmt_yields s hfirst) ?_
      intro c
      refine yields_bind (lowerBlock_yields (next :: rest) hrest) ?_
      intro d
      refine yields_pure ?_
      intro hd hc
      refine performs_seq hc ?_
      intro v
      rw [hlast v]
      exact hd

end

end Lowered

end Native
end Chord
