import Chord.Proofs.Eval.Straight
import Chord.Proofs.Library
import Chord.Proofs.Native.Lowering

/-!
# What lowering foretells

Lowering looks up all names of an action before anything runs. This module says what its success
tells about interpreting the same action: which faults are still possible.

**Input.** A `Scene`: an action, and the state of the host in which it is interpreted.

**Algorithm.** The recursion is that of lowering. `Foretells` compares a step of lowering with a
part of the interpreter; `Foretells.bind` puts two such pairs in sequence.

**Results.** `lowerExpr_foretells` and `lowerStmt_foretells`.
-/

namespace Chord

/-! ## What an action makes use of -/

/-- What happens in an action apart from its control flow. -/
inductive Use where
  /-- Something is called, by the name that an expression is. -/
  | callee (e : Expr)
  | operator (op : BinOp)

mutual

/-- The calls and operators of an expression. -/
def Expr.uses : Expr → List Use
  | .identifier name => [.callee (.identifier name)]
  | .member object property => [.callee (.member object property)]
  | .binary left op right => .operator op :: (left.uses ++ right.uses)
  | .call callee args => .callee callee :: Expr.usesAll args
  | .pipeline stages => Expr.usesAll stages
  | _ => []

/-- The calls and operators of some expressions. -/
def Expr.usesAll : List Expr → List Use
  | [] => []
  | e :: es => e.uses ++ Expr.usesAll es

end

/-- The calls and operators of an expression that may be missing. -/
def Expr.uses? : Option Expr → List Use
  | some e => e.uses
  | none => []

mutual

/-- The calls and operators of a statement, functions and bindings inside it aside. -/
def Stmt.uses : Stmt → List Use
  | .block body => Stmt.usesAll body
  | .expr e => e.uses
  | .assign _ e => Expr.uses? e
  | .branch condition consequence none => condition.uses ++ consequence.uses
  | .branch condition consequence (some alternative) =>
      condition.uses ++ (consequence.uses ++ alternative.uses)
  | .loop condition body => condition.uses ++ body.uses
  | .leave e => Expr.uses? e
  | _ => []

/-- The calls and operators of some statements. -/
def Stmt.usesAll : List Stmt → List Use
  | [] => []
  | s :: rest => s.uses ++ Stmt.usesAll rest

end

namespace Native

open Eval

variable {σ α β : Type}

/-! ## Faults of a run -/

/-- A built-in function that an action calls by some name. -/
def Calls (registry : Registry σ) (action : Stmt) (b : Builtin σ) : Prop :=
  ∃ callee, .callee callee ∈ action.uses ∧ registry.resolve callee = .ok b

/-- The states of the host that an action can bring about by calls that give a value. -/
inductive Reaches (registry : Registry σ) (action : Stmt) (start : σ) : σ → Prop
  | start : Reaches registry action start start
  | call {state : σ} {b : Builtin σ} {args : List Value} {v : Value} :
      Reaches registry action start state → Calls registry action b → args.length = b.arity →
      (b.body args state).result = .ok v →
      Reaches registry action start (b.body args state).state

/-- The faults that an action can run into although all its names are resolved, and the state of the
host then: operands that one of its operators cannot divide; what a function returns that the action
calls; and the read of a variable of the action before it has a value. -/
inductive Raises (registry : Registry σ) (action : Stmt) (start : σ) : Fault → σ → Prop
  | division {state : σ} {op : BinOp} {l r : Value} :
      Reaches registry action start state → .operator op ∈ action.uses →
      applyBinOp op l r = .error .divisionByZero →
      Raises registry action start .divisionByZero state
  | builtin {state : σ} {b : Builtin σ} {args : List Value} {cause : Fault} :
      Reaches registry action start state → Calls registry action b → args.length = b.arity →
      (b.body args state).result = .error cause →
      Raises registry action start cause (b.body args state).state
  | unknown {state : σ} {name : String} :
      Reaches registry action start state → name ∈ action.letNames →
      registry.lookupGlobal name = none →
      Raises registry action start (.unknownIdentifier name) state
  | arguments {state : σ} {name : String} {b : Builtin σ} :
      Reaches registry action start state → name ∈ action.letNames →
      registry.lookupGlobal name = some b → b.arity ≠ 0 →
      Raises registry action start (.arityMismatch name b.arity 0) state

/-- An action and the state of the host in which it is interpreted. -/
structure Scene (σ : Type) where
  setup : Setup σ
  built : setup.registry.Built
  action : Stmt
  start : σ

namespace Scene

/-- A state on the way of an action: nothing but its variables is declared. -/
structure Poised (x : Scene σ) (r : Run σ) : Prop where
  within : r.Within x.action.letNames
  host : Reaches x.setup.registry x.action x.start r.machine.host

/-- An outcome on the way of an action: it can go on with a result, or a fault is raised. Loops may
not end. -/
def Safe (x : Scene σ) (Q : α → Prop) : Except Stop α × Run σ → Prop
  | (.ok a, r) => x.Poised r ∧ Q a
  | (.error (.fault cause), r) =>
      Raises x.setup.registry x.action x.start cause r.machine.host
  | (.error .unfinished, _) => True

/-- All outcomes of a part of the interpreter are safe. -/
def Sound (x : Scene σ) (Q : α → Prop) (act : Act (Run σ) α) : Prop :=
  ∀ r, x.Poised r → x.Safe Q (act r)

/-- What a step of lowering tells about a part of the interpreter: if it succeeds, the part is
sound. -/
def Foretells (x : Scene σ) (R : α → β → Prop) (m : Lower α) (act : Act (Run σ) β) : Prop :=
  ∀ (p p' : Pools) (a : α), m p = .ok (a, p') → x.Sound (R a) act

variable {x : Scene σ}

/-! ## Sound parts -/

theorem Sound.pure {Q : α → Prop} {a : α} (h : Q a) :
    x.Sound Q (Pure.pure a : Act (Run σ) α) :=
  fun _ hr => ⟨hr, h⟩

theorem Sound.imp {Q Q' : α → Prop} {act : Act (Run σ) α} (h : x.Sound Q act)
    (himp : ∀ a, Q a → Q' a) : x.Sound Q' act := by
  intro r hr
  have hact := h r hr
  rcases hrun : act r with ⟨(cause | _) | a, r'⟩
  · rw [hrun] at hact
    exact hact
  · trivial
  · rw [hrun] at hact
    exact ⟨hact.1, himp a hact.2⟩

theorem Sound.bind {Q : α → Prop} {S : β → Prop} {act : Act (Run σ) α} {f : α → Act (Run σ) β}
    (h : x.Sound Q act) (hf : ∀ a, Q a → x.Sound S (f a)) : x.Sound S (act >>= f) := by
  intro r hr
  have hact := h r hr
  rw [Act.bind_apply]
  rcases hrun : act r with ⟨(cause | _) | a, r'⟩
  · rw [hrun] at hact
    exact hact
  · trivial
  · rw [hrun] at hact
    exact hf a hact.2 r' hact.1

/-- Repeating a sound step is sound. -/
theorem Sound.repeatUntil {Q : α → Prop} {turn : Act (Run σ) (Option α)}
    (h : x.Sound (fun ending => ∀ a ∈ ending, Q a) turn) :
    (n : Nat) → x.Sound Q (Act.repeatUntil turn n)
  | 0 => fun _ _ => trivial
  | n + 1 => by
      intro r hr
      have hturn := h r hr
      unfold Act.repeatUntil
      rcases hrun : turn r with ⟨(cause | _) | ending, r'⟩
      · rw [hrun] at hturn
        exact hturn
      · trivial
      · rw [hrun] at hturn
        cases ending with
        | none => exact repeatUntil h n r' hturn.1
        | some a => exact ⟨hturn.1, hturn.2 a rfl⟩

/-- The call of a function of the action with the right number of arguments. -/
theorem sound_callBuiltin {b : Builtin σ} (hb : Calls x.setup.registry x.action b)
    {args : List Value} (hargs : args.length = b.arity) :
    x.Sound (fun _ => True) (callBuiltin b args) := by
  intro r hr
  have hcall : b.call args r.machine.host = b.body args r.machine.host :=
    call_eq_body hargs _
  have hhost : (r.machine.toDesk.call b args).2.host = (b.body args r.machine.host).state :=
    congrArg Effect.state hcall
  rw [callBuiltin_apply, hcall]
  cases hresult : (b.body args r.machine.host).result with
  | ok v =>
      refine ⟨⟨hr.within, ?_⟩, trivial⟩
      show Reaches _ _ _ (r.machine.toDesk.call b args).2.host
      rw [hhost]
      exact .call hr.host hb hargs hresult
  | error cause =>
      show Raises _ _ _ cause (r.machine.toDesk.call b args).2.host
      rw [hhost]
      exact .builtin hr.host hb hargs hresult

/-- An operator of the action. -/
theorem sound_applyBinOp {op : BinOp} (hop : .operator op ∈ x.action.uses) (l r : Value) :
    x.Sound (fun _ => True) (Act.ofExcept (applyBinOp op l r) : Act (Run σ) Value) := by
  intro run hrun
  cases hresult : applyBinOp op l r with
  | ok v => exact ⟨hrun, trivial⟩
  | error cause =>
      obtain rfl := applyBinOp_eq_error hresult
      exact .division hrun.host hop hresult

/-! ## Steps of lowering -/

namespace Foretells

variable {γ δ : Type} {R : α → β → Prop} {S : γ → δ → Prop} {m : Lower α}
  {act : Act (Run σ) β}

/-- What is sound in any case. -/
theorem of_sound (h : ∀ a, x.Sound (R a) act) : x.Foretells R m act :=
  fun _ _ a _ => h a

/-- A step of lowering that cannot fail. -/
theorem of_pure {a : α} (h : x.Sound (R a) act) : x.Foretells R (pure a) act := by
  intro p p' b hrun
  cases hrun
  exact h

/-- A step of lowering that fails tells nothing. -/
theorem of_throw (e : CompileError) : x.Foretells R (throw e : Lower α) act := by
  intro p p' a hrun
  cases hrun

/-- Only what a part does on the way of the action counts. -/
theorem congr {act' : Act (Run σ) β} (h : x.Foretells R m act)
    (heq : ∀ r, x.Poised r → act' r = act r) : x.Foretells R m act' := by
  intro p p' a hrun r hr
  rw [heq r hr]
  exact h p p' a hrun r hr

/-- Steps in sequence. -/
theorem bind {f : α → Lower γ} {g : β → Act (Run σ) δ} (h : x.Foretells R m act)
    (hnext : ∀ a b, R a b → x.Foretells S (f a) (g b)) :
    x.Foretells S (m >>= f) (act >>= g) := by
  intro p p' c hrun
  obtain ⟨a, q, hfirst, hsecond⟩ := lower_bind_eq_ok hrun
  exact (h p q a hfirst).bind fun b hb => hnext a b hb q p' c hsecond

/-- A step of lowering beside a part whose result is handed on. -/
theorem andThen {S : α → δ → Prop} {g : β → Act (Run σ) δ} (h : x.Foretells R m act)
    (hnext : ∀ a b, R a b → x.Sound (S a) (g b)) : x.Foretells S m (act >>= g) :=
  fun p p' a hrun => (h p p' a hrun).bind (hnext a)

/-- Whatever is lowered afterwards. -/
theorem of_bind_left {f : α → Lower γ} {S : γ → β → Prop} (h : x.Foretells R m act)
    (hnext : ∀ a b c, R a b → S c b) : x.Foretells S (m >>= f) act := by
  intro p p' c hrun
  obtain ⟨a, q, hfirst, -⟩ := lower_bind_eq_ok hrun
  exact (h p q a hfirst).imp fun b => hnext a b c

/-- Whatever is lowered before. -/
theorem of_bind_right {f : α → Lower γ} {S : γ → β → Prop}
    (h : ∀ a, x.Foretells S (f a) act) : x.Foretells S (m >>= f) act := by
  intro p p' c hrun
  obtain ⟨a, q, -, hsecond⟩ := lower_bind_eq_ok hrun
  exact h a q p' c hsecond

/-- A look-up on both sides. -/
theorem resolved {r : Except Fault α} {f : α → Lower γ} {g : α → Act (Run σ) δ}
    (h : ∀ a, r = .ok a → x.Foretells S (f a) (g a)) :
    x.Foretells S (Native.resolved r >>= f) (Act.ofExcept r >>= g) := by
  cases r with
  | ok a => exact h a rfl
  | error cause => exact of_throw _

end Foretells

/-! ## Calls -/

section Calls

variable {enter : Enter σ} {r : Run σ}

/-- A call that is lowered beside the call of the function. -/
theorem lowerCall_foretells {b : Builtin σ} (hb : Calls x.setup.registry x.action b)
    {codes : List Code} {values : List Value} (h : codes.length = values.length) :
    x.Foretells (fun _ _ => True) (lowerCall b codes) (callBuiltin b values) := by
  unfold lowerCall
  split
  · exact .of_throw _
  · rename_i heq
    have harity : values.length = b.arity := by
      rw [← h]
      simpa using heq
    split
    · exact .of_throw _
    · exact .of_pure (sound_callBuiltin hb harity)

theorem lowerBare_foretells {callee : Expr} (hcallee : .callee callee ∈ x.action.uses) :
    x.Foretells (fun _ _ => True) (lowerBare x.setup.registry callee)
      (reading (callBare x.setup.registry enter callee)) := by
  unfold lowerBare
  refine Foretells.congr ?_ fun r hr => reading_callBare hr.within.functions callee
  refine .resolved fun b hb => ?_
  exact lowerCall_foretells ⟨callee, hcallee, hb⟩ rfl

theorem lowerPipeBare_foretells {stage : Expr} (hstage : .callee stage ∈ x.action.uses)
    (code : Code) (input : Value) :
    x.Foretells (fun _ _ => True) (lowerPipeBare x.setup.registry stage code)
      (reading (pipeBare x.setup.registry enter stage input)) := by
  unfold lowerPipeBare
  refine Foretells.congr ?_ fun r hr => reading_pipeBare hr.within.functions stage input
  refine .resolved fun b hb => ?_
  have hcalls : Calls x.setup.registry x.action b := ⟨stage, hstage, hb⟩
  split
  · exact (lowerCall_foretells hcalls rfl).of_bind_left fun _ _ _ _ => trivial
  · exact lowerCall_foretells hcalls rfl

/-- The read of a variable that may have no value yet. -/
theorem sound_variable {name : String} (hname : name ∈ x.action.letNames)
    (hcallee : .callee (.identifier name) ∈ x.action.uses) :
    x.Sound (fun _ => True)
      (variableOr name (reading (callBare x.setup.registry enter (.identifier name)))) := by
  intro r hr
  unfold variableOr
  cases r.scope.get? name with
  | some v => exact ⟨hr, trivial⟩
  | none =>
      simp only [reading_callBare hr.within.functions]
      cases hlookup : x.setup.registry.lookupGlobal name with
      | none =>
          have hresolve : x.setup.registry.resolve (.identifier name) =
              .error (.unknownIdentifier name) := by
            simp only [Registry.resolve, hlookup]
          rw [hresolve]
          exact .unknown hr.host hname hlookup
      | some b =>
          have hresolve : x.setup.registry.resolve (.identifier name) = .ok b := by
            simp only [Registry.resolve, hlookup]
          rw [hresolve]
          show x.Safe _ (callBuiltin b [] r)
          by_cases harity : b.arity = 0
          · have hcalls : Calls x.setup.registry x.action b := ⟨_, hcallee, hresolve⟩
            have hargs : ([] : List Value).length = b.arity := harity.symm
            exact sound_callBuiltin hcalls hargs r hr
          · have hmismatch : ([] : List Value).length ≠ b.arity := fun h => harity h.symm
            rw [callBuiltin_mismatch hmismatch]
            show Raises _ _ _ (.arityMismatch b.qualifiedName b.arity 0) _
            rw [x.built.qualifiedName_of_lookupGlobal hlookup]
            exact .arguments hr.host hname hlookup harity

end Calls

/-! ## Expressions -/

section Lowered

variable (enter : Enter σ)

theorem identifier_foretells (name : String)
    (hcallee : .callee (.identifier name) ∈ x.action.uses) :
    x.Foretells (fun _ _ => True)
      (lowerExpr x.setup.registry x.action.letNames (.identifier name))
      (valueOf x.setup enter (.identifier name)) := by
  simp only [lowerExpr]
  rw [valueOf_identifier]
  split
  · rename_i slot hslot
    have hname : name ∈ x.action.letNames := by
      by_contra hnot
      rw [List.idxOf?_eq_none_iff.2 hnot] at hslot
      cases hslot
    exact .of_sound fun _ => sound_variable hname hcallee
  · rename_i hslot
    have hbare : x.Foretells (fun _ _ => True) (lowerBare x.setup.registry (.identifier name))
        (reading (callBare x.setup.registry enter (.identifier name))) :=
      lowerBare_foretells hcallee
    refine hbare.congr fun r hr => ?_
    unfold variableOr
    rw [hr.within.unset name (List.idxOf?_eq_none_iff.1 hslot)]

mutual

/-- Lowering an expression foretells its evaluation. -/
theorem lowerExpr_foretells : (e : Expr) → (∀ use ∈ e.uses, use ∈ x.action.uses) →
    x.Foretells (fun _ _ => True) (lowerExpr x.setup.registry x.action.letNames e)
      (valueOf x.setup enter e)
  | .number v, _ => .of_sound fun _ => .pure trivial
  | .string text, _ => .of_sound fun _ => .pure trivial
  | .hotkey text, _ => .of_sound fun _ => .pure trivial
  | .identifier name, huses => identifier_foretells enter name (huses _ List.mem_cons_self)
  | .member object property, huses => by
      have hvalue : valueOf x.setup enter (.member object property) =
          reading (callBare x.setup.registry enter (.member object property)) := by
        unfold valueOf
        simp only [evalExpr]
      simp only [lowerExpr]
      rw [hvalue]
      exact lowerBare_foretells (huses _ List.mem_cons_self)
  | .binary left op right, huses => by
      have hop : .operator op ∈ x.action.uses := huses _ List.mem_cons_self
      have hleft := lowerExpr_foretells left fun use h =>
        huses use (List.mem_cons_of_mem _ (List.mem_append_left _ h))
      have hright := lowerExpr_foretells right fun use h =>
        huses use (List.mem_cons_of_mem _ (List.mem_append_right _ h))
      cases op with
      | and =>
          simp only [lowerExpr, valueOf_and]
          refine hleft.bind fun l v _ => ?_
          split
          · exact hright.bind fun r w _ => .of_pure (.pure trivial)
          · exact .of_sound fun _ => .pure trivial
      | or =>
          simp only [lowerExpr, valueOf_or]
          refine hleft.bind fun l v _ => ?_
          split
          · exact .of_sound fun _ => .pure trivial
          · exact hright.bind fun r w _ => .of_pure (.pure trivial)
      | _ =>
          rw [valueOf_binary x.setup enter rfl]
          simp only [lowerExpr]
          refine hleft.bind fun l v _ => hright.bind fun r w _ => ?_
          exact .of_pure (sound_applyBinOp hop v w)
  | .call callee args, huses => by
      simp only [lowerExpr]
      refine Foretells.congr ?_ fun r hr => valueOf_call_apply hr.within.functions callee args
      refine .resolved fun b hb => ?_
      have hcalls : Calls x.setup.registry x.action b :=
        ⟨callee, huses _ List.mem_cons_self, hb⟩
      refine (lowerArgs_foretells args fun use h =>
        huses use (List.mem_cons_of_mem _ h)).bind fun codes values hlength => ?_
      exact lowerCall_foretells hcalls hlength
  | .pipeline [], _ => .of_sound fun _ => .pure trivial
  | .pipeline (first :: rest), huses => by
      simp only [lowerExpr]
      rw [valueOf_pipeline]
      refine (lowerExpr_foretells first fun use h =>
        huses use (List.mem_append_left _ h)).bind fun code v _ => ?_
      exact lowerStages_foretells rest (fun use h => huses use (List.mem_append_right _ h)) code v

/-- Lowering arguments foretells their evaluation. -/
theorem lowerArgs_foretells : (es : List Expr) →
    (∀ use ∈ Expr.usesAll es, use ∈ x.action.uses) →
    x.Foretells (fun codes values => codes.length = values.length)
      (lowerArgs x.setup.registry x.action.letNames es) (valuesOf x.setup enter es)
  | [], _ => by
      simp only [lowerArgs, valuesOf_nil]
      exact .of_pure (.pure rfl)
  | e :: es, huses => by
      simp only [lowerArgs, valuesOf_cons]
      refine (lowerExpr_foretells e fun use h =>
        huses use (List.mem_append_left _ h)).bind fun code v _ => ?_
      refine (lowerArgs_foretells es fun use h =>
        huses use (List.mem_append_right _ h)).bind fun codes values hlength => ?_
      refine .of_pure (.pure ?_)
      rw [List.length_cons, List.length_cons, hlength]

/-- Lowering stages foretells what they do with a value. -/
theorem lowerStages_foretells : (stages : List Expr) →
    (∀ use ∈ Expr.usesAll stages, use ∈ x.action.uses) → (input : Code) → (v : Value) →
    x.Foretells (fun _ _ => True)
      (lowerStages x.setup.registry x.action.letNames input stages)
      (pipedThrough x.setup enter stages v)
  | [], _, _, _ => by
      simp only [lowerStages, pipedThrough_nil]
      exact .of_pure (.pure trivial)
  | .call callee args :: rest, huses, input, v => by
      have hstage : ∀ use ∈ (Expr.call callee args).uses, use ∈ x.action.uses :=
        fun use h => huses use (List.mem_append_left _ h)
      simp only [lowerStages]
      refine Foretells.congr ?_ fun r hr =>
        pipedThrough_call_apply hr.within.functions callee args rest v
      refine .resolved fun b hb => ?_
      have hcalls : Calls x.setup.registry x.action b :=
        ⟨callee, hstage _ List.mem_cons_self, hb⟩
      refine (lowerArgs_foretells args fun use h =>
        hstage use (List.mem_cons_of_mem _ h)).bind fun codes values hlength => ?_
      have hlengths : (input :: codes).length = (v :: values).length := by
        rw [List.length_cons, List.length_cons, hlength]
      refine (lowerCall_foretells hcalls hlengths).bind fun code w _ => ?_
      exact lowerStages_foretells rest (fun use h => huses use (List.mem_append_right _ h)) code w
  | .identifier name :: rest, huses, input, v => by
      simp only [lowerStages, pipedThrough_identifier]
      refine (lowerPipeBare_foretells (huses _ List.mem_cons_self) input v).bind
        fun code w _ => ?_
      exact lowerStages_foretells rest (fun use h => huses use (List.mem_append_right _ h)) code w
  | .member object property :: rest, huses, input, v => by
      simp only [lowerStages, pipedThrough_member]
      refine (lowerPipeBare_foretells (huses _ List.mem_cons_self) input v).bind
        fun code w _ => ?_
      exact lowerStages_foretells rest (fun use h => huses use (List.mem_append_right _ h)) code w
  | .number _ :: _, _, _, _ => .of_throw _
  | .string _ :: _, _, _, _ => .of_throw _
  | .hotkey _ :: _, _, _, _ => .of_throw _
  | .binary _ _ _ :: _, _, _, _ => .of_throw _
  | .pipeline _ :: _, _, _, _ => .of_throw _

end

theorem lowerExpr?_foretells (e : Option Expr)
    (huses : ∀ use ∈ Expr.uses? e, use ∈ x.action.uses) :
    x.Foretells (fun _ _ => True) (lowerExpr? x.setup.registry x.action.letNames e)
      (valueOf? x.setup enter e) := by
  cases e with
  | none => exact .of_pure (.pure trivial)
  | some e => exact lowerExpr_foretells enter e huses

/-! ## Statements -/

/-- Setting a variable of the action stays on its way. -/
theorem sound_assign {name : String} (hname : name ∈ x.action.letNames) (v : Value) :
    x.Sound (fun _ => True) (do
      rescope (·.set name v)
      return .normal v : Act (Run σ) Flow) := by
  intro r hr
  have hwithin : (r.scope.set name v).Within x.action.letNames :=
    (Scope.Within.stable x.action.letNames).set name hname r.scope v hr.within
  exact ⟨⟨hwithin, hr.host⟩, trivial⟩

mutual

/-- Lowering a statement foretells its run, given that its variables are those of the action. -/
theorem lowerStmt_foretells : (s : Stmt) →
    (∀ name ∈ s.assigned, name ∈ x.action.letNames) →
    (∀ use ∈ s.uses, use ∈ x.action.uses) →
    x.Foretells (fun _ _ => True) (lowerStmt x.setup.registry x.action.letNames s)
      (evalStmt x.setup enter s)
  | .bind _ _ _, _, _ => .of_throw _
  | .function _ _ _, _, _ => .of_throw _
  | .block body, hnames, huses => by
      simp only [lowerStmt, evalStmt]
      exact lowerBlock_foretells body hnames huses .null
  | .expr e, _, huses => by
      simp only [lowerStmt, evalStmt]
      exact (lowerExpr_foretells enter e huses).andThen fun _ v _ => .pure trivial
  | .assign name e, hnames, huses => by
      simp only [lowerStmt, evalStmt]
      refine (lowerExpr?_foretells enter e huses).bind fun _ v _ => ?_
      exact .of_pure (sound_assign (hnames name List.mem_cons_self) v)
  | .branch condition consequence none, hnames, huses => by
      have hconsequence := lowerStmt_foretells consequence hnames fun use h =>
        huses use (List.mem_append_right _ h)
      simp only [lowerStmt, evalStmt]
      refine (lowerExpr_foretells enter condition fun use h =>
        huses use (List.mem_append_left _ h)).bind fun c v _ => ?_
      split
      · exact hconsequence.of_bind_left fun _ _ _ _ => trivial
      · exact .of_sound fun _ => .pure trivial
  | .branch condition consequence (some alternative), hnames, huses => by
      have hconsequence := lowerStmt_foretells consequence
        (fun name h => hnames name (List.mem_append_left _ h))
        (fun use h => huses use (List.mem_append_right _ (List.mem_append_left _ h)))
      have halternative := lowerStmt_foretells alternative
        (fun name h => hnames name (List.mem_append_right _ h))
        (fun use h => huses use (List.mem_append_right _ (List.mem_append_right _ h)))
      simp only [lowerStmt, evalStmt]
      refine (lowerExpr_foretells enter condition fun use h =>
        huses use (List.mem_append_left _ h)).bind fun c v _ => ?_
      split
      · exact hconsequence.of_bind_left fun _ _ _ _ => trivial
      · exact .of_bind_right fun _ => halternative.of_bind_left fun _ _ _ _ => trivial
  | .loop condition body, hnames, huses => by
      have hcondition := lowerExpr_foretells enter condition fun use h =>
        huses use (List.mem_append_left _ h)
      have hbody := lowerStmt_foretells body hnames fun use h =>
        huses use (List.mem_append_right _ h)
      simp only [lowerStmt, evalStmt]
      intro p p' a hrun
      refine .repeatUntil ?_ x.setup.limits.loops
      obtain ⟨c, q, hc, hrest⟩ := lower_bind_eq_ok hrun
      obtain ⟨b, q', hb, -⟩ := lower_bind_eq_ok hrest
      refine (hcondition p q c hc).bind fun v _ => ?_
      split
      · refine (hbody q q' b hb).bind fun flow _ => ?_
        cases flow with
        | normal v => exact .pure fun _ _ => trivial
        | left v => exact .pure fun _ _ => trivial
      · exact .pure fun _ _ => trivial
  | .leave e, _, huses => by
      simp only [lowerStmt, evalStmt]
      refine (lowerExpr?_foretells enter e huses).bind fun _ v _ => ?_
      exact .of_pure (.pure trivial)

/-- Lowering statements in order foretells their run. -/
theorem lowerBlock_foretells : (body : List Stmt) →
    (∀ name ∈ Stmt.assignedAll body, name ∈ x.action.letNames) →
    (∀ use ∈ Stmt.usesAll body, use ∈ x.action.uses) → (last : Value) →
    x.Foretells (fun _ _ => True) (lowerBlock x.setup.registry x.action.letNames body)
      (evalBlock x.setup enter last body)
  | [], _, _, last => by
      simp only [lowerBlock, evalBlock]
      exact .of_pure (.pure trivial)
  | [s], hnames, huses, last => by
      simp only [lowerBlock]
      rw [evalBlock_singleton (x := ⟨x.setup, [], {}, .empty⟩)]
      exact lowerStmt_foretells s (fun name h => hnames name (List.mem_append_left _ h))
        (fun use h => huses use (List.mem_append_left _ h))
  | s :: next :: rest, hnames, huses, last => by
      have hrest := lowerBlock_foretells (next :: rest)
        (fun name h => hnames name (List.mem_append_right _ h))
        (fun use h => huses use (List.mem_append_right _ h))
      rw [lowerBlock, evalBlock]
      refine (lowerStmt_foretells s (fun name h => hnames name (List.mem_append_left _ h))
        (fun use h => huses use (List.mem_append_left _ h))).bind fun c flow _ => ?_
      cases flow with
      | normal v => exact (hrest v).of_bind_left fun _ _ _ _ => trivial
      | left v => exact .of_sound fun _ => .pure trivial

end

end Lowered

end Scene

end Native
end Chord
