import Chord.Proofs.Eval.Footprint
import Mathlib.Data.List.TakeDrop

/-!
# Straight actions, one instruction after the other

In blocks, assignments and expressions without logical operators every part is evaluated, from left
to right, unless an earlier one fails. So such an action comes down to a list of instructions, which
can be written down before anything runs.

**Input.** A straight action and the names of its variables.

**Algorithm.** The instructions of a part put its value on a stack. The recursion is that of the
evaluation: a callee is looked up before the arguments, and a function is called after them.

**Results.** `evalStmt_eqOn`: carrying out the instructions of an action is interpreting it.
`Instruction.unresolved?` says which instructions fail whenever they are reached, because of a name,
and `Instruction.perform_eq_error` how the other ones can fail.
-/

namespace Chord

mutual

/-- Expressions without logical operators: all parts of such an expression are evaluated. -/
def Expr.isStraight : Expr → Bool
  | .binary left op right => !op.isShortCircuit && left.isStraight && right.isStraight
  | .call _ args => Expr.areStraight args
  | .pipeline stages => Expr.areStraight stages
  | _ => true

/-- Lists of expressions without logical operators. -/
def Expr.areStraight : List Expr → Bool
  | [] => true
  | e :: es => e.isStraight && Expr.areStraight es

end

mutual

/-- Statements that run from their beginning to their end: blocks, assignments and expressions
without logical operators. -/
def Stmt.isStraight : Stmt → Bool
  | .block body => Stmt.areStraight body
  | .expr e => e.isStraight
  | .assign _ (some e) => e.isStraight
  | .assign _ none => true
  | _ => false

/-- Lists of statements that run from their beginning to their end. -/
def Stmt.areStraight : List Stmt → Bool
  | [] => true
  | s :: rest => s.isStraight && Stmt.areStraight rest

end

/-! ## Instructions -/

/-- What is done next on the way of a straight action. Values wait on a stack for the instruction
that takes them. -/
inductive Instruction (names : List String) where
  | literal (value : Value)
  /-- Reads a variable of the action. Until it has a value, its name is called. -/
  | read (name : String) (assigned : name ∈ names)
  /-- Looks up a function. -/
  | look (callee : Expr)
  /-- Calls a function on the last values. -/
  | call (callee : Expr) (count : Nat)
  /-- Hands the last value to a stage that is a bare name. -/
  | pipe (stage : Expr)
  /-- Comes to something that cannot be a stage. -/
  | refuse (stage : Expr)
  | operate (op : BinOp)
  /-- Sets a variable to the last value. -/
  | set (name : String)
  /-- Forgets the last value. -/
  | drop

mutual

/-- The instructions of an expression, in the order of its evaluation. -/
def Expr.instructions (names : List String) : Expr → List (Instruction names)
  | .number x => [.literal (.ofNumber x)]
  | .string s => [.literal (.string s)]
  | .hotkey text => [.literal (.string text)]
  | .identifier name =>
      if h : name ∈ names then [.read name h]
      else [.look (.identifier name), .call (.identifier name) 0]
  | .member object property => [.look (.member object property), .call (.member object property) 0]
  | .binary left op right =>
      left.instructions names ++ (right.instructions names ++ [.operate op])
  | .call callee args =>
      .look callee :: (Expr.argInstructions names args ++ [.call callee args.length])
  | .pipeline [] => [.literal .null]
  | .pipeline (first :: rest) => first.instructions names ++ Expr.stageInstructions names rest

/-- The instructions of arguments, from left to right. -/
def Expr.argInstructions (names : List String) : List Expr → List (Instruction names)
  | [] => []
  | e :: es => e.instructions names ++ Expr.argInstructions names es

/-- The instructions of the stages of a pipeline, while their input waits. -/
def Expr.stageInstructions (names : List String) : List Expr → List (Instruction names)
  | [] => []
  | .call callee args :: rest =>
      .look callee :: (Expr.argInstructions names args ++
        .call callee (args.length + 1) :: Expr.stageInstructions names rest)
  | .identifier name :: rest =>
      .look (.identifier name) :: .pipe (.identifier name) :: Expr.stageInstructions names rest
  | .member object property :: rest =>
      .look (.member object property) :: .pipe (.member object property) ::
        Expr.stageInstructions names rest
  | other :: _ => [.refuse other]

end

mutual

/-- The instructions of a straight statement. -/
def Stmt.instructions (names : List String) : Stmt → List (Instruction names)
  | .block body => .literal .null :: Stmt.blockInstructions names body
  | .expr e => e.instructions names
  | .assign name (some e) => e.instructions names ++ [.set name]
  | .assign name none => [.literal .null, .set name]
  | _ => []

/-- The instructions of statements in order, while the value of the statement before waits. -/
def Stmt.blockInstructions (names : List String) : List Stmt → List (Instruction names)
  | [] => []
  | s :: rest => .drop :: (s.instructions names ++ Stmt.blockInstructions names rest)

end

/-! ## Operators -/

theorem Arith.apply_eq_error {op : Arith} {a b : Number} {cause : Fault}
    (h : op.apply a b = .error cause) : cause = .divisionByZero := by
  unfold Arith.apply at h
  split at h
  · cases h
    rfl
  · split at h
    · split at h <;> cases h
    · cases h
    · split at h <;> cases h

/-- An operator fails at nothing but a division by zero. -/
theorem applyBinOp_eq_error {op : BinOp} {l r : Value} {cause : Fault}
    (h : applyBinOp op l r = .error cause) : cause = .divisionByZero := by
  cases op with
  | add =>
      simp only [applyBinOp] at h
      split at h
      · cases h
      · exact Arith.apply_eq_error h
  | subtract => exact Arith.apply_eq_error h
  | multiply => exact Arith.apply_eq_error h
  | divide => exact Arith.apply_eq_error h
  | _ => cases h

variable {σ : Type} {names : List String}

namespace Eval

/-- Calls what an expression names on some arguments. -/
def callNamed (setup : Setup σ) (callee : Expr) (args : List Value) : Act (Run σ) Value := do
  let b ← Act.ofExcept (setup.registry.resolve callee)
  callBuiltin b args

end Eval

namespace Instruction

open Eval

/-- Carries out an instruction on the values that wait. Where one is missing, it is null. -/
def perform (setup : Setup σ) : Instruction names → List Value → Act (Run σ) (List Value)
  | .literal value, stack => pure (value :: stack)
  | .read name _, stack => do
      let value ← variableOr name (callNamed setup (.identifier name) [])
      return value :: stack
  | .look callee, stack => do
      let _ ← Act.ofExcept (setup.registry.resolve callee)
      return stack
  | .call callee count, stack => do
      let b ← Act.ofExcept (setup.registry.resolve callee)
      if count = b.arity then
        let value ← callBuiltin b (stack.takeD count .null).reverse
        return value :: stack.drop count
      else Act.fault (b.mismatch count)
  | .pipe stage, stack => do
      let b ← Act.ofExcept (setup.registry.resolve stage)
      let value ← callBuiltin b (if b.arity == 0 then [] else [stack.headD .null])
      return value :: stack.tail
  | .refuse stage, _ => Act.fault (.invalidStage stage.text)
  | .operate op, r :: l :: stack => do
      let value ← Act.ofExcept (applyBinOp op l r)
      return value :: stack
  | .set name, value :: stack => do
      rescope (·.set name value)
      return value :: stack
  | .drop, _ :: stack => pure stack
  | _, stack => pure stack

/-- Carries out instructions in order. -/
def performAll (setup : Setup σ) :
    List (Instruction names) → List Value → Act (Run σ) (List Value)
  | [], stack => pure stack
  | i :: rest, stack => i.perform setup stack >>= performAll setup rest

theorem performAll_append (setup : Setup σ) (before after : List (Instruction names))
    (stack : List Value) :
    performAll setup (before ++ after) stack =
      (performAll setup before stack >>= performAll setup after) := by
  induction before generalizing stack with
  | nil => rfl
  | cons i before ih =>
      simp only [List.cons_append, performAll, Act.bind_assoc_act]
      congr 1
      funext stack
      exact ih stack

/-! ## How instructions fail -/

/-- The fault of a look-up, or else what is wrong with what it finds. -/
def faultOf? (found : Except Fault (Builtin σ)) (wrong : Builtin σ → Option Fault) : Option Fault :=
  match found with
  | .error cause => some cause
  | .ok b => wrong b

@[simp] theorem faultOf?_error (cause : Fault) (wrong : Builtin σ → Option Fault) :
    faultOf? (.error cause) wrong = some cause :=
  rfl

@[simp] theorem faultOf?_ok (b : Builtin σ) (wrong : Builtin σ → Option Fault) :
    faultOf? (.ok b) wrong = wrong b :=
  rfl

/-- The fault at which an instruction fails whenever it is carried out, by what the registry has. -/
def unresolved? (registry : Registry σ) : Instruction names → Option Fault
  | .look callee => faultOf? (registry.resolve callee) fun _ => none
  | .call callee count =>
      faultOf? (registry.resolve callee) fun b =>
        if count = b.arity then none else some (b.mismatch count)
  | .pipe stage =>
      faultOf? (registry.resolve stage) fun b =>
        if b.arity = 0 ∨ b.arity = 1 then none else some (b.mismatch 1)
  | .refuse stage => some (.invalidStage stage.text)
  | _ => none

/-- How an instruction fails although there is nothing wrong with its names: the operands of an
operator are a division by zero; the body of a function that is called returns the fault; or a
variable is read that has no value, and its name stands for no function or for one that takes
arguments. -/
inductive Fails (registry : Registry σ) :
    Instruction names → List Value → Run σ → Fault → Prop
  | division {op : BinOp} {l r : Value} {stack : List Value} {run : Run σ} :
      applyBinOp op l r = .error .divisionByZero →
      Fails registry (.operate op) (r :: l :: stack) run .divisionByZero
  | call {callee : Expr} {count : Nat} {b : Builtin σ} {stack : List Value} {run : Run σ}
      {cause : Fault} :
      registry.resolve callee = .ok b → count = b.arity →
      (b.body (stack.takeD count .null).reverse run.machine.host).result = .error cause →
      Fails registry (.call callee count) stack run cause
  | pipe {stage : Expr} {b : Builtin σ} {args stack : List Value} {run : Run σ} {cause : Fault} :
      registry.resolve stage = .ok b → args = (if b.arity == 0 then [] else [stack.headD .null]) →
      (b.body args run.machine.host).result = .error cause →
      Fails registry (.pipe stage) stack run cause
  | unknown {name : String} {assigned : name ∈ names} {stack : List Value} {run : Run σ} :
      run.scope.get? name = none → registry.lookupGlobal name = none →
      Fails registry (.read name assigned) stack run (.unknownIdentifier name)
  | arguments {name : String} {assigned : name ∈ names} {b : Builtin σ} {stack : List Value}
      {run : Run σ} :
      run.scope.get? name = none → registry.lookupGlobal name = some b → b.arity ≠ 0 →
      Fails registry (.read name assigned) stack run (b.mismatch 0)
  | bare {name : String} {assigned : name ∈ names} {b : Builtin σ} {stack : List Value}
      {run : Run σ} {cause : Fault} :
      run.scope.get? name = none → registry.lookupGlobal name = some b → b.arity = 0 →
      (b.body [] run.machine.host).result = .error cause →
      Fails registry (.read name assigned) stack run cause

variable {setup : Setup σ} {i : Instruction names} {stack : List Value} {r r' : Run σ}
  {cause : Fault} {stop : Stop}

theorem faultOf?_eq_none {found : Except Fault (Builtin σ)} {wrong : Builtin σ → Option Fault}
    (h : faultOf? found wrong = none) : ∃ b, found = .ok b ∧ wrong b = none := by
  cases found with
  | error cause => cases h
  | ok b => exact ⟨b, rfl, h⟩

/-- A look-up that fails, or finds something that is wrong. -/
theorem bind_of_faultOf? {α : Type} {found : Except Fault (Builtin σ)}
    {wrong : Builtin σ → Option Fault} {f : Builtin σ → Act (Run σ) α}
    (h : faultOf? found wrong = some cause)
    (hf : ∀ b, wrong b = some cause → f b r = (.error (.fault cause), r)) :
    (Act.ofExcept found >>= f) r = (.error (.fault cause), r) := by
  cases found with
  | error c =>
      cases h
      rfl
  | ok b => exact hf b h

/-- An instruction with a name that cannot be resolved fails, and nothing happens. -/
theorem perform_of_unresolved (h : i.unresolved? setup.registry = some cause) :
    i.perform setup stack r = (.error (.fault cause), r) := by
  cases i with
  | look callee => exact bind_of_faultOf? h nofun
  | call callee count =>
      refine bind_of_faultOf? h fun b hb => ?_
      by_cases hcount : count = b.arity
      · simp only [if_pos hcount] at hb
        cases hb
      · simp only [if_neg hcount] at hb ⊢
        cases hb
        rfl
  | pipe stage =>
      refine bind_of_faultOf? h fun b hb => ?_
      by_cases harity : b.arity = 0 ∨ b.arity = 1
      · simp only [if_pos harity] at hb
        cases hb
      · simp only [if_neg harity] at hb
        cases hb
        obtain ⟨hzero, hone⟩ := not_or.1 harity
        have hargs : (if b.arity == 0 then [] else [stack.headD .null]) =
            [stack.headD .null] := by simp [hzero]
        rw [hargs, Act.bind_apply, callBuiltin_mismatch (Ne.symm hone)]
        rfl
  | refuse stage =>
      cases h
      rfl
  | _ => cases h

/-- A function that is called with the right number of arguments fails if its body does. -/
theorem callBuiltin_eq_error {b : Builtin σ} {args : List Value} (hargs : args.length = b.arity)
    (h : (callBuiltin b args r).1 = .error stop) :
    ∃ cause, stop = .fault cause ∧ (b.body args r.machine.host).result = .error cause := by
  rw [callBuiltin_apply, call_eq_body hargs] at h
  cases hresult : (b.body args r.machine.host).result with
  | ok v =>
      rw [hresult] at h
      cases h
  | error cause =>
      rw [hresult] at h
      cases h
      exact ⟨cause, rfl, rfl⟩

/-- What fails in a sequence whose second act cannot fail. -/
theorem bind_pure_eq_error {S α β : Type} {x : Act S α} {f : α → β} {s : S}
    (h : ((x >>= fun a => pure (f a)) s).1 = .error stop) : (x s).1 = .error stop := by
  rw [Act.bind_apply] at h
  rcases hrun : x s with ⟨e | a, s'⟩
  · rw [hrun] at h
    cases h
    rfl
  · rw [hrun] at h
    cases h

theorem read_eq_error {name : String} {assigned : name ∈ names}
    (h : ((Instruction.read name assigned).perform setup stack r).1 = .error stop) :
    ∃ cause, stop = .fault cause ∧
      (Instruction.read name assigned).Fails setup.registry stack r cause := by
  have hread := bind_pure_eq_error h
  unfold variableOr at hread
  cases hvalue : r.scope.get? name with
  | some value =>
      rw [hvalue] at hread
      cases hread
  | none =>
      rw [hvalue] at hread
      simp only [callNamed, Registry.resolve] at hread
      cases hlookup : setup.registry.lookupGlobal name with
      | none =>
          rw [hlookup] at hread
          cases hread
          exact ⟨_, rfl, .unknown hvalue hlookup⟩
      | some b =>
          rw [hlookup] at hread
          have hcall : (callBuiltin b [] r).1 = .error stop := hread
          by_cases harity : b.arity = 0
          · obtain ⟨cause, hstop, hbody⟩ := callBuiltin_eq_error (Eq.symm harity) hcall
            exact ⟨cause, hstop, .bare hvalue hlookup harity hbody⟩
          · rw [callBuiltin_mismatch fun hlength => harity hlength.symm] at hcall
            cases hcall
            exact ⟨_, rfl, .arguments hvalue hlookup harity⟩

theorem call_eq_error {callee : Expr} {count : Nat} {b : Builtin σ}
    (hb : setup.registry.resolve callee = .ok b) (hcount : count = b.arity)
    (h : ((Instruction.call callee count : Instruction names).perform setup stack r).1 =
      .error stop) :
    ∃ cause, stop = .fault cause ∧
      (Instruction.call callee count : Instruction names).Fails setup.registry stack r cause := by
  have hcall : ((callBuiltin b (stack.takeD count .null).reverse >>= fun value =>
      pure (value :: stack.drop count)) r).1 = .error stop := by
    simp only [perform, hb] at h
    rw [← h]
    show _ = ((if count = b.arity then _ else _ : Act (Run σ) (List Value)) r).1
    rw [if_pos hcount]
  have hargs : (stack.takeD count .null).reverse.length = b.arity := by
    rw [List.length_reverse, List.takeD_length, hcount]
  obtain ⟨cause, hstop, hbody⟩ := callBuiltin_eq_error hargs (bind_pure_eq_error hcall)
  exact ⟨cause, hstop, .call hb hcount hbody⟩

theorem pipe_eq_error {stage : Expr} {b : Builtin σ} (hb : setup.registry.resolve stage = .ok b)
    (harity : b.arity = 0 ∨ b.arity = 1)
    (h : ((Instruction.pipe stage : Instruction names).perform setup stack r).1 = .error stop) :
    ∃ cause, stop = .fault cause ∧
      (Instruction.pipe stage : Instruction names).Fails setup.registry stack r cause := by
  simp only [perform, hb] at h
  have hargs : (if b.arity == 0 then [] else [stack.headD .null]).length = b.arity := by
    rcases harity with harity | harity <;> simp [harity]
  obtain ⟨cause, hstop, hbody⟩ := callBuiltin_eq_error hargs (bind_pure_eq_error h)
  exact ⟨cause, hstop, .pipe hb rfl hbody⟩

theorem operate_eq_error {op : BinOp}
    (h : ((Instruction.operate op : Instruction names).perform setup stack r).1 = .error stop) :
    ∃ cause, stop = .fault cause ∧
      (Instruction.operate op : Instruction names).Fails setup.registry stack r cause := by
  match stack with
  | [] => cases h
  | [_] => cases h
  | y :: x :: stack =>
      have hoperator := bind_pure_eq_error h
      cases hresult : applyBinOp op x y with
      | ok value =>
          rw [hresult] at hoperator
          cases hoperator
      | error cause =>
          rw [hresult] at hoperator
          cases hoperator
          obtain rfl := applyBinOp_eq_error hresult
          exact ⟨_, rfl, .division hresult⟩

/-- An instruction whose names are resolved fails in one of a few ways. -/
theorem perform_eq_error (hresolved : i.unresolved? setup.registry = none)
    (h : (i.perform setup stack r).1 = .error stop) :
    ∃ cause, stop = .fault cause ∧ i.Fails setup.registry stack r cause := by
  cases i with
  | literal value => cases h
  | read name assigned => exact read_eq_error h
  | look callee =>
      obtain ⟨b, hb, -⟩ := faultOf?_eq_none hresolved
      simp only [perform, hb] at h
      cases h
  | call callee count =>
      obtain ⟨b, hb, hright⟩ := faultOf?_eq_none hresolved
      exact call_eq_error hb (by simpa using hright) h
  | pipe stage =>
      obtain ⟨b, hb, hright⟩ := faultOf?_eq_none hresolved
      exact pipe_eq_error hb (by simpa [or_iff_not_imp_left] using hright) h
  | refuse stage => cases hresolved
  | operate op => exact operate_eq_error h
  | set name =>
      cases stack with
      | nil => cases h
      | cons value stack => cases h
  | drop =>
      cases stack with
      | nil => cases h
      | cons value stack => cases h

/-- Instructions that fail: the ones before one of them can be carried out, and this one fails. -/
theorem performAll_eq_error {is : List (Instruction names)}
    (h : performAll setup is stack r = (.error stop, r')) :
    ∃ earlier i later waiting between, is = earlier ++ i :: later ∧
      performAll setup earlier stack r = (.ok waiting, between) ∧
      i.perform setup waiting between = (.error stop, r') := by
  induction is generalizing stack r with
  | nil => cases h
  | cons i is ih =>
      simp only [performAll, Act.bind_apply] at h
      rcases hfirst : i.perform setup stack r with ⟨e | waiting, between⟩
      · rw [hfirst] at h
        cases h
        exact ⟨[], i, is, stack, r, rfl, rfl, hfirst⟩
      · rw [hfirst] at h
        obtain ⟨earlier, j, later, waiting', between', rfl, hearlier, hfails⟩ := ih h
        refine ⟨i :: earlier, j, later, waiting', between', rfl, ?_, hfails⟩
        simp only [performAll, Act.bind_apply, hfirst, hearlier]

end Instruction

/-! ## Carrying out the instructions of an action -/

/-- At most some variables have values, and no function is declared. -/
structure Scope.Within (names : List String) (scope : Scope) : Prop where
  functions : ∀ name, scope.function? name = none
  unset : ∀ name ∉ names, scope.get? name = none

/-- Setting one of the variables stays within them. -/
theorem Scope.Within.stable (names : List String) : Scope.Stable (Scope.Within names) names [] where
  set := by
    intro name hname scope value hscope
    refine ⟨hscope.functions, fun other hother => ?_⟩
    rw [Scope.get?_set_of_ne scope fun h : other = name => hother (h ▸ hname)]
    exact hscope.unset other hother
  define := nofun

namespace Eval

open Instruction

/-- At most some variables of a run have values, and no function is declared. -/
def Run.Within (names : List String) (r : Run σ) : Prop :=
  r.scope.Within names

section Expressions

variable {setup : Setup σ} {enter : Enter σ} {rest : List (Instruction names)}
  {stack : List Value}

/-- Reading a scope does not change it. -/
theorem reading_keeps_within {α : Type} (act : Scope → Act (Machine σ) α) :
    Keeps (Run.Within names) (reading act) :=
  fun _ hr => hr

theorem valueOf_keeps_within (e : Expr) : Keeps (Run.Within names) (valueOf setup enter e) :=
  reading_keeps_within _

/-- There are as many values as arguments. -/
theorem valuesOf_length (es : List Expr) {r : Run σ} {values : List Value}
    (h : (valuesOf setup enter es r).1 = .ok values) : values.length = es.length := by
  induction es generalizing r values with
  | nil =>
      rw [valuesOf_nil] at h
      cases h
      rfl
  | cons e es ih =>
      rw [valuesOf_cons] at h
      obtain ⟨value, r', -, hafter⟩ := Act.bind_eq_ok h
      obtain ⟨others, r'', hothers, hlast⟩ := Act.bind_eq_ok hafter
      cases hlast
      rw [List.length_cons, List.length_cons, ih (by rw [hothers])]

/-- A look-up comes first on both sides. -/
theorem performAll_look {β : Type} {callee : Expr} {act : Act (Run σ) β}
    {g : Builtin σ → Act (Run σ) β} {k : β → Act (Run σ) (List Value)}
    (hact : Act.EqOn (Run.Within names) act (Act.ofExcept (setup.registry.resolve callee) >>= g))
    (h : ∀ b, setup.registry.resolve callee = .ok b →
      Act.EqOn (Run.Within names) (performAll setup rest stack) (g b >>= k)) :
    Act.EqOn (Run.Within names) (performAll setup (.look callee :: rest) stack) (act >>= k) := by
  refine Act.EqOn.trans ?_ (hact.bind_left k).symm
  simp only [performAll, perform]
  cases hresolve : setup.registry.resolve callee with
  | error cause => exact fun _ _ => rfl
  | ok b => exact h b hresolve

/-- A call whose arguments wait. -/
theorem performAll_call {callee : Expr} {b : Builtin σ}
    (hresolve : setup.registry.resolve callee = .ok b) {values : List Value} {count : Nat}
    (hcount : values.length = count) :
    performAll setup (.call callee count :: rest) (values.reverse ++ stack) =
      (callBuiltin b values >>= fun value => performAll setup rest (value :: stack)) := by
  subst hcount
  have hargs : ((values.reverse ++ stack).takeD values.length .null).reverse = values := by
    rw [← List.length_reverse, List.takeD_left, List.reverse_reverse]
  have hrest : (values.reverse ++ stack).drop values.length = stack :=
    List.drop_left' List.length_reverse
  simp only [performAll, perform, hresolve, hargs, hrest]
  show ((if values.length = b.arity then _ else _ : Act (Run σ) (List Value)) >>= _) = _
  split
  · rw [Act.bind_assoc_act]
    rfl
  · rename_i hne
    funext r
    rw [Act.bind_apply, Act.bind_apply, callBuiltin_mismatch hne]
    rfl

/-- A stage that is a bare name, while its input waits. -/
theorem performAll_pipe {stage : Expr} {b : Builtin σ}
    (hresolve : setup.registry.resolve stage = .ok b) (input : Value) :
    performAll setup (.pipe stage :: rest) (input :: stack) =
      (callBuiltin b (if b.arity == 0 then [] else [input]) >>= fun value =>
        performAll setup rest (value :: stack)) := by
  simp only [performAll, perform, hresolve]
  exact Act.bind_assoc_act (callBuiltin b _) _ _

/-- A function that is called by its bare name. -/
theorem performAll_bare (callee : Expr) :
    Act.EqOn (Run.Within names)
      (performAll setup (.look callee :: .call callee 0 :: rest) stack)
      (reading (callBare setup.registry enter callee) >>= fun value =>
        performAll setup rest (value :: stack)) := by
  refine performAll_look (fun r hr => reading_callBare hr.functions callee) fun b hb => ?_
  have hcall : performAll setup (.call callee 0 :: rest) (([] : List Value).reverse ++ stack) = _ :=
    performAll_call hb rfl
  exact .of_eq hcall

/-- A name is a variable of the action, or it is called. -/
theorem identifier_eqOn (name : String) :
    Act.EqOn (Run.Within names)
      (performAll setup ((Expr.identifier name).instructions names ++ rest) stack)
      (valueOf setup enter (.identifier name) >>= fun value =>
        performAll setup rest (value :: stack)) := by
  rw [valueOf_identifier]
  simp only [Expr.instructions]
  split
  · simp only [List.singleton_append, performAll, perform, Act.bind_assoc_act]
    refine Act.EqOn.bind_left (fun r hr => ?_) _
    unfold variableOr
    cases r.scope.get? name with
    | some value => rfl
    | none => exact (reading_callBare hr.functions _).symm
  · rename_i hname
    have hbare : Act.EqOn (Run.Within names)
        (performAll setup (.look (.identifier name) :: .call (.identifier name) 0 :: rest) stack)
        (reading (callBare setup.registry enter (.identifier name)) >>= fun value =>
          performAll setup rest (value :: stack)) :=
      performAll_bare (.identifier name)
    refine hbare.trans (Act.EqOn.bind_left (fun r hr => ?_) _)
    unfold variableOr
    rw [hr.unset name hname]

/-- A value that is written down waits at once. -/
theorem literal_eqOn {act : Act (Run σ) Value} {value : Value} (h : act = pure value) :
    Act.EqOn (Run.Within names) (performAll setup ([.literal value] ++ rest) stack)
      (act >>= fun value => performAll setup rest (value :: stack)) := by
  subst h
  exact .refl _

/-- What cannot be a stage ends a pipeline on both sides. -/
theorem refused_eqOn {act : Act (Run σ) Value} {stage : Expr}
    (h : act = Act.fault (.invalidStage stage.text)) :
    Act.EqOn (Run.Within names) (performAll setup ([.refuse stage] ++ rest) stack)
      (act >>= fun value => performAll setup rest (value :: stack)) := by
  subst h
  exact .refl _

mutual

/-- The instructions of an expression put its value on the stack. -/
theorem valueOf_eqOn : (e : Expr) → e.isStraight = true → (rest : List (Instruction names)) →
    (stack : List Value) →
    Act.EqOn (Run.Within names) (performAll setup (e.instructions names ++ rest) stack)
      (valueOf setup enter e >>= fun value => performAll setup rest (value :: stack))
  | .number _, _, _, _ => literal_eqOn rfl
  | .string _, _, _, _ => literal_eqOn rfl
  | .hotkey _, _, _, _ => literal_eqOn rfl
  | .identifier name, _, _, _ => identifier_eqOn name
  | .member object property, _, _, _ => by
      have hvalue : valueOf setup enter (.member object property) =
          reading (callBare setup.registry enter (.member object property)) := by
        unfold valueOf
        simp only [evalExpr]
      simp only [Expr.instructions]
      rw [hvalue]
      exact performAll_bare _
  | .binary left op right, h, rest, stack => by
      obtain ⟨hop, hright⟩ := Bool.and_eq_true_iff.1 h
      obtain ⟨hop, hleft⟩ := Bool.and_eq_true_iff.1 hop
      rw [valueOf_binary setup enter (Bool.not_eq_true' _ ▸ hop)]
      simp only [Expr.instructions, List.append_assoc, Act.bind_assoc_act]
      refine (valueOf_eqOn left hleft _ stack).trans
        (.bind_right (valueOf_keeps_within left) fun v _ _ => ?_)
      refine (valueOf_eqOn right hright _ (v :: stack)).trans
        (.bind_right (valueOf_keeps_within right) fun w _ _ => ?_)
      exact .of_eq (Act.bind_assoc_act (Act.ofExcept (applyBinOp op v w)) _ _)
  | .call callee args, h, rest, stack => by
      simp only [Expr.instructions, List.cons_append, List.append_assoc, List.nil_append]
      refine performAll_look (fun r hr => valueOf_call_apply hr.functions callee args)
        fun b hb => ?_
      rw [Act.bind_assoc_act]
      refine (valuesOf_eqOn args h _ stack).trans
        (.bind_right (reading_keeps_within _) fun values _ hvalues => ?_)
      exact .of_eq (performAll_call hb (valuesOf_length args hvalues))
  | .pipeline [], _, _, _ => literal_eqOn rfl
  | .pipeline (first :: stages), h, rest, stack => by
      obtain ⟨hfirst, hstages⟩ := Bool.and_eq_true_iff.1 h
      rw [valueOf_pipeline]
      simp only [Expr.instructions, List.append_assoc, Act.bind_assoc_act]
      refine (valueOf_eqOn first hfirst _ stack).trans
        (.bind_right (valueOf_keeps_within first) fun input _ _ => ?_)
      exact pipedThrough_eqOn stages hstages rest input stack

/-- The instructions of arguments put their values on the stack, the last one on top. -/
theorem valuesOf_eqOn : (es : List Expr) → Expr.areStraight es = true →
    (rest : List (Instruction names)) → (stack : List Value) →
    Act.EqOn (Run.Within names) (performAll setup (Expr.argInstructions names es ++ rest) stack)
      (valuesOf setup enter es >>= fun values =>
        performAll setup rest (values.reverse ++ stack))
  | [], _, rest, stack => by
      rw [valuesOf_nil]
      exact .refl _
  | e :: es, h, rest, stack => by
      obtain ⟨hfirst, hrest⟩ := Bool.and_eq_true_iff.1 h
      rw [valuesOf_cons]
      simp only [Expr.argInstructions, List.append_assoc, Act.bind_assoc_act]
      refine (valueOf_eqOn e hfirst _ stack).trans
        (.bind_right (valueOf_keeps_within e) fun value _ _ => ?_)
      refine (valuesOf_eqOn es hrest rest (value :: stack)).trans
        (.bind_right (reading_keeps_within _) fun values _ _ => ?_)
      rw [Act.pure_bind_act, List.reverse_cons, List.append_assoc]
      exact .refl _

/-- The instructions of stages put the value at the end in place of the input. -/
theorem pipedThrough_eqOn : (stages : List Expr) → Expr.areStraight stages = true →
    (rest : List (Instruction names)) → (input : Value) → (stack : List Value) →
    Act.EqOn (Run.Within names)
      (performAll setup (Expr.stageInstructions names stages ++ rest) (input :: stack))
      (pipedThrough setup enter stages input >>= fun value =>
        performAll setup rest (value :: stack))
  | [], _, rest, input, stack => by
      rw [pipedThrough_nil]
      exact .refl _
  | .call callee args :: stages, h, rest, input, stack => by
      obtain ⟨hargs, hstages⟩ := Bool.and_eq_true_iff.1 h
      simp only [Expr.stageInstructions, List.cons_append, List.append_assoc]
      refine performAll_look (fun r hr =>
        pipedThrough_call_apply hr.functions callee args stages input) fun b hb => ?_
      simp only [Act.bind_assoc_act]
      refine (valuesOf_eqOn args hargs _ (input :: stack)).trans
        (.bind_right (reading_keeps_within _) fun values _ hvalues => ?_)
      have hlength : (input :: values).length = args.length + 1 :=
        congrArg (· + 1) (valuesOf_length args hvalues)
      have hcall : performAll setup
          (.call callee (args.length + 1) :: (Expr.stageInstructions names stages ++ rest))
          (values.reverse ++ input :: stack) =
            (callBuiltin b (input :: values) >>= fun value =>
              performAll setup (Expr.stageInstructions names stages ++ rest) (value :: stack)) := by
        rw [List.append_cons, ← List.reverse_cons]
        exact performAll_call hb hlength
      refine (Act.EqOn.of_eq hcall).trans
        (.bind_right (reading_keeps_within _) fun value _ _ => ?_)
      exact pipedThrough_eqOn stages hstages rest value stack
  | .identifier name :: stages, h, rest, input, stack => by
      rw [pipedThrough_identifier]
      simp only [Expr.stageInstructions, List.cons_append, Act.bind_assoc_act]
      refine performAll_look (fun r hr => reading_pipeBare hr.functions _ input) fun b hb => ?_
      refine (Act.EqOn.of_eq (performAll_pipe hb input)).trans
        (.bind_right (reading_keeps_within _) fun value _ _ => ?_)
      exact pipedThrough_eqOn stages (Bool.and_eq_true_iff.1 h).2 rest value stack
  | .member object property :: stages, h, rest, input, stack => by
      rw [pipedThrough_member]
      simp only [Expr.stageInstructions, List.cons_append, Act.bind_assoc_act]
      refine performAll_look (fun r hr => reading_pipeBare hr.functions _ input) fun b hb => ?_
      refine (Act.EqOn.of_eq (performAll_pipe hb input)).trans
        (.bind_right (reading_keeps_within _) fun value _ _ => ?_)
      exact pipedThrough_eqOn stages (Bool.and_eq_true_iff.1 h).2 rest value stack
  | .number _ :: _, _, _, _, _ => refused_eqOn rfl
  | .string _ :: _, _, _, _, _ => refused_eqOn rfl
  | .hotkey _ :: _, _, _, _, _ => refused_eqOn rfl
  | .binary _ _ _ :: _, _, _, _, _ => refused_eqOn rfl
  | .pipeline _ :: _, _, _, _, _ => refused_eqOn rfl

end

end Expressions

section Statements

variable {setup : Setup σ} {enter : Enter σ}

mutual

/-- Straight statements declare no functions. -/
theorem declared_of_isStraight : (s : Stmt) → s.isStraight = true → s.declared = []
  | .block body, h => by
      rw [Stmt.declared]
      exact declaredAll_of_areStraight body h
  | .expr _, _ => by rw [Stmt.declared]; all_goals nofun
  | .assign _ _, _ => by rw [Stmt.declared]; all_goals nofun
  | .bind _ _ _, h => by cases h
  | .branch _ _ _, h => by cases h
  | .loop _ _, h => by cases h
  | .leave _, h => by cases h
  | .function _ _ _, h => by cases h

theorem declaredAll_of_areStraight : (body : List Stmt) → Stmt.areStraight body = true →
    Stmt.declaredAll body = []
  | [], _ => rfl
  | s :: rest, h => by
      obtain ⟨hfirst, hrest⟩ := Bool.and_eq_true_iff.1 h
      rw [Stmt.declaredAll, declared_of_isStraight s hfirst, declaredAll_of_areStraight rest hrest,
        List.append_nil]

end

/-- Straight statements stay within the variables that they set. -/
theorem evalStmt_keeps_within {s : Stmt} (h : s.isStraight = true)
    (hnames : ∀ name ∈ s.assigned, name ∈ names) :
    Keeps (Run.Within names) (evalStmt setup enter s) := by
  refine evalStmt_keeps_scope (P := Scope.Within names) s ?_
  rw [declared_of_isStraight s h]
  exact ⟨fun name hname => (Scope.Within.stable names).set name (hnames name hname), nofun⟩

/-- What is done with the value of a statement, unless it left the action. -/
def unlessLeft (next left : Value → Act (Run σ) (List Value)) : Flow → Act (Run σ) (List Value)
  | .normal value => next value
  | .left value => left value

mutual

/-- The instructions of a straight statement put its value on the stack. It never leaves the action,
so nothing has to be said about that. -/
theorem evalStmt_eqOn (left : Value → Act (Run σ) (List Value)) : (s : Stmt) →
    s.isStraight = true → (∀ name ∈ s.assigned, name ∈ names) →
    (rest : List (Instruction names)) → (stack : List Value) →
    Act.EqOn (Run.Within names) (performAll setup (s.instructions names ++ rest) stack)
      (evalStmt setup enter s >>=
        unlessLeft (fun value => performAll setup rest (value :: stack)) left)
  | .block body, h, hnames, rest, stack => by
      simp only [Stmt.instructions, evalStmt]
      exact evalBlock_eqOn left body h hnames rest .null stack
  | .expr e, h, hnames, rest, stack => by
      simp only [Stmt.instructions, evalStmt, Act.bind_assoc_act]
      exact valueOf_eqOn e h rest stack
  | .assign name (some e), h, hnames, rest, stack => by
      simp only [Stmt.instructions, evalStmt, Act.bind_assoc_act, List.append_assoc]
      refine (valueOf_eqOn e h _ stack).trans
        (.bind_right (valueOf_keeps_within e) fun value _ _ => ?_)
      exact .refl _
  | .assign name none, h, hnames, rest, stack => by
      simp only [Stmt.instructions, evalStmt, Act.bind_assoc_act]
      exact .refl _
  | .bind _ _ _, h, _, _, _ => by cases h
  | .branch _ _ _, h, _, _, _ => by cases h
  | .loop _ _, h, _, _, _ => by cases h
  | .leave _, h, _, _, _ => by cases h
  | .function _ _ _, h, _, _, _ => by cases h

/-- The instructions of statements put the value of the last one in place of the value before. -/
theorem evalBlock_eqOn (left : Value → Act (Run σ) (List Value)) : (body : List Stmt) →
    Stmt.areStraight body = true → (∀ name ∈ Stmt.assignedAll body, name ∈ names) →
    (rest : List (Instruction names)) → (last : Value) → (stack : List Value) →
    Act.EqOn (Run.Within names)
      (performAll setup (Stmt.blockInstructions names body ++ rest) (last :: stack))
      (evalBlock setup enter last body >>=
        unlessLeft (fun value => performAll setup rest (value :: stack)) left)
  | [], _, _, rest, last, stack => by
      simp only [evalBlock]
      exact .refl _
  | s :: body, h, hnames, rest, last, stack => by
      obtain ⟨hfirst, hbody⟩ := Bool.and_eq_true_iff.1 h
      have hassigned : ∀ name ∈ s.assigned, name ∈ names :=
        fun name hname => hnames name (List.mem_append_left _ hname)
      simp only [Stmt.blockInstructions, evalBlock, Act.bind_assoc_act, List.cons_append,
        List.append_assoc]
      refine (evalStmt_eqOn left s hfirst hassigned _ stack).trans
        (.bind_right (evalStmt_keeps_within hfirst hassigned) fun flow _ _ => ?_)
      cases flow with
      | normal value =>
          exact evalBlock_eqOn left body hbody
            (fun name hname => hnames name (List.mem_append_right _ hname)) rest value stack
      | left value => exact .refl _

end

/-- Straight actions as instructions: the value of the action is what waits at the end, and a
failure is that of the instruction at which it happens. -/
theorem evaluateStatement_eq_performAll (setup : Setup σ) {s : Stmt} (h : s.isStraight = true)
    (m : Machine σ) :
    evaluateStatement setup s ⟨.empty, m⟩ =
      let carried := performAll setup (s.instructions s.letNames) [] ⟨.empty, m⟩
      (carried.1.map (·.headD .null), carried.2) := by
  have hstart : (⟨.empty, m⟩ : Run σ).Within s.letNames := ⟨fun _ => rfl, fun _ _ => rfl⟩
  have hnames : ∀ name ∈ s.assigned, name ∈ s.letNames := fun _ hname => List.mem_eraseDups.2 hname
  have hcarried : performAll setup (s.instructions s.letNames ++ []) [] ⟨.empty, m⟩ =
      (evalStmt setup (enterFrom setup m.depth) s >>=
        unlessLeft (fun value => performAll setup [] [value]) fun value => pure [value])
        ⟨.empty, m⟩ :=
    evalStmt_eqOn _ s h hnames [] [] _ hstart
  rw [List.append_nil, Act.bind_apply] at hcarried
  rw [hcarried]
  simp only [evaluateStatement]
  rcases evalStmt setup (enterFrom setup m.depth) s ⟨.empty, m⟩ with ⟨stop | flow, r⟩
  · rfl
  · cases flow <;> rfl

end Statements

end Eval
end Chord
