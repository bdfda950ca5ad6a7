import Chord.Library.Standard
import Chord.Native.Lower

/-!
# Compiling for another host

Compiled code calls built-in functions by number, so compiling looks at their numbers, names and
arities and never at what they do.

**Input.** A registry.

**Results.** `Registry.headings` is the registry without what its functions do. `compile_headings`:
an action compiles alike for it. `compile_standard`: the standard functions of any two hosts have
the same headings, so an action that compiles for one of them compiles to the same code for the
other.
-/

namespace Chord

variable {σ τ : Type}

/-- A function that gives null, under the same number and name. -/
def Builtin.heading (b : Builtin σ) : Builtin Unit :=
  { id := b.id
    module := b.module
    name := b.name
    arity := b.arity
    body := fun _ s => { result := .ok .null, state := s } }

namespace Registry

/-- The registry without what its functions do. -/
def headings (r : Registry σ) : Registry Unit where
  builtins := r.builtins.map Builtin.heading
  modules := r.modules
  numbered := by
    intro place b h
    rw [Array.getElem?_map, Option.map_eq_some_iff] at h
    obtain ⟨b', hb', rfl⟩ := h
    exact r.numbered place b' hb'

theorem headings_empty : (empty : Registry σ).headings = empty := by
  simp only [headings, empty, List.map_toArray, List.map_nil]

theorem headings_register (r : Registry σ) (module name : String) (arity : Nat)
    (body : List Value → σ → Effect σ) :
    (r.register module name arity body).headings =
      r.headings.register module name arity fun _ s => { result := .ok .null, state := s } := by
  simp only [headings, register, Array.map_push, Array.size_map]
  rfl

/-- The standard functions of all hosts have the same headings. -/
theorem headings_standard (host : Host σ) (host' : Host τ) :
    (standard host).headings = (standard host').headings := by
  simp only [standard, headings_register, headings_empty]

theorem find?_headings (r : Registry σ) (module name : String) :
    r.headings.find? module name = (r.find? module name).map Builtin.heading := by
  have hget : ∀ id, r.headings.get? id = (r.get? id).map Builtin.heading :=
    fun id => Array.getElem?_map
  rw [find?, find?, Option.map_bind]
  exact congrArg _ (funext hget)

theorem resolve_headings (r : Registry σ) (callee : Expr) :
    r.headings.resolve callee = (r.resolve callee).map Builtin.heading := by
  unfold resolve
  split
  · rw [lookupGlobal, lookupGlobal, find?_headings]
    cases r.find? globalModule _ <;> rfl
  · rename_i module function
    have hmodule : r.headings.hasModule module = r.hasModule module := rfl
    rw [lookup, lookup, hmodule, find?_headings]
    cases r.hasModule module with
    | false => rfl
    | true => cases r.find? module function <;> rfl
  · rfl
  · rfl

end Registry

namespace Native

variable (registry : Registry σ) (names : List String)

/-- What lowering does with a function does not depend on what the function does. -/
theorem resolved_headings {α : Type} (callee : Expr) {f : Builtin Unit → Lower α}
    {g : Builtin σ → Lower α} (h : ∀ b, f b.heading = g b) :
    (resolved (registry.headings.resolve callee) >>= f) =
      (resolved (registry.resolve callee) >>= g) := by
  rw [Registry.resolve_headings]
  cases registry.resolve callee with
  | error cause => rfl
  | ok b => exact h b

theorem lowerCall_heading (b : Builtin σ) (args : List Code) :
    lowerCall b.heading args = lowerCall b args :=
  rfl

theorem lowerBare_headings (callee : Expr) :
    lowerBare registry.headings callee = lowerBare registry callee :=
  resolved_headings registry callee fun b => lowerCall_heading b []

theorem lowerPipeBare_headings (stage : Expr) (input : Code) :
    lowerPipeBare registry.headings stage input = lowerPipeBare registry stage input :=
  resolved_headings registry stage fun _ => rfl

theorem fallback_headings (name : String) :
    fallback registry.headings name = fallback registry name := by
  rw [fallback, fallback, Registry.resolve_headings]
  cases registry.resolve (.identifier name) with
  | error cause => rfl
  | ok b => rfl

mutual

theorem lowerExpr_headings : (e : Expr) →
    lowerExpr registry.headings names e = lowerExpr registry names e
  | .number _ => by simp only [lowerExpr]
  | .string _ => by simp only [lowerExpr]
  | .hotkey _ => by simp only [lowerExpr]
  | .identifier name => by
      simp only [lowerExpr, fallback_headings, lowerBare_headings]
  | .member _ _ => by simp only [lowerExpr, lowerBare_headings]
  | .binary left op right => by
      simp only [lowerExpr, lowerExpr_headings left, lowerExpr_headings right]
  | .call callee args => by
      simp only [lowerExpr, lowerArgs_headings args]
      exact resolved_headings registry callee fun _ => rfl
  | .pipeline [] => by simp only [lowerExpr]
  | .pipeline (first :: rest) => by
      simp only [lowerExpr, lowerExpr_headings first, lowerStages_headings rest]

theorem lowerArgs_headings : (es : List Expr) →
    lowerArgs registry.headings names es = lowerArgs registry names es
  | [] => by simp only [lowerArgs]
  | e :: es => by
      simp only [lowerArgs, lowerExpr_headings e, lowerArgs_headings es]

theorem lowerStages_headings : (stages : List Expr) → (input : Code) →
    lowerStages registry.headings names input stages = lowerStages registry names input stages
  | [], _ => by simp only [lowerStages]
  | .call callee args :: rest, input => by
      simp only [lowerStages, lowerArgs_headings args, lowerStages_headings rest]
      exact resolved_headings registry callee fun _ => rfl
  | .identifier _ :: rest, _ => by
      simp only [lowerStages, lowerPipeBare_headings, lowerStages_headings rest]
  | .member _ _ :: rest, _ => by
      simp only [lowerStages, lowerPipeBare_headings, lowerStages_headings rest]
  | .number _ :: _, _ => by simp only [lowerStages]
  | .string _ :: _, _ => by simp only [lowerStages]
  | .hotkey _ :: _, _ => by simp only [lowerStages]
  | .binary _ _ _ :: _, _ => by simp only [lowerStages]
  | .pipeline _ :: _, _ => by simp only [lowerStages]

end

theorem lowerExpr?_headings (e : Option Expr) :
    lowerExpr? registry.headings names e = lowerExpr? registry names e := by
  cases e with
  | none => rfl
  | some e => exact lowerExpr_headings registry names e

mutual

theorem lowerStmt_headings : (s : Stmt) →
    lowerStmt registry.headings names s = lowerStmt registry names s
  | .bind _ _ _ => by simp only [lowerStmt]
  | .function _ _ _ => by simp only [lowerStmt]
  | .block body => by simp only [lowerStmt, lowerBlock_headings body]
  | .expr e => by simp only [lowerStmt, lowerExpr_headings]
  | .assign _ e => by simp only [lowerStmt, lowerExpr?_headings]
  | .branch _ consequence none => by
      simp only [lowerStmt, lowerExpr_headings, lowerStmt_headings consequence]
  | .branch _ consequence (some alternative) => by
      simp only [lowerStmt, lowerExpr_headings, lowerStmt_headings consequence,
        lowerStmt_headings alternative]
  | .loop _ body => by
      simp only [lowerStmt, lowerExpr_headings, lowerStmt_headings body]
  | .leave _ => by simp only [lowerStmt, lowerExpr?_headings]

theorem lowerBlock_headings : (body : List Stmt) →
    lowerBlock registry.headings names body = lowerBlock registry names body
  | [] => by simp only [lowerBlock]
  | [s] => by simp only [lowerBlock, lowerStmt_headings s]
  | s :: next :: rest => by
      simp only [lowerBlock, lowerStmt_headings s, lowerBlock_headings (next :: rest)]

end

theorem compile_headings (s : Stmt) : compile registry.headings s = compile registry s := by
  rw [compile, compile, lowerStmt_headings]

/-- **An action compiles alike for all hosts.** -/
theorem compile_standard (host : Host σ) (host' : Host τ) (s : Stmt) :
    compile (.standard host) s = compile (.standard host') s := by
  rw [← compile_headings, Registry.headings_standard host host', compile_headings]

end Native
end Chord
