import Chord.Library.Standard

/-!
# Registries made by registration

A registry grows one function at a time, and nothing is ever taken out of it.

**Input.** A registry that was `Built`: registered function by function, beginning with none.

**Results.** `Built.module_eq_of_find?`: whatever is found under a module and a name was registered
under them. `Built.qualifiedName_of_lookupGlobal` says it of the name in messages, and
`built_standard` that the standard functions are such a registry.
-/

namespace Chord
namespace Registry

variable {σ : Type}

/-- Registries that are made by registering functions. -/
inductive Built : Registry σ → Prop
  | empty : Built empty
  | register {r : Registry σ} (module name : String) (arity : Nat)
      (body : List Value → σ → Effect σ) :
      Built r → Built (r.register module name arity body)

/-- Every number that stands under a module and a name is that of a function with this module and
this name. -/
def Filed (r : Registry σ) : Prop :=
  ∀ ⦃module name : String⦄ ⦃id : Nat⦄, (r.modules.get? module).bind (·.get? name) = some id →
    ∃ b, r.get? id = some b ∧ b.module = module ∧ b.name = name

theorem get?_register_of_some {r : Registry σ} {id : Nat} {b : Builtin σ} (h : r.get? id = some b)
    (module name : String) (arity : Nat) (body : List Value → σ → Effect σ) :
    (r.register module name arity body).get? id = some b := by
  have hlt : id < r.builtins.size := (Array.getElem?_eq_some_iff.1 h).1
  show (r.builtins.push _)[id]? = some b
  rw [Array.getElem?_push_lt hlt, ← Array.getElem?_eq_getElem hlt]
  exact h

theorem get?_register_self (r : Registry σ) (module name : String) (arity : Nat)
    (body : List Value → σ → Effect σ) :
    (r.register module name arity body).get? r.builtins.size =
      some ⟨r.builtins.size, module, name, arity, body⟩ :=
  Array.getElem?_push_size

theorem Filed.register {r : Registry σ} (h : r.Filed) (module name : String) (arity : Nat)
    (body : List Value → σ → Effect σ) : (r.register module name arity body).Filed := by
  intro other function id hid
  have hold : (r.modules.get? other).bind (·.get? function) = some id →
      ∃ b, (r.register module name arity body).get? id = some b ∧
        b.module = other ∧ b.name = function := by
    intro hid
    obtain ⟨b, hb, hmodule, hname⟩ := h hid
    exact ⟨b, get?_register_of_some hb module name arity body, hmodule, hname⟩
  have hmodules : (r.register module name arity body).modules =
      r.modules.insert module
        (((r.modules.get? module).getD .empty).insert name r.builtins.size) := rfl
  rw [hmodules] at hid
  by_cases hother : other = module
  · subst hother
    rw [Table.get?_insert_self, Option.bind_some] at hid
    by_cases hfunction : function = name
    · subst hfunction
      rw [Table.get?_insert_self] at hid
      cases hid
      exact ⟨_, get?_register_self r other function arity body, rfl, rfl⟩
    · rw [Table.get?_insert_of_ne _ hfunction] at hid
      refine hold ?_
      cases htable : r.modules.get? other with
      | none =>
          rw [htable] at hid
          cases hid
      | some table =>
          rw [htable] at hid
          exact hid
  · rw [Table.get?_insert_of_ne _ hother] at hid
    exact hold hid

theorem Built.filed {r : Registry σ} (h : r.Built) : r.Filed := by
  induction h with
  | empty =>
      intro module name id hid
      cases hid
  | register module name arity body _ ih => exact ih.register module name arity body

/-- What is found under a module and a name has this module and this name. -/
theorem Built.module_eq_of_find? {r : Registry σ} (h : r.Built) {module name : String}
    {b : Builtin σ} (hfind : r.find? module name = some b) : b.module = module ∧ b.name = name := by
  obtain ⟨id, hid, hget⟩ := Option.bind_eq_some_iff.1 hfind
  obtain ⟨b', hb', hmodule, hname⟩ := h.filed hid
  rw [hget] at hb'
  cases hb'
  exact ⟨hmodule, hname⟩

/-- Messages name a function that needs no module as scripts do. -/
theorem Built.qualifiedName_of_lookupGlobal {r : Registry σ} (h : r.Built) {name : String}
    {b : Builtin σ} (hfind : r.lookupGlobal name = some b) : b.qualifiedName = name := by
  obtain ⟨hmodule, hname⟩ := h.module_eq_of_find? hfind
  unfold Builtin.qualifiedName
  rw [hmodule, beq_self_eq_true, if_pos rfl, hname]

theorem built_standard (host : Host σ) : (standard host).Built := by
  unfold standard
  repeat refine .register _ _ _ _ ?_
  exact .empty

end Registry
end Chord
