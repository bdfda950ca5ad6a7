import Chord.Native.Exec
import Chord.Native.Lower
import Chord.Proofs.Eval.Act

/-!
# Interpreted and compiled runs side by side

The interpreter keeps variables by name in a scope; compiled code keeps handles in slots and values
in a frame. This module says when two such states belong together and when the outcomes of two
pieces of work do.

**Input.** A `Fixture`: what stays as it is while an action runs.

**Results.** `Linked` relates the states and `Outcome` the outcomes. `Outcome.bind` puts two pieces
of work in sequence, and `Outcome.settle` treats every operation on a frame that can fail.
-/

namespace Chord
namespace Native

open Eval

variable {σ : Type}

/-! ## Handles -/

theorem getElem?_push_of_some {α : Type} {xs : Array α} {i : Nat} {a : α} (b : α)
    (h : xs[i]? = some a) : (xs.push b)[i]? = some a := by
  have hlt : i < xs.size := (Array.getElem?_eq_some_iff.1 h).1
  rw [Array.getElem?_push_lt hlt]
  rw [Array.getElem?_eq_getElem hlt] at h
  exact h

namespace Frame

/-- A handle stands for a value. -/
def Holds (f : Frame σ) (handle : Int) (v : Value) : Prop :=
  itemAt? f.values handle = some v

/-- A slot stands for a variable, which may have no value yet. -/
def Stores (f : Frame σ) (handle : Int) : Option Value → Prop
  | none => handle = undefined
  | some v => f.Holds handle v

/-- Every handle of the first frame stands for the same value in the second one. -/
def Keeps (f g : Frame σ) : Prop :=
  ∀ (handle : Int) (v : Value), f.Holds handle v → g.Holds handle v

variable {f g : Frame σ} {handle : Int} {v : Value}

theorem Holds.nonneg (h : f.Holds handle v) : 0 ≤ handle := by
  unfold Holds itemAt? at h
  split at h
  · cases h
  · omega

theorem Holds.get_eq (h : f.Holds handle v) : f.get handle = v := by
  unfold Holds at h
  unfold Frame.get
  rw [h]
  rfl

theorem Holds.ne_failed (h : f.Holds handle v) : handle ≠ failed := by
  have hpos := h.nonneg
  unfold failed
  omega

theorem Holds.ne_undefined (h : f.Holds handle v) : handle ≠ undefined := by
  have hpos := h.nonneg
  unfold undefined
  omega

/-- A frame finishes with the fault it keeps, or with what the handle stands for. -/
theorem finish_eq (f : Frame σ) (handle : Int) :
    f.finish handle =
      if handle = failed then .error (f.error.getD (.host "native action aborted"))
      else .ok (f.get handle) := by
  simp only [Frame.finish, beq_iff_eq]

theorem Keeps.refl (f : Frame σ) : f.Keeps f :=
  fun _ _ h => h

theorem Keeps.trans {k : Frame σ} (hfg : f.Keeps g) (hgk : g.Keeps k) : f.Keeps k :=
  fun handle v h => hgk handle v (hfg handle v h)

theorem Keeps.stores (h : f.Keeps g) {value : Option Value} (hs : f.Stores handle value) :
    g.Stores handle value := by
  cases value with
  | none => exact hs
  | some v => exact h handle v hs

/-- A value that was added is found under its handle. -/
theorem push_holds (f : Frame σ) (v : Value) : (f.push v).2.Holds (f.push v).1 v := by
  unfold Holds itemAt? Frame.push
  simp

/-- Adding a value changes no earlier one. -/
theorem push_keeps (f : Frame σ) (v : Value) : f.Keeps (f.push v).2 := by
  intro handle w h
  have hpos := h.nonneg
  unfold Holds itemAt? at h ⊢
  rw [if_neg (by omega)] at h ⊢
  exact getElem?_push_of_some v h

end Frame

/-! ## States -/

/-- What stays as it is while an action runs. -/
structure Fixture (σ : Type) where
  setup : Setup σ
  /-- The variables of the action, in the order of their slots. -/
  names : List String
  pools : Pools
  /-- The bindings of the interpreter. -/
  bindings : Table Binding

/-- The state of an interpreted action beside that of its code. -/
structure Linked (x : Fixture σ) (r : Run σ) (s : Active σ) : Prop where
  registry : s.frame.registry = x.setup.registry
  constants : s.frame.constants = x.pools.constants
  failures : s.frame.failures = x.pools.failures
  null : s.frame.Holds nullHandle .null
  size : s.slots.size = x.names.length
  stored : ∀ name,
    s.frame.Stores (s.slots.getD (x.names.idxOf name) undefined) (r.scope.get? name)
  functions : ∀ name, r.scope.function? name = none
  host : r.machine.host = s.frame.desk.host
  bindings : r.machine.bindings = x.bindings

/-- States stay linked while frame and desk move on and no variable changes. -/
theorem Linked.advance {x : Fixture σ} {r : Run σ} {s : Active σ} (h : Linked x r s)
    {m : Machine σ} {f : Frame σ} (hregistry : f.registry = s.frame.registry)
    (hconstants : f.constants = s.frame.constants) (hfailures : f.failures = s.frame.failures)
    (hkeeps : s.frame.Keeps f) (hhost : m.host = f.desk.host)
    (hbindings : m.bindings = x.bindings) :
    Linked x { r with machine := m } { s with frame := f } where
  registry := hregistry.trans h.registry
  constants := hconstants.trans h.constants
  failures := hfailures.trans h.failures
  null := hkeeps _ _ h.null
  size := h.size
  stored := fun name => hkeeps.stores (h.stored name)
  functions := h.functions
  host := hhost
  bindings := hbindings

/-! ## Outcomes -/

variable {α β : Type}

/-- The result of an interpreted piece beside that of its code. Faults are kept in the frame. -/
inductive Meets (Q : Frame σ → α → Except Leave β → Prop) (f : Frame σ) :
    Except Stop α → Except Leave β → Prop
  | done {a : α} {e : Except Leave β} : Q f a e → Meets Q f (.ok a) e
  | fault {cause : Fault} :
      f.error = some cause → Meets Q f (.error (.fault cause)) (.error .aborted)
  | unfinished : Meets Q f (.error .unfinished) (.error .unfinished)

/-- The code goes on with something that stands for the result. -/
def Gives (P : Frame σ → α → β → Prop) (f : Frame σ) (a : α) (e : Except Leave β) : Prop :=
  ∃ b, e = .ok b ∧ P f a b

/-- The outcomes of an interpreted piece and of its code, which began in the state `s`. -/
structure Outcome (x : Fixture σ) (Q : Frame σ → α → Except Leave β → Prop) (s : Active σ)
    (p : Except Stop α × Run σ) (q : Except Leave β × Active σ) : Prop where
  linked : Linked x p.2 q.2
  keeps : s.frame.Keeps q.2.frame
  meets : Meets Q q.2.frame p.1 q.1

/-- The second of two steps starts where the first one ended, unless that left the code. -/
theorem step_bind_apply (y : Step σ α) (g : α → Step σ β) (s : Active σ) :
    (y >>= g) s =
      match y s with
      | (.ok a, s) => g a s
      | (.error e, s) => (.error e, s) := by
  show ExceptT.bind y g s = _
  simp only [ExceptT.bind, ExceptT.mk, bind, StateT.bind]
  rcases y s with ⟨e | a, s'⟩ <;> rfl

variable {x : Fixture σ} {r : Run σ} {s : Active σ}

/-- An interpreted piece that ends at once beside a step that does. -/
theorem Outcome.pure {Q : Frame σ → α → Except Leave β → Prop} (h : Linked x r s) {a : α}
    {e : Except Leave β} (hq : Q s.frame a e) : Outcome x Q s (.ok a, r) (e, s) :=
  ⟨h, .refl _, .done hq⟩

/-- Outcomes that began later are outcomes of the whole. -/
theorem Outcome.after {Q : Frame σ → α → Except Leave β → Prop} {s' : Active σ}
    {p : Except Stop α × Run σ} {q : Except Leave β × Active σ}
    (hkeeps : s.frame.Keeps s'.frame) (h : Outcome x Q s' p q) : Outcome x Q s p q :=
  ⟨h.linked, hkeeps.trans h.keeps, h.meets⟩

/-- Pieces in sequence: the second ones need only agree on what the first ones can hand over. -/
theorem Outcome.bind {γ δ : Type} {P : Frame σ → α → β → Prop}
    {Q : Frame σ → γ → Except Leave δ → Prop} {act : Act (Run σ) α} {step : Step σ β}
    {f : α → Act (Run σ) γ} {g : β → Step σ δ}
    (h : Outcome x (Gives P) s (act r) (step s))
    (hnext : ∀ (a : α) (b : β) (r' : Run σ) (s' : Active σ), Linked x r' s' →
      s.frame.Keeps s'.frame → P s'.frame a b → Outcome x Q s' (f a r') (g b s')) :
    Outcome x Q s ((act >>= f) r) ((step >>= g) s) := by
  rw [Act.bind_apply, step_bind_apply]
  obtain ⟨hl, hk, hm⟩ := h
  rcases hact : act r with ⟨result, r'⟩
  rcases hstep : step s with ⟨reached, s'⟩
  rw [hact, hstep] at hl hm
  rw [hstep] at hk
  cases hm with
  | done hq =>
      obtain ⟨b, rfl, hp⟩ := hq
      exact (hnext _ _ _ _ hl hk hp).after hk
  | fault hf => exact ⟨hl, hk, .fault hf⟩
  | unfinished => exact ⟨hl, hk, .unfinished⟩

/-- An operation that cannot fail adds a value. -/
theorem Outcome.push (h : Linked x r s) {op : Frame σ → Int × Frame σ} {v : Value}
    (hop : op s.frame = s.frame.push v) :
    Outcome x (Gives fun f v handle => f.Holds handle v) s (.ok v, r) (safe op s) := by
  unfold safe
  rw [hop]
  refine ⟨?_, s.frame.push_keeps v, .done ⟨_, rfl, s.frame.push_holds v⟩⟩
  exact h.advance rfl rfl rfl (s.frame.push_keeps v) h.host h.bindings

theorem checked_ok {op : Frame σ → Int × Frame σ} {handle : Int} {f : Frame σ}
    (hop : op s.frame = (handle, f)) (h : handle ≠ failed) :
    checked op s = (.ok handle, { s with frame := f }) := by
  unfold checked
  rw [hop]
  have hb : (handle == failed) = false := by simpa using h
  simp only [hb]
  rfl

theorem checked_failed {op : Frame σ → Int × Frame σ} {f : Frame σ}
    (hop : op s.frame = (failed, f)) :
    checked op s = (.error .aborted, { s with frame := f }) := by
  unfold checked
  rw [hop]
  rfl

/-- An operation that can fail adds its result or keeps its fault, and the desk moves on. -/
theorem Outcome.settle (h : Linked x r s) {op : Frame σ → Int × Frame σ}
    (result : Except Fault Value) {m : Machine σ} (desk : Desk σ)
    (hop : op s.frame = Frame.settle { s.frame with desk := desk } result)
    (hhost : m.host = desk.host) (hbindings : m.bindings = x.bindings) :
    Outcome x (Gives fun f v handle => f.Holds handle v) s
      (Act.ofExcept result { r with machine := m }) (checked op s) := by
  cases result with
  | ok v =>
      have hheld := Frame.push_holds { s.frame with desk := desk } v
      have hkeeps := Frame.push_keeps { s.frame with desk := desk } v
      rw [checked_ok hop hheld.ne_failed]
      exact ⟨h.advance rfl rfl rfl hkeeps hhost hbindings, hkeeps, .done ⟨_, rfl, hheld⟩⟩
  | error cause =>
      have hkeeps : s.frame.Keeps (Frame.fail { s.frame with desk := desk } cause).2 :=
        fun _ _ hold => hold
      rw [checked_failed hop]
      exact ⟨h.advance rfl rfl rfl hkeeps hhost hbindings, hkeeps, .fault rfl⟩

end Native
end Chord
