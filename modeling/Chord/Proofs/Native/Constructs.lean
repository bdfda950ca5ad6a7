import Chord.Proofs.Native.Link
import Mathlib.Data.List.Forall2

/-!
# What each construct of code computes

**Input.** A `Fixture`.

**Results.** `Computes` says that code computes what an interpreted expression does, and `Performs`
that it does what an interpreted statement does. There is one lemma for each construct of `Code`:
if the parts of the code compute the parts of an expression, then the whole computes the whole.
-/

namespace Chord
namespace Native

open Eval

variable {σ : Type}

/-- Code computes what an act gives, from all linked states. -/
def Computes (x : Fixture σ) (act : Act (Run σ) Value) (code : Code) : Prop :=
  ∀ (r : Run σ) (s : Active σ), Linked x r s →
    Outcome x (Gives fun f v handle => f.Holds handle v) s (act r)
      (exec x.setup.limits.loops code s)

/-- Handles stand for values, one by one. -/
def Frame.HoldsAll (f : Frame σ) (handles : List Int) (vs : List Value) : Prop :=
  List.Forall₂ f.Holds handles vs

/-- Pieces of code compute the values of a list. -/
def ComputesAll (x : Fixture σ) (act : Act (Run σ) (List Value))
    (codes : List Code) : Prop :=
  ∀ (r : Run σ) (s : Active σ), Linked x r s →
    Outcome x (Gives fun f vs handles => f.HoldsAll handles vs ∧ handles.length = codes.length)
      s (act r) (execArgs x.setup.limits.loops codes s)

/-- How code leaves a statement: it goes on with a handle, or it leaves the action with one. -/
def Exits (f : Frame σ) : Flow → Except Leave Int → Prop
  | .normal v, e => ∃ handle, e = .ok handle ∧ f.Holds handle v
  | .left v, e => ∃ handle, e = .error (.returned handle) ∧ f.Holds handle v

/-- Code does what a statement does, from all linked states. -/
def Performs (x : Fixture σ) (act : Act (Run σ) Flow) (code : Code) : Prop :=
  ∀ (r : Run σ) (s : Active σ), Linked x r s →
    Outcome x Exits s (act r) (exec x.setup.limits.loops code s)

variable {x : Fixture σ}

/-- Only what an act does in linked states counts. -/
theorem Computes.congr {act act' : Act (Run σ) Value} {code : Code}
    (h : Computes x act code)
    (heq : ∀ (r : Run σ) (s : Active σ), Linked x r s → act' r = act r) :
    Computes x act' code := by
  intro r s hl
  rw [heq r s hl]
  exact h r s hl

/-- Acts that agree wherever a first act can end agree after it. -/
theorem Computes.bind_congr {α : Type} {act : Act (Run σ) Value} {code : Code}
    (h : Computes x act code) {f g : Value → Act (Run σ) α}
    (heq : ∀ (v : Value) (r : Run σ) (s : Active σ), Linked x r s → f v r = g v r)
    {r : Run σ} {s : Active σ} (hl : Linked x r s) : (act >>= f) r = (act >>= g) r := by
  have hafter := (h r s hl).linked
  rw [Act.bind_apply, Act.bind_apply]
  rcases hact : act r with ⟨e | v, r'⟩
  · rfl
  · rw [hact] at hafter
    exact heq v r' _ hafter

/-- A name without a slot is no variable. -/
theorem Linked.get?_of_not_mem {r : Run σ} {s : Active σ} (hl : Linked x r s) {name : String}
    (hname : name ∉ x.names) : r.scope.get? name = none := by
  have hstored := hl.stored name
  rw [List.idxOf_eq_length hname, ← hl.size] at hstored
  cases hget : r.scope.get? name with
  | none => rfl
  | some v =>
      rw [hget] at hstored
      have hne := Frame.Holds.ne_undefined hstored
      simp at hne

/-! ## Values -/

theorem computes_null : Computes x (pure .null) .null := by
  intro r s hl
  simp only [exec]
  exact Outcome.pure hl ⟨nullHandle, rfl, hl.null⟩

theorem computes_const {index : Nat} {v : Value} (hv : x.pools.constants[index]? = some v) :
    Computes x (pure v) (.const index) := by
  intro r s hl
  simp only [exec]
  refine Outcome.push hl ?_
  unfold Frame.const itemAt?
  rw [hl.constants]
  rw [if_neg (by omega)]
  simp [hv]

theorem computes_raise {index : Nat} {cause : Fault}
    (hc : x.pools.failures[index]? = some cause) :
    Computes x (Act.fault cause) (.raise index) := by
  intro r s hl
  simp only [exec]
  refine Outcome.settle hl (.error cause) s.frame.desk ?_ hl.host hl.bindings
  unfold Frame.raise itemAt?
  rw [hl.failures]
  rw [if_neg (by omega)]
  simp [hc]
  rfl

/-- A slot is read as a variable, and an empty one as the fallback. -/
theorem computes_read {name : String} {slot : Nat} {act : Act (Run σ) Value} {fallback : Code}
    (hslot : x.names.idxOf name = slot) (hfallback : Computes x act fallback) :
    Computes x (variableOr name act) (.read slot fallback) := by
  intro r s hl
  have hread : exec x.setup.limits.loops (.read slot fallback) s =
      if s.slots.getD slot undefined == undefined then exec x.setup.limits.loops fallback s
      else (.ok (s.slots.getD slot undefined), s) := by
    simp only [exec]
    rw [step_bind_apply]
    show (if s.slots.getD slot undefined == undefined then exec x.setup.limits.loops fallback
      else pure (s.slots.getD slot undefined) : Step σ Int) s = _
    split <;> rfl
  rw [hread]
  have hstored := hl.stored name
  rw [hslot] at hstored
  unfold variableOr
  cases hget : r.scope.get? name with
  | none =>
      rw [hget] at hstored
      rw [if_pos (beq_iff_eq.2 hstored)]
      exact hfallback r s hl
  | some v =>
      rw [hget] at hstored
      rw [if_neg (fun h => Frame.Holds.ne_undefined hstored (beq_iff_eq.1 h))]
      exact Outcome.pure hl ⟨_, rfl, hstored⟩

theorem computes_binary {left right : Act (Run σ) Value} {l r : Code} (op : BinOp)
    (hl : Computes x left l) (hr : Computes x right r) :
    Computes x
      (do
        let a ← left
        let b ← right
        Act.ofExcept (applyBinOp op a b))
      (.binary op l r) := by
  intro run s hlink
  simp only [exec]
  refine (hl run s hlink).bind ?_
  intro a i run' s' hlink' _ hi
  refine (hr run' s' hlink').bind ?_
  intro b j run'' s'' hlink'' hkeeps hj
  refine Outcome.settle hlink'' _ s''.frame.desk ?_ hlink''.host hlink''.bindings
  have hi' := hkeeps i a hi
  unfold Frame.binary
  rw [BinOp.ofCode?_code]
  show s''.frame.settle (applyBinOp op (s''.frame.get i) (s''.frame.get j)) = _
  rw [hi'.get_eq, hj.get_eq]

/-- The truth of a handle is that of its value. -/
theorem truth_apply {s : Active σ} {handle : Int} {v : Value} (h : s.frame.Holds handle v) :
    truth handle s = (.ok (if v.asBool then 1 else 0), s) := by
  unfold truth Frame.truthy
  rw [h.get_eq]

/-- A step that takes the truth of a value. -/
theorem truth_bind {β : Type} {s : Active σ} {handle : Int} {v : Value}
    (h : s.frame.Holds handle v) (g : Int → Step σ β) :
    (truth handle >>= g) s = g (if v.asBool then 1 else 0) s := by
  rw [step_bind_apply, truth_apply h]

/-- A boolean added to the frame. -/
theorem outcome_bool {r : Run σ} {s : Active σ} (hl : Linked x r s) {flag : Int} {b : Bool}
    (hb : (flag != 0) = b) :
    Outcome x (Gives fun f v handle => f.Holds handle v) s (.ok (.boolean b), r)
      (safe (·.bool flag) s) := by
  refine Outcome.push hl ?_
  unfold Frame.bool
  rw [hb]

/-- The truth of a piece of code as a boolean of the frame. -/
theorem outcome_truth {act : Act (Run σ) Value} {code : Code} (h : Computes x act code)
    {r : Run σ} {s : Active σ} (hl : Linked x r s) :
    Outcome x (Gives fun f v handle => f.Holds handle v) s
      ((do let v ← act; return .boolean v.asBool : Act (Run σ) Value) r)
      ((do let t ← truth (← exec x.setup.limits.loops code); safe (·.bool t) : Step σ Int) s) := by
  refine (h r s hl).bind ?_
  intro v handle r' s' hl' _ hv
  rw [truth_bind hv]
  refine outcome_bool hl' ?_
  cases v.asBool <;> rfl

theorem computes_both {left right : Act (Run σ) Value} {l r : Code}
    (hl : Computes x left l) (hr : Computes x right r) :
    Computes x
      (do
        let a ← left
        if a.asBool then
          let b ← right
          return .boolean b.asBool
        else return .boolean false)
      (.both l r) := by
  intro run s hlink
  simp only [exec]
  refine (hl run s hlink).bind ?_
  intro a i run' s' hlink' _ hi
  rw [truth_bind hi]
  cases a.asBool with
  | true => exact outcome_truth hr hlink'
  | false => exact outcome_bool hlink' rfl

theorem computes_either {left right : Act (Run σ) Value} {l r : Code}
    (hl : Computes x left l) (hr : Computes x right r) :
    Computes x
      (do
        let a ← left
        if a.asBool then return .boolean true
        else
          let b ← right
          return .boolean b.asBool)
      (.either l r) := by
  intro run s hlink
  simp only [exec]
  refine (hl run s hlink).bind ?_
  intro a i run' s' hlink' _ hi
  rw [truth_bind hi]
  cases a.asBool with
  | true => exact outcome_bool hlink' rfl
  | false => exact outcome_truth hr hlink'

/-! ## Calls -/

theorem Frame.HoldsAll.map_get {f : Frame σ} {handles : List Int} {vs : List Value}
    (hs : f.HoldsAll handles vs) : handles.map f.get = vs := by
  induction hs with
  | nil => rfl
  | cons hold _ ih => rw [List.map_cons, hold.get_eq, ih]

theorem computesAll_nil : ComputesAll x (pure []) [] := by
  intro r s hl
  simp only [execArgs]
  exact Outcome.pure hl ⟨[], rfl, .nil, rfl⟩

theorem computesAll_cons {act : Act (Run σ) Value} {acts : Act (Run σ) (List Value)} {code : Code}
    {codes : List Code} (h : Computes x act code) (hs : ComputesAll x acts codes) :
    ComputesAll x
      (do
        let v ← act
        let vs ← acts
        return v :: vs)
      (code :: codes) := by
  intro r s hl
  simp only [execArgs]
  refine (h r s hl).bind ?_
  intro v handle r' s' hl' _ hv
  refine (hs r' s' hl').bind ?_
  rintro vs handles r'' s'' hl'' hkeeps ⟨hvs, hlength⟩
  refine Outcome.pure hl'' ⟨_, rfl, .cons (hkeeps _ _ hv) hvs, ?_⟩
  simp [hlength]

/-- Up to three handles pass through the fixed places for arguments. -/
theorem take_places {handles : List Int} (h : handles.length ≤ maxCallArgs) (d : Int) :
    [handles.getD 0 d, handles.getD 1 d, handles.getD 2 d].take
      (min (handles.length : Int).toNat maxCallArgs) = handles := by
  unfold maxCallArgs at h ⊢
  match handles, h with
  | [], _ => rfl
  | [_], _ => rfl
  | [_, _], _ => rfl
  | [_, _, _], _ => rfl
  | _ :: _ :: _ :: _ :: _, h =>
      simp only [List.length_cons] at h
      omega

/-- The call of a function on handles that stand for its arguments. -/
theorem outcome_call {b : Builtin σ} (hb : x.setup.registry.get? b.id = some b) {r : Run σ}
    {s : Active σ} (hl : Linked x r s) {handles : List Int} {vs : List Value}
    (hvs : s.frame.HoldsAll handles vs) (hlength : handles.length ≤ maxCallArgs) :
    Outcome x (Gives fun f v handle => f.Holds handle v) s (callBuiltin b vs r)
      (checked (·.call b.id handles.length (handles.getD 0 nullHandle)
        (handles.getD 1 nullHandle) (handles.getD 2 nullHandle)) s) := by
  rw [callBuiltin_apply]
  refine Outcome.settle hl _ (s.frame.desk.call b vs).2 ?_ ?_ hl.bindings
  · unfold Frame.call
    rw [take_places hlength, hvs.map_get, hl.registry]
    rw [if_neg (by omega), Int.toNat_natCast, hb, ← hl.registry, hl.host]
    rfl
  · show (b.call vs r.machine.host).state = (b.call vs s.frame.desk.host).state
    rw [hl.host]

theorem computes_call {b : Builtin σ} (hb : x.setup.registry.get? b.id = some b)
    {acts : Act (Run σ) (List Value)} {codes : List Code} (hs : ComputesAll x acts codes)
    (hlength : codes.length ≤ maxCallArgs) :
    Computes x (acts >>= callBuiltin b) (.call b.id codes) := by
  intro r s hl
  simp only [exec]
  refine (hs r s hl).bind ?_
  rintro vs handles r' s' hl' _ ⟨hvs, heq⟩
  exact outcome_call hb hl' hvs (heq ▸ hlength)

theorem computes_callBuiltin_nil {b : Builtin σ} (hb : x.setup.registry.get? b.id = some b) :
    Computes x (callBuiltin b []) (.call b.id []) :=
  computes_call hb computesAll_nil (Nat.zero_le _)

/-- One piece of code after another whose value is dropped. -/
theorem computes_seq {first second : Act (Run σ) Value} {c d : Code}
    (hc : Computes x first c) (hd : Computes x second d) :
    Computes x
      (do
        let _ ← first
        second)
      (.seq c d) := by
  intro r s hl
  simp only [exec]
  refine (hc r s hl).bind ?_
  intro _ _ r' s' hl' _ _
  exact hd r' s' hl'

/-! ## Statements -/

/-- A statement that has the value of an expression. -/
theorem performs_expr {act : Act (Run σ) Value} {code : Code} (h : Computes x act code) :
    Performs x
      (do
        let v ← act
        return .normal v)
      code := by
  intro r s hl
  have hpure : exec x.setup.limits.loops code s = (exec x.setup.limits.loops code >>= pure) s := by
    rw [step_bind_apply]
    rcases exec x.setup.limits.loops code s with ⟨e | handle, s'⟩ <;> rfl
  rw [hpure]
  refine (h r s hl).bind ?_
  intro v handle r' s' hl' _ hv
  exact Outcome.pure hl' ⟨handle, rfl, hv⟩

theorem performs_leave {act : Act (Run σ) Value} {code : Code} (h : Computes x act code) :
    Performs x
      (do
        let v ← act
        return .left v)
      (.leave code) := by
  intro r s hl
  simp only [exec]
  refine (h r s hl).bind ?_
  intro v handle r' s' hl' _ hv
  exact Outcome.pure hl' ⟨handle, rfl, hv⟩

/-- Setting a variable and writing its slot keep states linked. -/
theorem Linked.assign {r : Run σ} {s : Active σ} (hl : Linked x r s) {name : String}
    (hname : name ∈ x.names) {handle : Int} {v : Value} (hv : s.frame.Holds handle v) :
    Linked x { r with scope := r.scope.set name v }
      { s with slots := s.slots.setIfInBounds (x.names.idxOf name) handle } where
  registry := hl.registry
  constants := hl.constants
  failures := hl.failures
  null := hl.null
  size := by rw [Array.size_setIfInBounds, hl.size]
  stored := by
    intro other
    have hin : x.names.idxOf name < s.slots.size := by
      rw [hl.size]
      exact List.idxOf_lt_length_iff.2 hname
    by_cases h : other = name
    · subst h
      rw [Scope.get?_set_self]
      simpa [Array.getElem?_setIfInBounds, hin, Frame.Stores] using hv
    · rw [Scope.get?_set_of_ne _ h]
      have hidx : x.names.idxOf name ≠ x.names.idxOf other := by
        intro heq
        exact h ((List.idxOf_inj hname).1 heq).symm
      have hstored := hl.stored other
      simpa [Array.getElem?_setIfInBounds, hidx] using hstored
  functions := hl.functions
  host := hl.host
  bindings := hl.bindings

theorem performs_write {act : Act (Run σ) Value} {code : Code} (h : Computes x act code)
    {name : String} (hname : name ∈ x.names) :
    Performs x
      (do
        let v ← act
        rescope (·.set name v)
        return .normal v)
      (.write (x.names.idxOf name) code) := by
  intro r s hl
  simp only [exec]
  refine (h r s hl).bind ?_
  intro v handle r' s' hl' _ hv
  exact ⟨hl'.assign hname hv, .refl _, .done ⟨handle, rfl, hv⟩⟩

theorem performs_branch {act : Act (Run σ) Value} {yes no : Act (Run σ) Flow} {c t e : Code}
    (hc : Computes x act c) (ht : Performs x yes t) (he : Performs x no e) :
    Performs x
      (do
        let v ← act
        if v.asBool then yes else no)
      (.branch c t e) := by
  intro r s hl
  simp only [exec]
  refine (hc r s hl).bind ?_
  intro v handle r' s' hl' _ hv
  rw [truth_bind hv]
  cases v.asBool with
  | true => exact ht r' s' hl'
  | false => exact he r' s' hl'

/-- What follows a statement: it goes on, or the action is left. -/
theorem Outcome.follow {γ δ : Type} {Q : Frame σ → γ → Except Leave δ → Prop} {r : Run σ}
    {s : Active σ} {act : Act (Run σ) Flow} {step : Step σ Int} {k : Flow → Act (Run σ) γ}
    {g : Int → Step σ δ} (h : Outcome x Exits s (act r) (step s))
    (hnormal : ∀ (v : Value) (handle : Int) (r' : Run σ) (s' : Active σ), Linked x r' s' →
      s'.frame.Holds handle v → Outcome x Q s' (k (.normal v) r') (g handle s'))
    (hleft : ∀ (v : Value) (handle : Int) (r' : Run σ) (s' : Active σ), Linked x r' s' →
      s'.frame.Holds handle v → Outcome x Q s' (k (.left v) r') (.error (.returned handle), s')) :
    Outcome x Q s ((act >>= k) r) ((step >>= g) s) := by
  rw [Act.bind_apply, step_bind_apply]
  obtain ⟨hl, hk, hm⟩ := h
  rcases hact : act r with ⟨result, r'⟩
  rcases hstep : step s with ⟨reached, s'⟩
  rw [hact, hstep] at hl hm
  rw [hstep] at hk
  cases hm with
  | fault hf => exact ⟨hl, hk, .fault hf⟩
  | unfinished => exact ⟨hl, hk, .unfinished⟩
  | @done flow _ hq =>
      cases flow with
      | normal v =>
          obtain ⟨handle, rfl, hv⟩ := hq
          exact (hnormal v handle r' s' hl hv).after hk
      | left v =>
          obtain ⟨handle, rfl, hv⟩ := hq
          exact (hleft v handle r' s' hl hv).after hk

theorem performs_seq {act : Act (Run σ) Flow} {next : Value → Act (Run σ) Flow} {c d : Code}
    (hc : Performs x act c) (hd : ∀ v, Performs x (next v) d) :
    Performs x
      (do
        match ← act with
        | .normal v => next v
        | .left v => return .left v)
      (.seq c d) := by
  intro r s hl
  simp only [exec]
  refine (hc r s hl).follow ?_ ?_
  · intro v handle r' s' hl' _
    exact hd v r' s' hl'
  · intro v handle r' s' hl' hv
    exact Outcome.pure hl' ⟨handle, rfl, hv⟩

/-- How code leaves one turn of a loop. -/
def Turns (f : Frame σ) : Option Flow → Except Leave (Option Int) → Prop
  | none, e => e = .ok none
  | some (.normal v), e => ∃ handle, e = .ok (some handle) ∧ f.Holds handle v
  | some (.left v), e => ∃ handle, e = .error (.returned handle) ∧ f.Holds handle v

/-- Loops whose turns agree agree, whatever the bound on their repetitions. -/
theorem outcome_repeat {turn : Act (Run σ) (Option Flow)} {step : Step σ (Option Int)}
    (h : ∀ (r : Run σ) (s : Active σ), Linked x r s → Outcome x Turns s (turn r) (step s)) :
    ∀ (n : Nat) (r : Run σ) (s : Active σ), Linked x r s →
      Outcome x Exits s (Act.repeatUntil turn n r) (repeatUntil step n s) := by
  intro n
  induction n with
  | zero =>
      intro r s hl
      exact ⟨hl, .refl _, .unfinished⟩
  | succ n ih =>
      intro r s hl
      obtain ⟨hl', hk, hm⟩ := h r s hl
      unfold Act.repeatUntil repeatUntil
      rcases hturn : turn r with ⟨result, r'⟩
      rcases hstep : step s with ⟨reached, s'⟩
      rw [hturn, hstep] at hl' hm
      rw [hstep] at hk
      cases hm with
      | fault hf => exact ⟨hl', hk, .fault hf⟩
      | unfinished => exact ⟨hl', hk, .unfinished⟩
      | @done ending _ hq =>
          cases ending with
          | none =>
              cases hq
              exact (ih r' s' hl').after hk
          | some flow =>
              cases flow with
              | normal v =>
                  obtain ⟨handle, rfl, hv⟩ := hq
                  exact ⟨hl', hk, .done ⟨handle, rfl, hv⟩⟩
              | left v =>
                  obtain ⟨handle, rfl, hv⟩ := hq
                  exact ⟨hl', hk, .done ⟨handle, rfl, hv⟩⟩

theorem performs_loop {act : Act (Run σ) Value} {body : Act (Run σ) Flow} {c d : Code}
    (hc : Computes x act c) (hd : Performs x body d) :
    Performs x
      (Act.repeatUntil
        (do
          let v ← act
          if v.asBool then
            match ← body with
            | .left v => return some (.left v)
            | .normal _ => return none
          else return some (.normal .null) : Act (Run σ) (Option Flow))
        x.setup.limits.loops)
      (.loop c d) := by
  intro r s hl
  simp only [exec]
  refine outcome_repeat ?_ _ r s hl
  intro r s hl
  refine (hc r s hl).bind ?_
  intro v handle r' s' hl' _ hv
  rw [truth_bind hv]
  cases v.asBool with
  | false => exact Outcome.pure hl' ⟨nullHandle, rfl, hl'.null⟩
  | true =>
      refine (hd r' s' hl').follow ?_ ?_
      · intro v handle r'' s'' hl'' _
        exact Outcome.pure hl'' rfl
      · intro v handle r'' s'' hl'' hv
        exact Outcome.pure hl'' ⟨handle, rfl, hv⟩

end Native
end Chord
