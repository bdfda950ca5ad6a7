import Chord.Host.Desktop
import Chord.Library.Standard
import Chord.Proofs.Eval.Bounds
import Chord.Proofs.Native.Lowering

/-!
# Compiled actions and the interpreter agree

**Input.** A statement that can be compiled, over any registry, and any state of the host.

**Results.** `invoke_eq_evaluateStatement`: under every bound on the repetitions of loops a compiled
action and the interpreted statement have the same result, a stop at the bound included, and leave
the host in the same state. `invokes_iff_evaluates` says the same of complete runs, however many of
them follow one another.
-/

namespace Chord
namespace Native

open Eval

variable {σ : Type}

/-- The states in which an action starts. -/
theorem linked_start (setup : Setup σ) (names : List String) (pools : Pools) {m : Machine σ}
    {desk : Desk σ} (hhost : m.host = desk.host) :
    Linked ⟨setup, names, pools, m.bindings⟩ ⟨.empty, m⟩
      ⟨{ registry := setup.registry, constants := pools.constants, failures := pools.failures,
         desk }, Array.replicate names.length undefined⟩ where
  registry := rfl
  constants := rfl
  failures := rfl
  null := rfl
  size := Array.size_replicate
  stored := by
    intro name
    show Array.getD _ _ _ = undefined
    simp [Array.getElem?_replicate]
    split <;> rfl
  functions := fun _ => rfl
  host := hhost
  bindings := rfl

/-- A compiled action is lowered code with its pools. -/
theorem compile_eq_ok {registry : Registry σ} {s : Stmt} {a : Action}
    (h : compile registry s = .ok a) :
    ∃ pools : Pools, lowerStmt registry s.letNames s {} = .ok (a.code, pools) ∧
      a.slots = s.letNames.length ∧ a.constants = pools.constants ∧
      a.failures = pools.failures := by
  unfold compile at h
  simp only [StateT.run, bind, Except.bind] at h
  split at h
  · cases h
  · rename_i reached hlower
    obtain ⟨code, pools⟩ := reached
    cases h
    exact ⟨pools, hlower, rfl, rfl, rfl⟩

/-- The code of a compiled action performs its statement. -/
theorem compile_performs {setup : Setup σ} {s : Stmt} {a : Action} (enter : Enter σ)
    (h : compile setup.registry s = .ok a) (bindings : Table Binding) :
    Performs ⟨setup, s.letNames, ⟨a.constants, a.failures⟩, bindings⟩ (evalStmt setup enter s)
      a.code := by
  obtain ⟨pools, hlower, -, hconstants, hfailures⟩ := compile_eq_ok h
  have hnames : ∀ name ∈ s.assigned, name ∈ s.letNames := by
    intro name hname
    exact List.mem_eraseDups.2 hname
  rw [hconstants, hfailures]
  exact (lowerStmt_yields (x := ⟨setup, s.letNames, pools, bindings⟩) enter s hnames {} pools a.code
    hlower).2 (.refl pools)

theorem Frame.Holds.finish_eq {f : Frame σ} {handle : Int} {v : Value} (h : f.Holds handle v) :
    f.finish handle = .ok v := by
  rw [Frame.finish_eq, if_neg h.ne_failed, h.get_eq]

theorem Frame.finish_failed {f : Frame σ} {cause : Fault} (h : f.error = some cause) :
    f.finish failed = .error cause := by
  rw [Frame.finish_eq, if_pos rfl, h]
  rfl

/-- How an action ends, by the way its code ends. -/
def Frame.ending (f : Frame σ) : Except Leave Int → Except Stop Value
  | .ok handle => (f.finish handle).mapError .fault
  | .error (.returned handle) => (f.finish handle).mapError .fault
  | .error .aborted => (f.finish failed).mapError .fault
  | .error .unfinished => .error .unfinished

theorem Meets.ending_eq {f : Frame σ} {result : Except Stop Flow} {reached : Except Leave Int}
    (h : Meets Exits f result reached) : f.ending reached = result.map Flow.value := by
  cases h with
  | @done flow e hexits =>
      cases flow with
      | normal v =>
          obtain ⟨handle, rfl, hholds⟩ := hexits
          simp only [Frame.ending, hholds.finish_eq]
          rfl
      | left v =>
          obtain ⟨handle, rfl, hholds⟩ := hexits
          simp only [Frame.ending, hholds.finish_eq]
          rfl
  | fault hcause =>
      simp only [Frame.ending, Frame.finish_failed hcause]
      rfl
  | unfinished => rfl

theorem invoke_eq_ending (a : Action) (registry : Registry σ) (loops : Nat) (desk : Desk σ) :
    a.invoke registry loops desk =
      let started : Active σ :=
        ⟨{ registry, constants := a.constants, failures := a.failures, desk },
          Array.replicate a.slots undefined⟩
      let ended := exec loops a.code started
      (ended.2.frame.ending ended.1, ended.2.frame.desk) := by
  unfold Action.invoke
  simp only
  rcases exec loops a.code _ with ⟨(_ | _ | _) | _, t⟩ <;> rfl

/-- **Compiled and interpreted statements agree** under every bound on repetitions: same result,
same state of the host; and the interpreter's bindings are not touched. -/
theorem invoke_eq_evaluateStatement (setup : Setup σ) {s : Stmt} {a : Action}
    (h : compile setup.registry s = .ok a) (m : Machine σ) (desk : Desk σ)
    (hhost : m.host = desk.host) :
    (evaluateStatement setup s ⟨.empty, m⟩).1 =
        (a.invoke setup.registry setup.limits.loops desk).1 ∧
      (evaluateStatement setup s ⟨.empty, m⟩).2.machine.host =
        (a.invoke setup.registry setup.limits.loops desk).2.host ∧
      (evaluateStatement setup s ⟨.empty, m⟩).2.machine.bindings = m.bindings := by
  have hslots : a.slots = s.letNames.length := (compile_eq_ok h).choose_spec.2.1
  have hstart := linked_start setup s.letNames ⟨a.constants, a.failures⟩ hhost
  obtain ⟨hlinked, -, hmeets⟩ :=
    compile_performs (enterFrom setup m.depth) h m.bindings _ _ hstart
  rw [invoke_eq_ending, hslots]
  exact ⟨hmeets.ending_eq.symm, hlinked.host, hlinked.bindings⟩

/-! ## Complete runs -/

/-- An action that ends from a desk, with a value or a fault. -/
def Action.Ends (a : Action) (registry : Registry σ) (desk : Desk σ)
    (result : Except Fault Value) (desk' : Desk σ) : Prop :=
  ∃ loops, a.invoke registry loops desk = (result.mapError .fault, desk')

/-- A fresh interpreter that ends a program from a state of the host, with a value or a fault. -/
def Interpreted (host : Host σ) (registry : Registry σ) (calls : Nat) (p : Program) (state : σ)
    (result : Except Fault Value) (state' : σ) : Prop :=
  ∃ loops r, evaluate ⟨host, registry, ⟨calls, loops⟩⟩ p ⟨.empty, { host := state }⟩ =
    (result.mapError .fault, r) ∧ r.machine.host = state'

/-- Complete runs that follow one another, with their results. -/
inductive Successive {S R : Type} (run : S → R → S → Prop) : S → List R → S → Prop
  | none {s : S} : Successive run s [] s
  | next {s s' s'' : S} {result : R} {results : List R} :
      run s result s' → Successive run s' results s'' → Successive run s (result :: results) s''

section Runs

variable {registry : Registry σ} {body : List Stmt} {a : Action}
  (h : compile registry (.block body) = .ok a) (host : Host σ) (calls : Nat)

include h

theorem evaluate_eq_invoke (loops : Nat) (desk : Desk σ) :
    let ended := evaluate ⟨host, registry, ⟨calls, loops⟩⟩ ⟨body⟩ ⟨.empty, { host := desk.host }⟩
    ended.1 = (a.invoke registry loops desk).1 ∧
      ended.2.machine.host = (a.invoke registry loops desk).2.host := by
  have hagree := invoke_eq_evaluateStatement ⟨host, registry, ⟨calls, loops⟩⟩ h
    (Run.opened ⟨.empty, { host := desk.host }⟩ ⟨body⟩).machine desk rfl
  simp only [evaluate_eq_evaluateStatement]
  exact ⟨hagree.1, hagree.2.1⟩

/-- A complete run of the action is one of the program. -/
theorem interpreted_of_ends {desk desk' : Desk σ} {result : Except Fault Value}
    (hends : a.Ends registry desk result desk') :
    Interpreted host registry calls ⟨body⟩ desk.host result desk'.host := by
  obtain ⟨loops, hinvoke⟩ := hends
  have hagree := evaluate_eq_invoke h host calls loops desk
  rw [hinvoke] at hagree
  exact ⟨loops, _, Prod.ext hagree.1 rfl, hagree.2⟩

/-- A complete run of the program is one of the action. -/
theorem ends_of_interpreted {desk : Desk σ} {state : σ} {result : Except Fault Value}
    (hrun : Interpreted host registry calls ⟨body⟩ desk.host result state) :
    ∃ desk', a.Ends registry desk result desk' ∧ desk'.host = state := by
  obtain ⟨loops, r, hevaluate, hstate⟩ := hrun
  have hagree := evaluate_eq_invoke h host calls loops desk
  rw [hevaluate] at hagree
  exact ⟨_, ⟨loops, Prod.ext hagree.1.symm rfl⟩, hagree.2.symm.trans hstate⟩

theorem successive_interpreted_of_ends {desk desk' : Desk σ}
    {results : List (Except Fault Value)}
    (hruns : Successive (a.Ends registry) desk results desk') :
    Successive (Interpreted host registry calls ⟨body⟩) desk.host results desk'.host := by
  induction hruns with
  | none => exact .none
  | next hends _ ih => exact .next (interpreted_of_ends h host calls hends) ih

theorem successive_ends_of_interpreted {state state' : σ} {results : List (Except Fault Value)}
    (hruns : Successive (Interpreted host registry calls ⟨body⟩) state results state') :
    ∀ desk : Desk σ, desk.host = state →
      ∃ desk', Successive (a.Ends registry) desk results desk' ∧ desk'.host = state' := by
  induction hruns with
  | none => exact fun desk hdesk => ⟨desk, .none, hdesk⟩
  | next hrun _ ih =>
      intro desk hdesk
      subst hdesk
      obtain ⟨middle, hends, hmiddle⟩ := ends_of_interpreted h host calls hrun
      obtain ⟨desk', hsuccessive, hdesk'⟩ := ih middle hmiddle
      exact ⟨desk', .next hends hsuccessive, hdesk'⟩

end Runs

theorem mapError_fault_ne_unfinished (result : Except Fault Value) :
    result.mapError Stop.fault ≠ .error .unfinished := by
  cases result <;> exact nofun

theorem Interpreted.unique {host : Host σ} {registry : Registry σ} {calls : Nat} {p : Program}
    {state state' state'' : σ} {result result' : Except Fault Value}
    (h : Interpreted host registry calls p state result state')
    (h' : Interpreted host registry calls p state result' state'') :
    result = result' ∧ state' = state'' := by
  obtain ⟨n, r, hr, rfl⟩ := h
  obtain ⟨n', r', hr', rfl⟩ := h'
  have hn := mapError_fault_ne_unfinished result
  have hn' := mapError_fault_ne_unfinished result'
  have hsame := evaluate_loops_unique (by rw [hr]; exact hn) (by rw [hr']; exact hn')
  rw [hr, hr', Prod.mk.injEq] at hsame
  refine ⟨?_, by rw [hsame.2]⟩
  cases result <;> cases result' <;> cases hsame.1 <;> rfl

/-- Runs that end in one way only do so however many of them follow one another. -/
theorem Successive.unique {S R : Type} {run : S → R → S → Prop}
    {s s' s'' : S} {results results' : List R} (h : Successive run s results s')
    (h' : Successive run s results' s'') (hlength : results.length = results'.length)
    (hrun : ∀ {s s' s'' : S} {x y : R}, run s x s' → run s y s'' → x = y ∧ s' = s'') :
    results = results' ∧ s' = s'' := by
  induction h generalizing results' s'' with
  | none =>
      cases h' with
      | none => exact ⟨rfl, rfl⟩
      | next => cases hlength
  | next hfirst _ ih =>
      cases h' with
      | none => cases hlength
      | next hfirst' hrest' =>
          obtain ⟨rfl, rfl⟩ := hrun hfirst hfirst'
          obtain ⟨rfl, rfl⟩ := ih hrest' (Nat.succ.inj hlength)
          exact ⟨rfl, rfl⟩

/-- **A compiled action and the interpreter are equivalent**, over any number of runs: the runs of
the action end, with these results and in this state of the host, exactly when those of fresh
interpreters do, and no other results or states are possible. -/
theorem invokes_iff_evaluates {registry : Registry σ} {body : List Stmt} {a : Action}
    (h : compile registry (.block body) = .ok a) (host : Host σ) (calls : Nat) (desk : Desk σ)
    (results : List (Except Fault Value)) (state : σ) :
    ((∃ desk', Successive (a.Ends registry) desk results desk' ∧ desk'.host = state) ↔
        Successive (Interpreted host registry calls ⟨body⟩) desk.host results state) ∧
      ∀ (results' : List (Except Fault Value)) (desk' : Desk σ),
        Successive (a.Ends registry) desk results' desk' →
        Successive (Interpreted host registry calls ⟨body⟩) desk.host results state →
        results'.length = results.length → results' = results ∧ desk'.host = state := by
  refine ⟨⟨?_, ?_⟩, ?_⟩
  · rintro ⟨desk', hruns, rfl⟩
    exact successive_interpreted_of_ends h host calls hruns
  · intro hruns
    exact successive_ends_of_interpreted h host calls hruns desk rfl
  · intro results' desk' hends hruns hlength
    have hruns' := successive_interpreted_of_ends h host calls hends
    exact hruns'.unique hruns hlength Interpreted.unique

/-- A text is sent while the first variable is set; the second one is read without a value. -/
def sendThenFail : List Stmt := [
  .assign "x" (some (.string "hi")),
  .loop (.identifier "x") (.block [
    .expr (.call (.identifier "send") [.identifier "x"]),
    .assign "x" none]),
  .branch (.identifier "x") (.assign "y" none) none,
  .leave (some (.identifier "y"))]

/-- The action that `sendThenFail` is compiled to. -/
def sendThenFailAction : Action where
  code :=
    .seq (.write 0 (.const 0))
      (.seq
        (.loop (.read 0 (.raise 0)) (.seq (.call 15 [.read 0 (.raise 1)]) (.write 0 .null)))
        (.seq (.branch (.read 0 (.raise 2)) (.write 1 .null) .null)
          (.leave (.read 1 (.raise 3)))))
  slots := 2
  constants := #[.string "hi"]
  failures := #[.unknownIdentifier "x", .unknownIdentifier "x", .unknownIdentifier "x",
    .unknownIdentifier "y"]

theorem sendThenFail_twice :
    compile (Registry.standard Desktop.host) (.block sendThenFail) = .ok sendThenFailAction ∧
      Successive (Interpreted Desktop.host (Registry.standard Desktop.host) 256 ⟨sendThenFail⟩)
        (Desktop.fresh "" [])
        [.error (.unknownIdentifier "y"), .error (.unknownIdentifier "y")]
        { Desktop.fresh "" [] with sent := ["hi", "hi"] } := by
  have hcompile :
      compile (Registry.standard Desktop.host) (.block sendThenFail) = .ok sendThenFailAction := rfl
  have hends : ∀ sent : List String,
      sendThenFailAction.Ends (Registry.standard Desktop.host)
        ⟨{ Desktop.fresh "" [] with sent }, #[]⟩ (.error (.unknownIdentifier "y"))
        ⟨{ Desktop.fresh "" [] with sent := sent ++ ["hi"] }, #[]⟩ :=
    fun _ => ⟨2, rfl⟩
  refine ⟨hcompile, ?_⟩
  refine (invokes_iff_evaluates hcompile Desktop.host 256 ⟨Desktop.fresh "" [], #[]⟩ _ _).1.1 ?_
  exact ⟨_, .next (hends []) (.next (hends ["hi"]) .none), rfl⟩

end Native
end Chord
