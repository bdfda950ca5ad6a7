import Chord.Native.Keyboard
import Chord.Proofs.Eval.Invariants
import Chord.Proofs.Native.Handles

/-!
# What compiled actions keep

Running code touches its frame only by operations and the host only where it calls a built-in
function, and a keyboard touches the host only where it binds a hotkey.

**Input.** A property of frames that every operation keeps; or one of a state of the host, or of one
with compiled actions, that calls and new bindings keep.

**Results.** `exec_keeps`: what every operation on a frame keeps, running code keeps, whether it
ends or aborts. So the frame it leaves is one that operations lead to (`exec_performs`), and actions
keep what the functions of their registry keep (`Action.invoke_keeps`).
`Keyboard.compileAll_keeps`, `Keyboard.invoke_keeps` and their companions say it of the operations
of a keyboard.
-/

namespace Chord
namespace Native

variable {σ : Type}

/-! ## Frames -/

/-- A frame on a registry whose host has a property. -/
structure Frame.On (registry : Registry σ) (P : σ → Prop) (f : Frame σ) : Prop where
  registry : f.registry = registry
  host : P f.desk.host

/-- What the functions of a registry keep, every operation on a frame keeps. -/
theorem Frame.On.perform {registry : Registry σ} {P : σ → Prop} {f : Frame σ}
    (hP : registry.Keeps P) (hf : f.On registry P) (o : Operation) :
    (f.perform o).2.On registry P where
  registry := (f.perform_precedes o).registry.trans hf.registry
  host := by
    rcases f.desk_perform o with hsame | ⟨id, count, a, b, c, builtin, -, hbuiltin, hdesk⟩
    · rw [hsame]
      exact hf.host
    · have hget : registry.get? id.toNat = some builtin := by
        rw [Frame.builtin?, hf.registry] at hbuiltin
        split at hbuiltin
        · cases hbuiltin
        · exact hbuiltin
      rw [← hdesk]
      exact hP hget _ f.desk.host hf.host

/-! ## Code -/

section Code

/-- A property of frames that every operation keeps. -/
def Frame.Upheld (P : Frame σ → Prop) : Prop :=
  ∀ f, P f → ∀ o : Operation, P (f.perform o).2

/-- A property of the frame of running code. -/
def Active.Has (P : Frame σ → Prop) (s : Active σ) : Prop :=
  P s.frame

variable {P : Frame σ → Prop}

/-- A step that carries out one operation keeps what every operation keeps. -/
theorem safe_keeps (hP : Frame.Upheld P) (o : Operation) :
    Keeps (Active.Has P) (safe (·.perform o)) :=
  fun s hs => hP s.frame hs o

theorem checked_keeps (hP : Frame.Upheld P) (o : Operation) :
    Keeps (Active.Has P) (checked (·.perform o)) :=
  fun s hs => hP s.frame hs o

theorem truth_keeps (handle : Int) : Keeps (Active.Has P) (truth handle) :=
  fun _ hs => hs

/-- What every step of a loop keeps, the loop keeps. -/
theorem repeatUntil_keeps {step : Step σ (Option Int)} (hstep : Keeps (Active.Has P) step) :
    (n : Nat) → Keeps (Active.Has P) (repeatUntil step n : Step σ Int)
  | 0 => fun _ hs => hs
  | n + 1 => by
      intro s hs
      have hmiddle := hstep s hs
      unfold repeatUntil
      rcases hrun : step s with ⟨e | ending, s'⟩
      · rw [hrun] at hmiddle
        exact hmiddle
      · rw [hrun] at hmiddle
        cases ending with
        | none => exact repeatUntil_keeps hstep n s' hmiddle
        | some handle => exact hmiddle

mutual

/-- What every operation on a frame keeps, running code keeps. -/
theorem exec_keeps (hP : Frame.Upheld P) (loops : Nat) :
    (c : Code) → Keeps (Active.Has P) (exec loops c)
  | .null => by
      simp only [exec]
      exact .pure _
  | .const index => by
      simp only [exec]
      exact safe_keeps hP (.const index)
  | .read slot fallback => by
      simp only [exec]
      refine .bind (fun _ hs => hs) fun s => ?_
      split
      · exact exec_keeps hP loops fallback
      · exact .pure _
  | .write slot value => by
      simp only [exec]
      exact (exec_keeps hP loops value).bind fun handle => .bind (fun _ hs => hs) fun _ => .pure _
  | .binary op left right => by
      simp only [exec]
      refine (exec_keeps hP loops left).bind fun l => ?_
      refine (exec_keeps hP loops right).bind fun r => ?_
      exact checked_keeps hP (.binary op.code l r)
  | .both left right => by
      simp only [exec]
      refine (exec_keeps hP loops left).bind fun l => (truth_keeps l).bind fun truth => ?_
      split
      · exact safe_keeps hP (.bool _)
      · refine (exec_keeps hP loops right).bind fun r => (truth_keeps r).bind fun truth => ?_
        exact safe_keeps hP (.bool _)
  | .either left right => by
      simp only [exec]
      refine (exec_keeps hP loops left).bind fun l => (truth_keeps l).bind fun truth => ?_
      split
      · refine (exec_keeps hP loops right).bind fun r => (truth_keeps r).bind fun truth => ?_
        exact safe_keeps hP (.bool _)
      · exact safe_keeps hP (.bool _)
  | .call id args => by
      simp only [exec]
      refine (execArgs_keeps hP loops args).bind fun handles => ?_
      exact checked_keeps hP (.call _ _ _ _ _)
  | .raise index => by
      simp only [exec]
      exact checked_keeps hP (.raise index)
  | .seq first second => by
      simp only [exec]
      exact (exec_keeps hP loops first).bind fun _ => exec_keeps hP loops second
  | .branch condition consequence alternative => by
      simp only [exec]
      refine (exec_keeps hP loops condition).bind fun c => (truth_keeps c).bind fun truth => ?_
      split
      · exact exec_keeps hP loops alternative
      · exact exec_keeps hP loops consequence
  | .loop condition body => by
      simp only [exec]
      refine repeatUntil_keeps ?_ loops
      refine (exec_keeps hP loops condition).bind fun c => (truth_keeps c).bind fun truth => ?_
      split
      · exact .pure _
      · exact (exec_keeps hP loops body).bind fun _ => .pure _
  | .leave value => by
      simp only [exec]
      exact (exec_keeps hP loops value).bind fun handle => fun _ hs => hs

theorem execArgs_keeps (hP : Frame.Upheld P) (loops : Nat) :
    (cs : List Code) → Keeps (Active.Has P) (execArgs loops cs)
  | [] => by
      simp only [execArgs]
      exact .pure _
  | c :: cs => by
      simp only [execArgs]
      refine (exec_keeps hP loops c).bind fun handle => ?_
      exact (execArgs_keeps hP loops cs).bind fun handles => .pure _

end

/-- All that running code does to its frame is to carry out operations on it. -/
theorem exec_performs (loops : Nat) (c : Code) (s : Active σ) :
    ∃ os, (exec loops c s).2.frame = s.frame.performAll os := by
  have hreached : Frame.Upheld fun f => ∃ os, f = s.frame.performAll os := by
    rintro f ⟨os, rfl⟩ o
    exact ⟨os ++ [o], (s.frame.performAll_append os [o]).symm⟩
  exact exec_keeps hreached loops c s ⟨[], rfl⟩

/-- An action keeps what the functions of its registry keep. -/
theorem Action.invoke_keeps {registry : Registry σ} {P : σ → Prop} (hP : registry.Keeps P)
    (a : Action) (loops : Nat) {desk : Desk σ} (hdesk : P desk.host) :
    P (a.invoke registry loops desk).2.host := by
  have hupheld : Frame.Upheld (Frame.On registry P) := fun _ hf o => hf.perform hP o
  have hrun := exec_keeps hupheld loops a.code
    ⟨{ registry, constants := a.constants, failures := a.failures, desk },
      Array.replicate a.slots undefined⟩ ⟨rfl, hdesk⟩
  unfold Action.invoke
  simp only
  split <;> rename_i hexec <;> rw [hexec] at hrun <;> exact hrun.host

end Code

/-! ## Keyboards -/

namespace Keyboard

/-- Every built-in function and every new binding keep a property of the state of the host and of
the compiled actions. -/
structure Upheld (setup : Setup σ) (P : σ → Table Compiled → Prop) : Prop where
  call : ∀ actions, setup.registry.Keeps (P · actions)
  bind : ∀ {state actions}, P state actions → ∀ c : Compiled,
    P (setup.host.register (normalize c.source) state) (actions.insert (normalize c.source) c)

/-- A property of the state of the host and of the compiled actions, said of a keyboard. -/
def Has (P : σ → Table Compiled → Prop) (k : Keyboard σ) : Prop :=
  P k.host k.actions

variable {setup : Setup σ} {P : σ → Table Compiled → Prop} {k : Keyboard σ}

theorem compile_keeps (s : Stmt) (hk : k.Has P) : (k.compile setup s).2.Has P := by
  unfold compile
  split
  · exact hk
  · exact hk

theorem bind_keeps (hP : Upheld setup P) (hotkey : String) (action : Stmt) (hk : k.Has P) :
    (k.bind setup hotkey action).2.Has P := by
  have hcompile : (k.compile setup action).2.Has P := compile_keeps action hk
  unfold bind
  split
  · rename_i hrun
    rw [hrun] at hcompile
    exact hcompile
  · rename_i compiled k' hrun
    rw [hrun] at hcompile
    exact hP.bind hcompile ⟨hotkey, compiled⟩

theorem compileStatement_keeps (hP : Upheld setup P) (s : Stmt) (report : Report) (hk : k.Has P) :
    (k.compileStatement setup s report).2.Has P := by
  cases s with
  | bind hotkey action line =>
      have hbind := bind_keeps hP (((Stmt.bind hotkey action line).hotkeyText?).getD "") action hk
      simp only [compileStatement]
      split <;> rename_i hrun <;> rw [hrun] at hbind <;> exact hbind
  | _ => exact hk

/-- Binding the bindings among some statements keeps what is upheld. -/
theorem compileAll_keeps (hP : Upheld setup P) (ss : List Stmt) (hk : k.Has P) :
    (k.compileAll setup ss).2.Has P := by
  unfold compileAll
  generalize ({} : Report) = report
  induction ss generalizing report k with
  | nil => exact hk
  | cons s ss ih => exact ih (compileStatement_keeps hP s report hk) _

/-- Running an action only calls built-in functions. -/
theorem run_keeps (hcall : ∀ actions, setup.registry.Keeps (P · actions)) (a : Action)
    (hk : k.Has P) : (k.run setup a).2.Has P :=
  a.invoke_keeps (hcall k.actions) setup.limits.loops hk

theorem invoke_keeps (hcall : ∀ actions, setup.registry.Keeps (P · actions)) (hotkey : String)
    (hk : k.Has P) : (k.invoke setup hotkey).2.Has P := by
  unfold invoke
  simp only
  split
  · exact hk
  · exact run_keeps hcall _ hk

theorem trigger_keeps (hcall : ∀ actions, setup.registry.Keeps (P · actions)) (hotkey : String)
    (hk : k.Has P) : (k.trigger setup hotkey).2.Has P := by
  have hinvoke := invoke_keeps hcall hotkey hk
  unfold trigger
  split
  · rename_i hrun
    rw [hrun] at hinvoke
    exact hinvoke
  · exact hinvoke

end Keyboard

end Native
end Chord
