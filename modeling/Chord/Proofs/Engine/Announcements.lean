import Chord.Host.Desktop
import Chord.Library.Standard
import Chord.Proofs.Engine.Invariants
import Chord.Proofs.Table
import Mathlib.Data.List.Induction

/-!
# Announced hotkeys

A desktop lists the hotkeys that are announced to it. An engine announces a hotkey with every
binding, and withdraws it with every binding that is removed. Its two back ends know nothing of each
other: if both bind a hotkey, then removing one of the bindings withdraws the hotkey altogether.

**Input.** A fresh engine on a fresh desktop, and any sequence of operations.

**Algorithm.** The `Standing` of a hotkey tells whether it is announced and which back ends bind it.
An operation that binds the hotkey leaves it bound and announced, one that unbinds it withdraws it
from one back end, and any other one leaves the standing as it is (`Operation.perform_standing`).
The sequence is followed operation by operation.

**Results.** `announced_iff`: a hotkey is announced exactly if a back end binds it, unless it is
`Orphaned`: an unbinding took it from one back end while the other one bound it too, and it has
neither been bound nor unbound since. Binding it again announces it again.
-/

namespace Chord

/-! ## Services and announcements -/

/-- Every service that built-in functions ask for keeps a property of the state of the host. -/
structure Host.Keeps {σ : Type} (host : Host σ) (P : σ → Prop) : Prop where
  clipboardGet : ∀ s, P s → P (host.clipboardGet s).2
  clipboardSet : ∀ text s, P s → P (host.clipboardSet text s).2
  sendKeys : ∀ text s, P s → P (host.sendKeys text s).2
  focusWindow : ∀ title s, P s → P (host.focusWindow title s).2
  nextWindow : ∀ s, P s → P (host.nextWindow s).2
  prevWindow : ∀ s, P s → P (host.prevWindow s).2
  listWindows : ∀ s, P s → P (host.listWindows s).2
  sleep : ∀ ms s, P s → P (host.sleep ms s).2
  log : ∀ message s, P s → P (host.log message s)

namespace Registry

variable {σ : Type} {P : σ → Prop}

theorem Keeps.empty : (empty : Registry σ).Keeps P := by
  intro id b h
  cases h

theorem Keeps.register {r : Registry σ} (h : r.Keeps P) {module name : String} {arity : Nat}
    {body : List Value → σ → Effect σ} (hbody : ∀ args s, P s → P (body args s).state) :
    (r.register module name arity body).Keeps P := by
  intro id b hget args s hs
  have hbuiltin : (r.builtins.push ⟨r.builtins.size, module, name, arity, body⟩)[id]? = some b :=
    hget
  rw [Array.getElem?_push] at hbuiltin
  split at hbuiltin
  · cases hbuiltin
    unfold Builtin.call
    split
    · exact hbody args s hs
    · exact hs
  · exact h hbuiltin args s hs

theorem ask_keeps {α : Type} (answer : α → Value) {service : Service σ α}
    (hservice : ∀ s, P s → P (service s).2) (s : σ) (hs : P s) :
    P (Library.ask answer service s).state := by
  have hafter := hservice s hs
  unfold Library.ask
  split
  · rename_i hrun
    rw [hrun] at hafter
    exact hafter
  · rename_i hrun
    rw [hrun] at hafter
    exact hafter

/-- The standard functions keep what the services of their host keep. -/
theorem standard_keeps {host : Host σ} (h : host.Keeps P) : (standard host).Keeps P :=
  Keeps.empty
    |>.register (fun _ => ask_keeps _ h.clipboardGet)
    |>.register (fun _ => ask_keeps _ h.clipboardGet)
    |>.register (fun _ => ask_keeps _ (h.clipboardSet _))
    |>.register (fun _ _ hs => hs)
    |>.register (fun _ _ hs => hs)
    |>.register (fun _ _ hs => hs)
    |>.register (fun _ _ hs => hs)
    |>.register (fun _ _ hs => hs)
    |>.register (fun _ _ hs => hs)
    |>.register (fun _ => ask_keeps _ (h.focusWindow _))
    |>.register (fun _ => ask_keeps _ h.nextWindow)
    |>.register (fun _ => ask_keeps _ h.prevWindow)
    |>.register (fun _ => ask_keeps _ h.listWindows)
    |>.register (fun _ => ask_keeps _ (h.sleep _))
    |>.register (fun _ => h.log _)
    |>.register (fun _ => ask_keeps _ (h.sendKeys _))

end Registry

namespace Desktop

theorem cycle_registered (places : Nat) (d : Desktop) :
    (d.cycle places).registered = d.registered := by
  unfold cycle
  split
  · rfl
  · rfl

theorem focusWindow_registered (title : String) (d : Desktop) :
    (host.focusWindow title d).2.registered = d.registered := by
  simp only [host]
  split
  · rfl
  · rfl

/-- No service but the two for that announces or withdraws a hotkey. -/
theorem host_keeps (Q : List String → Prop) : host.Keeps fun d => Q d.registered where
  clipboardGet := fun _ h => h
  clipboardSet := fun _ _ h => h
  sendKeys := fun _ _ h => h
  focusWindow := fun title d h => (focusWindow_registered title d).symm ▸ h
  nextWindow := fun d h => (cycle_registered _ d).symm ▸ h
  prevWindow := fun d h => (cycle_registered _ d).symm ▸ h
  listWindows := fun _ h => h
  sleep := fun _ _ h => h
  log := fun _ _ h => h

/-- The standard functions on a desktop in memory. -/
def setup (limits : Limits) : Setup Desktop :=
  ⟨host, .standard host, limits⟩

end Desktop

/-! ## Standings -/

/-- How a hotkey stands. -/
structure Standing where
  /-- Whether the host lists it. -/
  announced : Bool
  /-- Whether the interpreter binds it. -/
  interpreted : Bool
  /-- Whether there is a compiled action for it. -/
  compiled : Bool
deriving DecidableEq

namespace Standing

/-- A back end binds the hotkey. -/
def Bound (s : Standing) : Prop :=
  s.interpreted = true ∨ s.compiled = true

/-- If the hotkey was bound in between, it is bound and announced; otherwise nothing has changed. -/
structure Follows (s : Standing) (binds : Prop) (s' : Standing) : Prop where
  bound : binds → s'.announced = true ∧ s'.Bound
  same : ¬binds → s' = s

/-- The binding of one back end was removed. -/
inductive Withdrawn : Standing → Standing → Prop
  | interpreted {announced compiled} :
      Withdrawn ⟨announced, true, compiled⟩ ⟨false, false, compiled⟩
  | compiled {announced interpreted} :
      Withdrawn ⟨announced, interpreted, true⟩ ⟨false, interpreted, false⟩

/-- One back end binds the hotkey, and the host does not list it. -/
def Silent (s : Standing) : Prop :=
  s = ⟨false, true, false⟩ ∨ s = ⟨false, false, true⟩

/-- Removing one of two bindings leaves the other one without an announcement. -/
theorem Withdrawn.silent {s s' : Standing} (h : s.Withdrawn s')
    (hinterpreted : s.interpreted = true) (hcompiled : s.compiled = true) : s'.Silent := by
  cases h with
  | interpreted =>
      obtain rfl := hcompiled
      exact .inr rfl
  | compiled =>
      obtain rfl := hinterpreted
      exact .inl rfl

end Standing

/-- The standing of a hotkey with announcements, bindings and compiled actions. -/
def standingIn (key : String) (registered : List String) (bindings : Table Binding)
    (actions : Table Native.Compiled) : Standing where
  announced := decide (key ∈ registered)
  interpreted := decide (key ∈ bindings.keys)
  compiled := decide (key ∈ actions.keys)

/-- A hotkey is bound by one of the back ends and announced. -/
theorem Standing.Follows.bind {s : Standing} {keys : List String} {key other : String}
    {registered : List String} {bindings bindings' : Table Binding}
    {actions actions' : Table Native.Compiled}
    (h : s.Follows (key ∈ keys) (standingIn key registered bindings actions))
    (hbindings : key ≠ other → (key ∈ bindings'.keys ↔ key ∈ bindings.keys))
    (hactions : key ≠ other → (key ∈ actions'.keys ↔ key ∈ actions.keys))
    (hbound : other ∈ bindings'.keys ∨ other ∈ actions'.keys) :
    s.Follows (key ∈ keys ++ [other])
      (standingIn key (registered ++ [other]) bindings' actions') := by
  by_cases hkey : key = other
  · subst hkey
    refine ⟨fun _ => ⟨by simp [standingIn], ?_⟩, fun hnot => absurd (by simp) hnot⟩
    simpa [Standing.Bound, standingIn] using hbound
  · have hkeys : key ∈ keys ++ [other] ↔ key ∈ keys := by simp [hkey]
    rw [hkeys]
    simpa [standingIn, hkey, hbindings hkey, hactions hkey] using h

section Withdrawal

variable {key other : String} {registered : List String} {bindings : Table Binding}
  {actions : Table Native.Compiled}

/-- The interpreter gives up a hotkey. -/
theorem withdrawn_erase_bindings (h : key ∈ bindings.keys) :
    (standingIn key registered bindings actions).Withdrawn
      (standingIn key (registered.filter (· != key)) (bindings.erase key) actions) := by
  simp only [standingIn, Table.mem_keys_erase, h]
  simpa using Standing.Withdrawn.interpreted

/-- The compiled action of a hotkey is released. -/
theorem withdrawn_erase_actions (h : key ∈ actions.keys) :
    (standingIn key registered bindings actions).Withdrawn
      (standingIn key (registered.filter (· != key)) bindings (actions.erase key)) := by
  simp only [standingIn, Table.mem_keys_erase, h]
  simpa using Standing.Withdrawn.compiled

/-- Another hotkey is given up. -/
theorem standingIn_erase_of_ne (hne : key ≠ other) :
    standingIn key (registered.filter (· != other)) (bindings.erase other) actions =
        standingIn key registered bindings actions ∧
      standingIn key (registered.filter (· != other)) bindings (actions.erase other) =
        standingIn key registered bindings actions := by
  simp [standingIn, Table.mem_keys_erase, hne]

end Withdrawal

namespace Engine

/-- The standing of a hotkey in an engine. -/
def standing (key : String) (e : Engine Desktop) : Standing :=
  standingIn key e.host.registered e.bindings e.actions

/-! ## One operation -/

/-- Built-in functions leave a standing as it was, and new bindings leave theirs bound and
announced. -/
theorem upheld_follows (limits : Limits) (s : Standing) (key : String) :
    Upheld (Desktop.setup limits) fun keys d bindings actions =>
      s.Follows (key ∈ keys) (standingIn key d.registered bindings actions) where
  call := fun keys bindings actions => Registry.standard_keeps (Desktop.host_keeps fun registered =>
    s.Follows (key ∈ keys) (standingIn key registered bindings actions))
  interpreted := by
    intro keys d bindings actions h b
    refine h.bind (fun hkey => ?_) (fun _ => .rfl) (.inl ?_)
    · simp [Table.mem_keys_insert, hkey]
    · simp [Table.mem_keys_insert]
  compiled := by
    intro keys d bindings actions h c
    refine h.bind (fun _ => .rfl) (fun hkey => ?_) (.inr ?_)
    · simp [Table.mem_keys_insert, hkey]
    · simp [Table.mem_keys_insert]

/-- What an operation binds is what it announces. -/
theorem Operation.registered_perform (limits : Limits) {op : Operation}
    (hop : ∀ hotkey, op ≠ .unbind hotkey) (e : Engine Desktop) :
    (op.perform (Desktop.setup limits) e).host.registered =
      e.host.registered ++ op.binds (Desktop.setup limits) e := by
  have hupheld : Upheld (Desktop.setup limits) fun keys d _ _ =>
      d.registered = e.host.registered ++ keys := by
    refine ⟨fun keys _ _ => ?_, fun h b => ?_, fun h c => ?_⟩
    · exact Registry.standard_keeps (Desktop.host_keeps (· = e.host.registered ++ keys))
    · exact (congrArg (· ++ [b.key]) h).trans (List.append_assoc _ _ _)
    · exact (congrArg (· ++ [c.key]) h).trans (List.append_assoc _ _ _)
  have hstart : e.Has (fun keys d _ _ => d.registered = e.host.registered ++ keys) [] :=
    (List.append_nil _).symm
  exact perform_keeps hupheld hop hstart

/-- An operation removes the binding of a hotkey from the back end that it works in. -/
def Operation.Unbinds {σ : Type} (setup : Setup σ) (key : String) (e : Engine σ)
    (op : Operation) : Prop :=
  ∃ hotkey, op = .unbind hotkey ∧ normalize hotkey = key ∧ (e.unbind setup hotkey).1 = true

/-- What an operation does to the standing of a hotkey. -/
structure Operation.Treats (limits : Limits) (key : String) (e : Engine Desktop) (op : Operation) :
    Prop where
  binds : key ∈ op.binds (Desktop.setup limits) e →
    ((op.perform (Desktop.setup limits) e).standing key).announced = true ∧
      ((op.perform (Desktop.setup limits) e).standing key).Bound
  unbinds : op.Unbinds (Desktop.setup limits) key e →
    (e.standing key).Withdrawn ((op.perform (Desktop.setup limits) e).standing key)
  neither : key ∉ op.binds (Desktop.setup limits) e → ¬op.Unbinds (Desktop.setup limits) key e →
    (op.perform (Desktop.setup limits) e).standing key = e.standing key

/-- A back end that binds a hotkey gives it up, and all other standings stay. -/
theorem unbind_standing (limits : Limits) (hotkey key : String) (e : Engine Desktop) :
    let unbound := e.unbind (Desktop.setup limits) hotkey
    (normalize hotkey = key → unbound.1 = true →
      (e.standing key).Withdrawn (unbound.2.standing key)) ∧
    (¬(normalize hotkey = key ∧ unbound.1 = true) →
      unbound.2.standing key = e.standing key) := by
  unfold unbind
  split
  · unfold Machine.unbind
    simp only
    split
    · rename_i hbound
      refine ⟨?_, fun hnot => (standingIn_erase_of_ne ?_).left⟩
      · rintro rfl -
        exact withdrawn_erase_bindings (Table.contains_iff_mem_keys.1 hbound)
      · rintro rfl
        exact hnot ⟨rfl, rfl⟩
    · exact ⟨fun _ => nofun, fun _ => rfl⟩
  · unfold Native.Keyboard.unbind
    simp only
    split
    · rename_i hbound
      refine ⟨?_, fun hnot => (standingIn_erase_of_ne ?_).right⟩
      · rintro rfl -
        exact withdrawn_erase_actions (Table.contains_iff_mem_keys.1 hbound)
      · rintro rfl
        exact hnot ⟨rfl, rfl⟩
    · exact ⟨fun _ => nofun, fun _ => rfl⟩

/-- **What one operation does to a hotkey.** -/
theorem Operation.perform_standing (limits : Limits) (op : Operation) (key : String)
    (e : Engine Desktop) : op.Treats limits key e := by
  by_cases hop : ∃ hotkey, op = .unbind hotkey
  · obtain ⟨hotkey, rfl⟩ := hop
    obtain ⟨hwithdrawn, hsame⟩ := unbind_standing limits hotkey key e
    refine ⟨nofun, ?_, fun _ hnot => hsame fun h => hnot ⟨hotkey, rfl, h⟩⟩
    rintro ⟨_, ⟨⟩, hkey, hremoved⟩
    exact hwithdrawn hkey hremoved
  · have hstart : (e.standing key).Follows (key ∈ ([] : List String)) (e.standing key) :=
      ⟨nofun, fun _ => rfl⟩
    have hfollows : (e.standing key).Follows (key ∈ op.binds (Desktop.setup limits) e)
        ((op.perform (Desktop.setup limits) e).standing key) :=
      perform_keeps (upheld_follows limits (e.standing key) key) (not_exists.1 hop) hstart
    refine ⟨hfollows.bound, ?_, fun hbinds _ => hfollows.same hbinds⟩
    rintro ⟨hotkey, hunbind, -⟩
    exact absurd ⟨hotkey, hunbind⟩ hop

/-! ## Sequences of operations -/

/-- An unbinding took the hotkey from one back end while the other one bound it too, and no
operation since then has bound or unbound it. -/
def Orphaned {σ : Type} (setup : Setup σ) (e : Engine σ) (ops : List Operation) (key : String) :
    Prop :=
  ∃ before hotkey after, ops = before ++ .unbind hotkey :: after ∧ normalize hotkey = key ∧
    key ∈ (performAll setup before e).toMachine.boundKeys ∧
    key ∈ (performAll setup before e).keyboard.boundKeys ∧
    ∀ earlier op later, after = earlier ++ op :: later →
      let now := performAll setup (before ++ .unbind hotkey :: earlier) e
      key ∉ op.binds setup now ∧ ¬op.Unbinds setup key now

section Sequences

variable {limits : Limits} {e : Engine Desktop} {ops : List Operation} {op : Operation}
  {key : String}

/-- A hotkey that both back ends bind can be unbound in every mode. -/
theorem unbind_of_bound {σ : Type} (setup : Setup σ) {hotkey : String} {e : Engine σ}
    (hinterpreted : normalize hotkey ∈ e.toMachine.boundKeys)
    (hcompiled : normalize hotkey ∈ e.keyboard.boundKeys) : (e.unbind setup hotkey).1 = true := by
  have hbindings : e.toMachine.bindings.contains (normalize hotkey) = true :=
    Table.contains_iff_mem_keys.2 hinterpreted
  have hactions : e.keyboard.actions.contains (normalize hotkey) = true :=
    Table.contains_iff_mem_keys.2 hcompiled
  unfold unbind
  split
  · simp only [Machine.unbind, hbindings, if_true]
  · simp only [Native.Keyboard.unbind, hactions, if_true]

/-- An orphaned hotkey is bound by one of the back ends, without an announcement. -/
theorem Orphaned.silent (h : Orphaned (Desktop.setup limits) e ops key) :
    ((performAll (Desktop.setup limits) ops e).standing key).Silent := by
  obtain ⟨before, hotkey, after, rfl, hkey, hinterpreted, hcompiled, hsince⟩ := h
  induction after using List.reverseRecOn with
  | nil =>
      rw [performAll_concat]
      have hremoved := unbind_of_bound (Desktop.setup limits) (hkey ▸ hinterpreted)
        (hkey ▸ hcompiled)
      have hwithdrawn := (Operation.perform_standing limits (.unbind hotkey) key _).unbinds
        ⟨hotkey, rfl, hkey, hremoved⟩
      exact hwithdrawn.silent (decide_eq_true hinterpreted) (decide_eq_true hcompiled)
  | append_singleton after op ih =>
      have hbefore := ih fun earlier op' later hafter =>
        hsince earlier op' (later ++ [op]) (by simp [hafter])
      obtain ⟨hbinds, hunbinds⟩ := hsince after op [] rfl
      rw [← List.cons_append, ← List.append_assoc, performAll_concat,
        (op.perform_standing limits key _).neither hbinds hunbinds]
      exact hbefore

/-- A hotkey stays orphaned while it is neither bound nor unbound. -/
theorem Orphaned.concat {setup : Setup Desktop} (h : Orphaned setup e ops key)
    (hbinds : key ∉ op.binds setup (performAll setup ops e))
    (hunbinds : ¬op.Unbinds setup key (performAll setup ops e)) :
    Orphaned setup e (ops ++ [op]) key := by
  obtain ⟨before, hotkey, after, rfl, hkey, hinterpreted, hcompiled, hsince⟩ := h
  refine ⟨before, hotkey, after ++ [op], by simp, hkey, hinterpreted, hcompiled, ?_⟩
  intro earlier op' later hafter
  rcases List.eq_nil_or_concat later with rfl | ⟨later', last, rfl⟩
  · obtain ⟨rfl, ⟨⟩⟩ := List.append_inj' hafter rfl
    exact ⟨hbinds, hunbinds⟩
  · have hsplit : after ++ [op] = (earlier ++ op' :: later') ++ [last] := by simpa using hafter
    exact hsince earlier op' later' (List.append_inj' hsplit rfl).left

/-- The last operation took a hotkey from one back end while the other one bound it too. -/
theorem orphaned_concat_unbind {setup : Setup Desktop} {hotkey : String}
    (hkey : normalize hotkey = key)
    (hinterpreted : key ∈ (performAll setup ops e).toMachine.boundKeys)
    (hcompiled : key ∈ (performAll setup ops e).keyboard.boundKeys) :
    Orphaned setup e (ops ++ [.unbind hotkey]) key :=
  ⟨ops, hotkey, [], rfl, hkey, hinterpreted, hcompiled, fun earlier op later hafter => by
    simp at hafter⟩

/-- What can be said of a hotkey after any operations. -/
structure Tracked (setup : Setup Desktop) (e : Engine Desktop) (ops : List Operation)
    (key : String) : Prop where
  bound : ((performAll setup ops e).standing key).announced = true →
    ((performAll setup ops e).standing key).Bound
  announced : ((performAll setup ops e).standing key).Bound →
    ((performAll setup ops e).standing key).announced = true ∨ Orphaned setup e ops key

theorem tracked_start (setup : Setup Desktop) (mode : Mode) (clipboard : String)
    (windows : List String) (key : String) :
    Tracked setup (start mode (.fresh clipboard windows)) [] key where
  bound := nofun
  announced := by
    rintro (h | h)
    · cases h
    · cases h

theorem Tracked.concat (h : Tracked (Desktop.setup limits) e ops key) (op : Operation) :
    Tracked (Desktop.setup limits) e (ops ++ [op]) key := by
  have htreats := op.perform_standing limits key (performAll (Desktop.setup limits) ops e)
  by_cases hbinds : key ∈ op.binds (Desktop.setup limits) (performAll (Desktop.setup limits) ops e)
  · obtain ⟨hannounced, hbound⟩ := htreats.binds hbinds
    rw [← performAll_concat] at hannounced hbound
    exact ⟨fun _ => hbound, fun _ => .inl hannounced⟩
  by_cases hunbinds :
      op.Unbinds (Desktop.setup limits) key (performAll (Desktop.setup limits) ops e)
  · have hwithdrawn := htreats.unbinds hunbinds
    rw [← performAll_concat] at hwithdrawn
    obtain ⟨hotkey, rfl, hkey, -⟩ := hunbinds
    generalize hs : (performAll (Desktop.setup limits) ops e).standing key = s at hwithdrawn
    generalize hs' : (performAll (Desktop.setup limits) (ops ++ [.unbind hotkey]) e).standing key =
      s' at hwithdrawn
    refine ⟨?_, fun hbound => .inr ?_⟩
    · rw [hs']
      cases hwithdrawn <;> nofun
    · -- Something is left of the bindings only where there were two of them.
      rw [hs'] at hbound
      cases hwithdrawn with
      | interpreted =>
          obtain rfl := hbound.resolve_left nofun
          exact orphaned_concat_unbind hkey (of_decide_eq_true (congrArg Standing.interpreted hs))
            (of_decide_eq_true (congrArg Standing.compiled hs))
      | compiled =>
          obtain rfl := hbound.resolve_right nofun
          exact orphaned_concat_unbind hkey (of_decide_eq_true (congrArg Standing.interpreted hs))
            (of_decide_eq_true (congrArg Standing.compiled hs))
  · have hsame := htreats.neither hbinds hunbinds
    rw [← performAll_concat] at hsame
    refine ⟨?_, ?_⟩
    · rw [hsame]
      exact h.bound
    · rw [hsame]
      exact fun hbound => (h.announced hbound).imp_right (·.concat hbinds hunbinds)

theorem Tracked.append (h : Tracked (Desktop.setup limits) e ops key) (more : List Operation) :
    Tracked (Desktop.setup limits) e (ops ++ more) key := by
  induction more generalizing ops with
  | nil => rwa [List.append_nil]
  | cons op more ih =>
      rw [List.append_cons]
      exact ih (h.concat op)

end Sequences

/-- **Announcements follow the bindings** of a fresh engine on a fresh desktop, whatever it is asked
to do: a hotkey is announced exactly if a back end binds it, unless it is orphaned. An orphaned
hotkey is bound by one of the back ends only, and an operation that binds it again announces it
again. -/
theorem announced_iff (mode : Mode) (clipboard : String) (windows : List String) (limits : Limits)
    (ops : List Operation) (key : String) :
    let setup := Desktop.setup limits
    let fresh := start mode (.fresh clipboard windows)
    let e := performAll setup ops fresh
    (key ∈ e.host.registered ↔
      (key ∈ e.toMachine.boundKeys ∨ key ∈ e.keyboard.boundKeys) ∧
        ¬Orphaned setup fresh ops key) ∧
    (Orphaned setup fresh ops key →
      (key ∈ e.toMachine.boundKeys ↔ key ∉ e.keyboard.boundKeys)) ∧
    ∀ op : Operation, key ∈ op.binds setup e → key ∈ (op.perform setup e).host.registered := by
  intro setup fresh e
  obtain ⟨hbound, hannounced⟩ := (tracked_start setup mode clipboard windows key).append ops
  have hregistered : ∀ e' : Engine Desktop,
      (e'.standing key).announced = true ↔ key ∈ e'.host.registered :=
    fun _ => decide_eq_true_iff
  have hinterpreted : (e.standing key).interpreted = true ↔ key ∈ e.toMachine.boundKeys :=
    decide_eq_true_iff
  have hcompiled : (e.standing key).compiled = true ↔ key ∈ e.keyboard.boundKeys :=
    decide_eq_true_iff
  refine ⟨?_, fun horphaned => ?_, fun op hbinds => ?_⟩
  · rw [← hregistered, ← hinterpreted, ← hcompiled]
    constructor
    · intro h
      refine ⟨hbound h, fun horphaned => ?_⟩
      rcases horphaned.silent with hnow | hnow
      · rw [hnow] at h
        cases h
      · rw [hnow] at h
        cases h
    · rintro ⟨h, horphaned⟩
      exact (hannounced h).resolve_right horphaned
  · rw [← hinterpreted, ← hcompiled]
    rcases horphaned.silent with hnow | hnow
    · rw [hnow]
      decide
    · rw [hnow]
      decide
  · rw [← hregistered]
    exact ((op.perform_standing limits key e).binds hbinds).left

/-- A hotkey that is bound by the interpreter, then compiled as well, and then unbound once. -/
def boundTwice : List Operation := [
  .register "F1 => \x7b\x7d", .setMode .jit, .register "F1 => \x7b\x7d", .unbind "F1",
  .setMode .interpreter]

theorem boundTwice_unannounced :
    let e := performAll (Desktop.setup ⟨256, 10⟩) boundTwice (start .interpreter (.fresh "" []))
    "F1" ∈ e.toMachine.boundKeys ∧ "F1" ∉ e.host.registered := by
  decide +kernel

/-- The hotkey is orphaned, and announced again once the interpreter binds it again. -/
theorem boundTwice_announced_again :
    let setup := Desktop.setup ⟨256, 10⟩
    let fresh := start .interpreter (.fresh "" [])
    let e := performAll setup boundTwice fresh
    let again : Operation := .execute "F1 => \x7b\x7d"
    Orphaned setup fresh boundTwice "F1" ∧ "F1" ∉ e.host.registered ∧
      again.binds setup e = ["F1"] ∧ "F1" ∈ (again.perform setup e).host.registered := by
  have hall := announced_iff .interpreter "" [] ⟨256, 10⟩ boundTwice "F1"
  -- Without the abbreviations no two engines have to be compared by running them.
  dsimp only at hall ⊢
  obtain ⟨hiff, -, hagain⟩ := hall
  refine ⟨?_, by decide +kernel, by decide +kernel, hagain _ (by decide +kernel)⟩
  by_contra hnot
  have hlisted := hiff.2 ⟨.inl (by decide +kernel), hnot⟩
  revert hlisted
  decide +kernel

end Engine

end Chord
