import Chord.Engine.Basic
import Chord.Host.Desktop
import Chord.Library.Standard
import Chord.Proofs.Native.Equivalence
import Chord.Proofs.Script.Reading
import Chord.Proofs.Table

/-!
# Execution modes agree

**Input.** A script of bindings whose actions can all be compiled.

**Algorithm.** An `Outline` is what an engine looks like in every mode: the state of the host and
the bound actions. `Engine.Shows` relates an engine to its outline. Registering a script and every
later request take an engine and its outline to an engine and its outline, with the same answer.

**Results.** `modes_agree`: engines in any two modes register the same hotkeys and then give the
same answers to any list of requests, with the same hotkeys bound and the same state of the host
after each of them.
-/

namespace Chord

open Eval

variable {σ : Type}

/-! ## Requests -/

/-- What can be asked of an engine whose script is registered. The last one comes from outside. -/
inductive Request where
  | trigger (hotkey : String)
  | invoke (hotkey : String)
  | unbind (hotkey : String)
  | clipboard (text : String)

/-- What comes back from a request. -/
inductive Answer where
  | ran (outcome : Option (Except Stop Value))
  | removed (found : Bool)
  | written (result : Except Fault Unit)

namespace Engine

/-- Serves a request. -/
def respond (setup : Setup σ) : Request → Engine σ → Answer × Engine σ
  | .trigger hotkey, e =>
      let (outcome, e) := e.trigger setup hotkey
      (.ran outcome, e)
  | .invoke hotkey, e =>
      let (outcome, e) := e.invoke setup hotkey
      (.ran outcome, e)
  | .unbind hotkey, e =>
      let (found, e) := e.unbind setup hotkey
      (.removed found, e)
  | .clipboard text, e =>
      let (result, state) := setup.host.clipboardSet text e.host
      (.written result, { e with host := state })

/-- Serves requests one after another. Each answer comes with the hotkeys bound and the state of the
host after it. -/
def session (setup : Setup σ) : List Request → Engine σ → List (Answer × List String × σ)
  | [], _ => []
  | request :: rest, e =>
      let (answer, e) := e.respond setup request
      (answer, e.boundKeys, e.host) :: session setup rest e

end Engine

/-! ## Outlines -/

/-- An engine as it looks in every mode. -/
structure Outline (σ : Type) where
  host : σ
  /-- The bound actions by canonical hotkey. -/
  actions : Table Stmt

namespace Outline

variable (setup : Setup σ)

/-- Binds an action to a hotkey. -/
def bind (hotkey : String) (action : Stmt) (o : Outline σ) : Outline σ :=
  { host := setup.host.register (normalize hotkey) o.host
    actions := o.actions.insert (normalize hotkey) action }

/-- Binds the actions of statements that are bindings of literal hotkeys. -/
def bindAll : List Stmt → Outline σ → Outline σ
  | [], o => o
  | s :: rest, o =>
      match s with
      | .bind (.hotkey text) action _ => bindAll rest (o.bind setup text action)
      | _ => bindAll rest o

/-- Interprets the action bound to a hotkey, if there is one. -/
def invoke (hotkey : String) (o : Outline σ) : Option (Except Stop Value) × Outline σ :=
  match o.actions.get? (normalize hotkey) with
  | none => (none, o)
  | some s =>
      let (result, r) := evaluateStatement setup s ⟨.empty, { host := o.host }⟩
      (some result, { o with host := r.machine.host })

/-- What a trigger makes of an invocation: a fault is noted and gives null. -/
def softened {X : Type} (note : Fault → X → X) :
    Option (Except Stop Value) × X → Option (Except Stop Value) × X
  | (some (.error (.fault cause)), x) => (some (.ok .null), note cause x)
  | outcome => outcome

/-- Interprets the action bound to a hotkey, where a fault gives null. -/
def trigger (hotkey : String) (o : Outline σ) : Option (Except Stop Value) × Outline σ :=
  softened (fun _ o => o) (o.invoke setup hotkey)

/-- Removes a binding; tells whether there was one. -/
def unbind (hotkey : String) (o : Outline σ) : Bool × Outline σ :=
  if o.actions.contains (normalize hotkey) then
    (true,
      { host := setup.host.unregister (normalize hotkey) o.host
        actions := o.actions.erase (normalize hotkey) })
  else (false, o)

/-- Serves a request. -/
def respond : Request → Outline σ → Answer × Outline σ
  | .trigger hotkey, o => (.ran (o.trigger setup hotkey).1, (o.trigger setup hotkey).2)
  | .invoke hotkey, o => (.ran (o.invoke setup hotkey).1, (o.invoke setup hotkey).2)
  | .unbind hotkey, o => (.removed (o.unbind setup hotkey).1, (o.unbind setup hotkey).2)
  | .clipboard text, o =>
      let (result, state) := setup.host.clipboardSet text o.host
      (.written result, { o with host := state })

/-- Serves requests one after another, as an engine does. -/
def session : List Request → Outline σ → List (Answer × List String × σ)
  | [], _ => []
  | request :: rest, o =>
      let (answer, o) := o.respond setup request
      (answer, o.actions.keys, o.host) :: session rest o

end Outline

/-! ## Back ends and their outlines -/

/-- A back end and its outline end with one answer, and the first still shows the second. -/
structure Agree {X α : Type} (Shows : X → Outline σ → Prop) (ended : α × X)
    (ended' : α × Outline σ) : Prop where
  answer : ended.1 = ended'.1
  shown : Shows ended.2 ended'.2

/-- A note about a fault does not matter. -/
theorem Agree.softened {X : Type} {Shows : X → Outline σ → Prop}
    {ended : Option (Except Stop Value) × X} {ended' : Option (Except Stop Value) × Outline σ}
    (h : Agree Shows ended ended') {note : Fault → X → X}
    (hnote : ∀ cause x o, Shows x o → Shows (note cause x) o) :
    Agree Shows (Outline.softened note ended) (Outline.softened (fun _ o => o) ended') := by
  obtain ⟨result, x⟩ := ended
  obtain ⟨result', o⟩ := ended'
  obtain rfl : result = result' := h.answer
  rcases result with _ | (_ | _) | _
  · exact ⟨rfl, h.shown⟩
  · exact ⟨rfl, hnote _ x o h.shown⟩
  · exact ⟨rfl, h.shown⟩
  · exact ⟨rfl, h.shown⟩

namespace Outline

/-- What a back end consists of, as an outline says: the state of the host, and an entry for every
action. -/
structure Fits {α : Type} (Holds : α → Stmt → Prop) (o : Outline σ) (state : σ)
    (entries : Table α) : Prop where
  host : state = o.host
  entries : entries.Matches Holds o.actions

variable {setup : Setup σ} {X α : Type} {Holds : α → Stmt → Prop} {Shows : X → Outline σ → Prop}
  {o : Outline σ} {state : σ} {entries : Table α}

theorem Fits.bind (h : o.Fits Holds state entries) (hotkey : String) {entry : α} {action : Stmt}
    (hentry : Holds entry action) :
    (o.bind setup hotkey action).Fits Holds (setup.host.register (normalize hotkey) state)
      (entries.insert (normalize hotkey) entry) :=
  ⟨congrArg _ h.host, h.entries.insert _ hentry⟩

/-- A back end that looks the hotkey up and runs the action as the outline does agrees with it. -/
theorem Fits.invoke (h : o.Fits Holds state entries) (hotkey : String)
    {ended : Option (Except Stop Value) × X}
    (hnone : entries.get? (normalize hotkey) = none → Agree Shows ended (none, o))
    (hsome : ∀ entry s, entries.get? (normalize hotkey) = some entry → Holds entry s →
      let (result, r) := evaluateStatement setup s ⟨.empty, { host := o.host }⟩
      Agree Shows ended (some result, { o with host := r.machine.host })) :
    Agree Shows ended (o.invoke setup hotkey) := by
  unfold Outline.invoke
  rcases h.entries.get? (normalize hotkey) with ⟨hentry, ho⟩ | ⟨entry, s, hentry, ho, hholds⟩
  · rw [ho]
    exact hnone hentry
  · rw [ho]
    exact hsome entry s hentry hholds

/-- A back end that removes an entry if there is one agrees with the outline. -/
theorem Fits.unbind (h : o.Fits Holds state entries) (hotkey : String) {gone kept : X}
    (hgone : ∀ o : Outline σ, o.Fits Holds (setup.host.unregister (normalize hotkey) state)
      (entries.erase (normalize hotkey)) → Shows gone o)
    (hkept : Shows kept o) :
    Agree Shows (if entries.contains (normalize hotkey) then (true, gone) else (false, kept))
      (o.unbind setup hotkey) := by
  unfold Outline.unbind
  rw [h.entries.contains_eq]
  split
  · exact ⟨rfl, hgone _ ⟨congrArg _ h.host, h.entries.erase _⟩⟩
  · exact ⟨rfl, hkept⟩

end Outline

/-- Whether an action can be compiled. -/
def Compiles (registry : Registry σ) (s : Stmt) : Prop :=
  ∃ a, Native.compile registry s = .ok a

/-- A binding of the interpreter stands for an action: it captured no names. -/
def Binding.Holds (registry : Registry σ) (b : Binding) (s : Stmt) : Prop :=
  b.scope = .empty ∧ b.action = s ∧ Compiles registry s

/-- A compiled hotkey stands for an action. -/
def Native.Compiled.Holds (registry : Registry σ) (c : Native.Compiled) (s : Stmt) : Prop :=
  Native.compile registry s = .ok c.action

/-- Where a compiled action runs does not matter: result and host are those of a fresh interpreter,
and no binding changes. -/
theorem Compiles.evaluateStatement_eq {setup : Setup σ} {s : Stmt}
    (h : Compiles setup.registry s) (m : Machine σ) (state : σ) (hhost : m.host = state) :
    (evaluateStatement setup s ⟨.empty, m⟩).1 =
        (evaluateStatement setup s ⟨.empty, { host := state }⟩).1 ∧
      (evaluateStatement setup s ⟨.empty, m⟩).2.machine.host =
        (evaluateStatement setup s ⟨.empty, { host := state }⟩).2.machine.host ∧
      (evaluateStatement setup s ⟨.empty, m⟩).2.machine.bindings = m.bindings := by
  obtain ⟨a, ha⟩ := h
  have hm := Native.invoke_eq_evaluateStatement setup ha m m.toDesk rfl
  have hfresh := Native.invoke_eq_evaluateStatement setup ha { host := state } m.toDesk hhost.symm
  exact ⟨hm.1.trans hfresh.1.symm, hm.2.1.trans hfresh.2.1.symm, hm.2.2⟩

/-! ### The interpreter -/

namespace Machine

/-- An interpreter and its outline. -/
def Shows (setup : Setup σ) (m : Machine σ) (o : Outline σ) : Prop :=
  o.Fits (Binding.Holds setup.registry) m.host m.bindings

variable {setup : Setup σ} {m : Machine σ} {o : Outline σ}

theorem Shows.bind (h : m.Shows setup o) (hotkey : String) {action : Stmt}
    (hcompiles : Compiles setup.registry action) :
    (m.bind setup.host hotkey action .empty).Shows setup (o.bind setup hotkey action) :=
  Outline.Fits.bind h hotkey ⟨rfl, rfl, hcompiles⟩

theorem Shows.invoke (h : m.Shows setup o) (hotkey : String) :
    Agree (Shows setup) (m.invoke setup hotkey) (o.invoke setup hotkey) := by
  refine Outline.Fits.invoke h hotkey (fun hnone => ?_) fun b s hb hholds => ?_
  · unfold Machine.invoke
    simp only [hnone]
    exact ⟨rfl, h⟩
  · obtain ⟨hscope, rfl, hcompiles⟩ := hholds
    obtain ⟨hresult, hstate, hkept⟩ := hcompiles.evaluateStatement_eq
      { m.note .debug ("triggering " ++ normalize hotkey ++ " (bound as " ++ b.source ++ ")") with
        depth := 0 } o.host h.host
    unfold Machine.invoke
    simp only [hb, hscope]
    refine ⟨congrArg some hresult, hstate, ?_⟩
    rw [hkept]
    exact h.entries

theorem trigger_eq (hotkey : String) :
    m.trigger setup hotkey =
      Outline.softened (fun cause m =>
        m.note .error ("hotkey " ++ normalize hotkey ++ " failed: " ++ cause.message))
        (m.invoke setup hotkey) := by
  unfold trigger
  rcases m.invoke setup hotkey with ⟨_ | (_ | _) | _, _⟩ <;> rfl

theorem Shows.trigger (h : m.Shows setup o) (hotkey : String) :
    Agree (Shows setup) (m.trigger setup hotkey) (o.trigger setup hotkey) := by
  rw [trigger_eq]
  exact (h.invoke hotkey).softened fun _ _ _ h => h

theorem Shows.unbind (h : m.Shows setup o) (hotkey : String) :
    Agree (Shows setup) (m.unbind setup.host hotkey) (o.unbind setup hotkey) :=
  Outline.Fits.unbind h hotkey (fun _ hgone => hgone) h

end Machine

/-! ### Compiled actions -/

namespace Native.Keyboard

/-- A keyboard and its outline. -/
def Shows (setup : Setup σ) (k : Keyboard σ) (o : Outline σ) : Prop :=
  o.Fits (Compiled.Holds setup.registry) k.host k.actions

variable {setup : Setup σ} {k : Keyboard σ} {o : Outline σ}

theorem Shows.bind (h : k.Shows setup o) (hotkey : String) {action : Stmt}
    (hcompiles : Compiles setup.registry action) :
    ∃ k', k.bind setup hotkey action = (.ok (normalize hotkey), k') ∧
      k'.Shows setup (o.bind setup hotkey action) := by
  obtain ⟨a, ha⟩ := hcompiles
  unfold Keyboard.bind Keyboard.compile
  rw [ha]
  exact ⟨_, rfl, Outline.Fits.bind h hotkey ha⟩

theorem Shows.invoke (h : k.Shows setup o) (hotkey : String) :
    Agree (Shows setup) (k.invoke setup hotkey) (o.invoke setup hotkey) := by
  refine Outline.Fits.invoke h hotkey (fun hnone => ?_) fun c s hc hcompile => ?_
  · unfold Keyboard.invoke
    simp only [hnone]
    exact ⟨rfl, h⟩
  · obtain ⟨hresult, hstate, -⟩ := invoke_eq_evaluateStatement setup hcompile { host := o.host }
      (k.note .debug ("triggering " ++ normalize hotkey ++ " (bound as " ++ c.source ++ ")")).toDesk
      h.host.symm
    unfold Keyboard.invoke run
    simp only [hc]
    exact ⟨congrArg some hresult.symm, hstate.symm, h.entries⟩

theorem trigger_eq (hotkey : String) :
    k.trigger setup hotkey =
      Outline.softened (fun cause k =>
        k.note .error ("hotkey " ++ normalize hotkey ++ " failed: " ++ cause.message))
        (k.invoke setup hotkey) := by
  unfold trigger
  rcases k.invoke setup hotkey with ⟨_ | (_ | _) | _, _⟩ <;> rfl

theorem Shows.trigger (h : k.Shows setup o) (hotkey : String) :
    Agree (Shows setup) (k.trigger setup hotkey) (o.trigger setup hotkey) := by
  rw [trigger_eq]
  exact (h.invoke hotkey).softened fun _ _ _ h => h

theorem Shows.unbind (h : k.Shows setup o) (hotkey : String) :
    Agree (Shows setup) (k.unbind setup.host hotkey) (o.unbind setup hotkey) :=
  Outline.Fits.unbind h hotkey (fun _ hgone => hgone) h

end Native.Keyboard

/-! ### Engines -/

namespace Engine

/-- An engine and its outline, which the back end of the current mode shows. -/
def Shows (setup : Setup σ) (e : Engine σ) (o : Outline σ) : Prop :=
  if e.mode.isInterpreter then e.toMachine.Shows setup o else e.keyboard.Shows setup o

variable {setup : Setup σ} {e : Engine σ} {o : Outline σ}

theorem shows_iff_machine (hmode : e.mode.isInterpreter = true) :
    e.Shows setup o ↔ e.toMachine.Shows setup o := by
  unfold Shows
  rw [if_pos hmode]

theorem shows_iff_keyboard (hmode : e.mode.isInterpreter = false) :
    e.Shows setup o ↔ e.keyboard.Shows setup o := by
  unfold Shows
  rw [hmode]
  exact Iff.rfl

theorem shows_withMachine (hmode : e.mode.isInterpreter = true) {m : Machine σ}
    (h : m.Shows setup o) : (e.withMachine m).Shows setup o :=
  (shows_iff_machine (e := e.withMachine m) hmode).2 h

theorem shows_withKeyboard (hmode : e.mode.isInterpreter = false) {k : Native.Keyboard σ}
    (h : k.Shows setup o) : (e.withKeyboard k).Shows setup o :=
  (shows_iff_keyboard (e := e.withKeyboard k) hmode).2 h

theorem Shows.host (h : e.Shows setup o) : e.host = o.host := by
  cases hmode : e.mode.isInterpreter with
  | true => exact ((shows_iff_machine hmode).1 h).host
  | false => exact ((shows_iff_keyboard hmode).1 h).host

theorem Shows.boundKeys (h : e.Shows setup o) : e.boundKeys = o.actions.keys := by
  unfold Engine.boundKeys
  cases hmode : e.mode.isInterpreter with
  | true => exact ((shows_iff_machine hmode).1 h).entries.keys_eq
  | false => exact ((shows_iff_keyboard hmode).1 h).entries.keys_eq

/-- What both back ends do as the outline does, the engine does as the outline does. -/
theorem Shows.either {α : Type} (h : e.Shows setup o) {onMachine : Machine σ → α × Machine σ}
    {onKeyboard : Native.Keyboard σ → α × Native.Keyboard σ} {onOutline : Outline σ → α × Outline σ}
    (hmachine : e.toMachine.Shows setup o →
      Agree (Machine.Shows setup) (onMachine e.toMachine) (onOutline o))
    (hkeyboard : e.keyboard.Shows setup o →
      Agree (Native.Keyboard.Shows setup) (onKeyboard e.keyboard) (onOutline o)) :
    let ended :=
      if e.mode.isInterpreter then
        ((onMachine e.toMachine).1, e.withMachine (onMachine e.toMachine).2)
      else ((onKeyboard e.keyboard).1, e.withKeyboard (onKeyboard e.keyboard).2)
    Agree (Shows setup) ended (onOutline o) := by
  cases hmode : e.mode.isInterpreter with
  | true =>
      obtain ⟨hresult, hshows⟩ := hmachine ((shows_iff_machine hmode).1 h)
      exact ⟨hresult, shows_withMachine hmode hshows⟩
  | false =>
      obtain ⟨hresult, hshows⟩ := hkeyboard ((shows_iff_keyboard hmode).1 h)
      exact ⟨hresult, shows_withKeyboard hmode hshows⟩

/-- **One request**: the same answer, and the engine shows what the outline becomes. -/
theorem Shows.respond (h : e.Shows setup o) (request : Request) :
    Agree (Shows setup) (e.respond setup request) (o.respond setup request) := by
  cases request with
  | trigger hotkey =>
      obtain ⟨hresult, hshows⟩ := h.either (fun h => h.trigger hotkey) (fun h => h.trigger hotkey)
      exact ⟨congrArg Answer.ran hresult, hshows⟩
  | invoke hotkey =>
      obtain ⟨hresult, hshows⟩ := h.either (fun h => h.invoke hotkey) (fun h => h.invoke hotkey)
      exact ⟨congrArg Answer.ran hresult, hshows⟩
  | unbind hotkey =>
      obtain ⟨hresult, hshows⟩ := h.either (fun h => h.unbind hotkey) (fun h => h.unbind hotkey)
      exact ⟨congrArg Answer.removed hresult, hshows⟩
  | clipboard text =>
      refine ⟨congrArg (fun state => Answer.written (setup.host.clipboardSet text state).1) h.host,
        ?_⟩
      have hstate : (setup.host.clipboardSet text e.host).2 =
          (setup.host.clipboardSet text o.host).2 := by
        rw [h.host]
      cases hmode : e.mode.isInterpreter with
      | true =>
          have hbindings := ((shows_iff_machine hmode).1 h).entries
          refine (shows_iff_machine ?_).2 ⟨hstate, hbindings⟩
          exact hmode
      | false =>
          have hactions := ((shows_iff_keyboard hmode).1 h).entries
          refine (shows_iff_keyboard ?_).2 ⟨hstate, hactions⟩
          exact hmode

/-- **Any number of requests**, by what a single one does. -/
theorem Shows.session (h : e.Shows setup o) (requests : List Request) :
    e.session setup requests = o.session setup requests := by
  induction requests generalizing e o with
  | nil => rfl
  | cons request rest ih =>
      obtain ⟨hanswer, hshows⟩ := h.respond request
      simp only [Engine.session, Outline.session]
      rw [hanswer, hshows.boundKeys, hshows.host, ih hshows]

end Engine

/-! ## Registering -/

/-- A binding of a literal hotkey to an action that can be compiled. -/
def Stmt.Bindable (registry : Registry σ) (s : Stmt) : Prop :=
  ∃ text action line, s = .bind (.hotkey text) action line ∧ Compiles registry action

/-- The canonical hotkey of a binding. -/
def Stmt.key (s : Stmt) : String :=
  normalize (s.hotkeyText?.getD "")

theorem Engine.interpretBindings_shows {setup : Setup σ} :
    (ss : List Stmt) → (∀ s ∈ ss, s.Bindable setup.registry) → {e : Engine σ} → {o : Outline σ} →
      e.toMachine.Shows setup o → e.scope = .empty →
      ∃ m, e.interpretBindings setup ss = (.ok (ss.map Stmt.key), e.withMachine m) ∧
        m.Shows setup (o.bindAll setup ss)
  | [], _, e, o, h, _ => ⟨e.toMachine, rfl, h⟩
  | s :: rest, hss, e, o, h, hscope => by
      obtain ⟨text, action, line, rfl, hcompiles⟩ := hss s List.mem_cons_self
      let m := e.toMachine.bind setup.host text action .empty
      have hm : m.Shows setup (o.bind setup text action) := h.bind text hcompiles
      obtain ⟨m', hrest, hm'⟩ := interpretBindings_shows rest
        (fun s hs => hss s (List.mem_cons_of_mem _ hs)) (e := e.withMachine m) hm hscope
      refine ⟨m', ?_, hm'⟩
      have hrun : evaluateStatement setup (.bind (.hotkey text) action line) e.run =
          (.ok .null, ⟨e.scope, m⟩) := by
        show (_, Run.mk e.scope (e.toMachine.bind setup.host text action e.scope)) = _
        rw [hscope]
        rfl
      have hnext : e.withRun ⟨e.scope, m⟩ = e.withMachine m := rfl
      unfold interpretBindings
      simp only [hrun, hnext, hrest]
      rfl

theorem Native.Keyboard.compileAll_shows {setup : Setup σ} :
    (ss : List Stmt) → (∀ s ∈ ss, s.Bindable setup.registry) → (report : Native.Report) →
      {k : Native.Keyboard σ} → {o : Outline σ} → k.Shows setup o →
      ∃ k', ss.foldl (fun (report, k) s => k.compileStatement setup s report) (report, k) =
          ({ report with bound := report.bound ++ ss.map Stmt.key }, k') ∧
        k'.Shows setup (o.bindAll setup ss)
  | [], _, report, k, o, h => by
      refine ⟨k, ?_, h⟩
      simp
  | s :: rest, hss, report, k, o, h => by
      obtain ⟨text, action, line, rfl, hcompiles⟩ := hss s List.mem_cons_self
      obtain ⟨k₁, hbind, hk₁⟩ := h.bind text hcompiles
      obtain ⟨k₂, hrest, hk₂⟩ := compileAll_shows rest
        (fun s hs => hss s (List.mem_cons_of_mem _ hs))
        { report with bound := report.bound ++ [normalize text] } hk₁
      refine ⟨k₂, ?_, hk₂⟩
      have hstep : k.compileStatement setup (.bind (.hotkey text) action line) report =
          ({ report with bound := report.bound ++ [normalize text] }, k₁) := by
        unfold compileStatement
        simp only [Stmt.hotkeyText?, Option.getD_some]
        rw [hbind]
      simp only [List.foldl_cons, hstep]
      rw [hrest]
      simp [Stmt.key, Stmt.hotkeyText?]

/-- The bindings that a script has on its top level are those of literal hotkeys. -/
theorem exists_hotkey_of_mem {source : String} {p : Program} (hparse : parseSource source = .ok p)
    {hotkey : Expr} {action : Stmt} {line : Nat} (hmem : .bind hotkey action line ∈ p.statements) :
    ∃ text, hotkey = .hotkey text := by
  obtain ⟨ts, rest, hstatement⟩ := (parse_eq_ok_iff.1 hparse).exists_statement hmem
  cases hstatement with
  | bind => exact ⟨_, rfl⟩
  | block hblock => cases hblock
  | branch _ hbranch => cases hbranch

namespace Engine

variable {setup : Setup σ}

/-- Registering a script whose actions can all be compiled succeeds, and the engine then shows the
same outline in every mode. -/
theorem register_shows (mode : Mode) (state : σ) {source : String} {p : Program}
    (hparse : Chord.parseSource source = .ok p)
    (hcompile : ∀ hotkey action line, Stmt.bind hotkey action line ∈ p.statements →
      Compiles setup.registry action) :
    ∃ e, (start mode state).register setup source = (.ok (p.bindings.map Stmt.key), e) ∧
      e.Shows setup (Outline.bindAll setup p.bindings ⟨state, .empty⟩) := by
  have hbindable : ∀ s ∈ p.bindings, s.Bindable setup.registry := by
    intro s hs
    obtain ⟨hmem, hbinding⟩ := List.mem_filter.1 hs
    cases s with
    | bind hotkey action line =>
        obtain ⟨text, rfl⟩ := exists_hotkey_of_mem hparse hmem
        exact ⟨text, action, line, rfl, hcompile _ _ _ hmem⟩
    | _ => cases hbinding
  let opened : Engine σ := ((start mode state).noteAll (sourceNotes source)).noteAll
    (p.others.map fun s => ⟨.warn, "ignoring non-binding statement: " ++ s.text⟩)
  have hregister : (start mode state).register setup source =
      if opened.mode.isInterpreter then opened.interpretBindings setup p.bindings
      else opened.bindAll setup p.bindings := by
    unfold register parseSource
    rw [hparse]
    rfl
  rw [hregister]
  cases hmode : opened.mode.isInterpreter with
  | true =>
      have hshows : opened.toMachine.Shows setup ⟨state, .empty⟩ := ⟨rfl, Table.matches_empty⟩
      obtain ⟨m, hall, hm⟩ := interpretBindings_shows p.bindings hbindable hshows rfl
      exact ⟨_, hall, shows_withMachine hmode hm⟩
  | false =>
      have hshows : opened.keyboard.Shows setup ⟨state, .empty⟩ := ⟨rfl, Table.matches_empty⟩
      obtain ⟨k, hall, hk⟩ := Native.Keyboard.compileAll_shows p.bindings hbindable {} hshows
      have hall : opened.keyboard.compileAll setup p.bindings =
          ({ bound := p.bindings.map Stmt.key }, k) := hall
      refine ⟨opened.withKeyboard k, ?_, shows_withKeyboard hmode hk⟩
      simp only [bindAll, hall]
      rfl

/-- **Execution modes agree**: engines in two modes register the same hotkeys, and from then on no
list of requests tells them apart. -/
theorem modes_agree (setup : Setup σ) (state : σ) {source : String} {p : Program}
    (hparse : Chord.parseSource source = .ok p)
    (hcompile : ∀ hotkey action line, Stmt.bind hotkey action line ∈ p.statements →
      Compiles setup.registry action)
    (mode mode' : Mode) (requests : List Request) :
    ∃ e e', (start mode state).register setup source = (.ok (p.bindings.map Stmt.key), e) ∧
      (start mode' state).register setup source = (.ok (p.bindings.map Stmt.key), e') ∧
      e.boundKeys = e'.boundKeys ∧ e.host = e'.host ∧
      e.session setup requests = e'.session setup requests := by
  obtain ⟨e, hregister, hshows⟩ := register_shows mode state hparse hcompile
  obtain ⟨e', hregister', hshows'⟩ := register_shows mode' state hparse hcompile
  refine ⟨e, e', hregister, hregister', ?_, ?_, ?_⟩
  · rw [hshows.boundKeys, hshows'.boundKeys]
  · rw [hshows.host, hshows'.host]
  · rw [hshows.session, hshows'.session]

/-- Two spellings of one hotkey; the second action takes the place of the first. -/
def reboundSource : String :=
  "^a => send \"x\"\nCtrl+A => send \"y\""

/-- The program of `reboundSource`. -/
def reboundProgram : Program where
  statements := [
    .bind (.hotkey "^a") (.expr (.call (.identifier "send") [.string "x"])) 1,
    .bind (.hotkey "Ctrl+A") (.expr (.call (.identifier "send") [.string "y"])) 2]

theorem rebound_agree :
    Chord.parseSource reboundSource = .ok reboundProgram ∧
      let setup : Setup Desktop := ⟨Desktop.host, .standard Desktop.host, ⟨256, 10⟩⟩
      let requests := [.trigger "ctrl+a", .clipboard "z", .unbind "^A", .invoke "^a"]
      ∃ e e', (start .interpreter (.fresh "" [])).register setup reboundSource =
          (.ok (reboundProgram.bindings.map Stmt.key), e) ∧
        (start .jit (.fresh "" [])).register setup reboundSource =
          (.ok (reboundProgram.bindings.map Stmt.key), e') ∧
        e.boundKeys = e'.boundKeys ∧ e.host = e'.host ∧
        e.session setup requests = e'.session setup requests := by
  have htokens : tokenize reboundSource = [
      ⟨.hotkey, "^a", ⟨1, 1⟩⟩, ⟨.arrow, "=>", ⟨1, 4⟩⟩, ⟨.identifier, "send", ⟨1, 7⟩⟩,
      ⟨.string, "x", ⟨1, 12⟩⟩, ⟨.newline, "\n", ⟨1, 15⟩⟩,
      ⟨.hotkey, "Ctrl+A", ⟨2, 1⟩⟩, ⟨.arrow, "=>", ⟨2, 8⟩⟩, ⟨.identifier, "send", ⟨2, 11⟩⟩,
      ⟨.string, "y", ⟨2, 16⟩⟩, ⟨.eof, "", ⟨2, 19⟩⟩] := by decide +kernel
  have hparse : Chord.parseSource reboundSource = .ok reboundProgram := by
    unfold Chord.parseSource
    rw [htokens]
    rfl
  refine ⟨hparse, modes_agree _ _ hparse ?_ .interpreter .jit _⟩
  intro hotkey action line hmem
  simp only [reboundProgram, List.mem_cons, Stmt.bind.injEq, List.not_mem_nil, or_false] at hmem
  rcases hmem with ⟨-, rfl, -⟩ | ⟨-, rfl, -⟩
  · exact ⟨_, rfl⟩
  · exact ⟨_, rfl⟩

end Engine

end Chord
