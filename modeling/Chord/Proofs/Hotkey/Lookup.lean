import Chord.Host.Desktop
import Chord.Library.Standard
import Chord.Proofs.Hotkey.Plain
import Chord.Proofs.Native.Invariants

/-!
# Looking listed hotkeys up

Actions are kept under canonical texts, and every operation takes the canonical text of what it is
given. A text from the list of bound hotkeys is therefore normalized a second time.

**Input.** A state of an interpreter or of a keyboard that some operations lead to.

**Algorithm.** Operations keep a table `Keyed`: every action stands under the canonical text of the
hotkey as it was written. What is listed is hence found exactly if that hotkey is settled.

**Results.** `listed_found_iff`: a listed hotkey is found again by all operations if the combination
it was bound by is settled, and it cannot be removed otherwise. `sharpS_not_found` is a hotkey that
is not found.
-/

namespace Chord

/-! ## Tables by canonical text -/

namespace Table

variable {α : Type} {source : α → String} {t : Table α}

/-- Every value stands under the canonical text of its source. -/
def Keyed (source : α → String) (t : Table α) : Prop :=
  ∀ ⦃key : String⦄ ⦃a : α⦄, t.get? key = some a → normalize (source a) = key

theorem keyed_empty : (empty : Table α).Keyed source := by
  intro key a h
  cases h

theorem Keyed.insert (h : t.Keyed source) (a : α) :
    (t.insert (normalize (source a)) a).Keyed source := by
  intro key b hget
  by_cases hkey : key = normalize (source a)
  · rw [hkey, get?_insert_self] at hget
    cases hget
    exact hkey.symm
  · rw [get?_insert_of_ne t hkey] at hget
    exact h hget

theorem Keyed.erase (h : t.Keyed source) (key : String) : (t.erase key).Keyed source := by
  intro other a hget
  by_cases hother : other = key
  · subst hother
    rw [get?_erase_self] at hget
    cases hget
  · rw [get?_erase_of_ne t hother] at hget
    exact h hget

theorem erase_of_not_mem {key : String} (h : key ∉ t.keys) : t.erase key = t := by
  refine ext (List.filter_eq_self.2 fun entry hentry => ?_)
  have hne : entry.1 ≠ key := by
    rintro rfl
    exact h (List.mem_map_of_mem hentry)
  simpa using hne

/-- A key that is removed by its canonical text stays unless it is that text. -/
theorem normalize_eq_iff_not_mem_erase {key : String} (h : key ∈ t.keys) :
    normalize key = key ↔ key ∉ (t.erase (normalize key)).keys := by
  rw [mem_keys_erase]
  constructor
  · rintro hkey ⟨hne, -⟩
    exact hne hkey.symm
  · intro hnot
    by_contra hne
    exact hnot ⟨fun heq => hne heq.symm, h⟩

/-- A key of the table is its own canonical text exactly if its source is settled. -/
theorem Keyed.normalize_eq_iff (h : t.Keyed source) {key : String} {a : α}
    (hget : t.get? key = some a) :
    normalize key = key ↔ (Hotkey.parse (source a)).Settled := by
  rw [← h hget]
  exact normalize_normalize_iff (source a)

end Table

variable {σ : Type}

/-! ## Interpreters -/

namespace Machine

/-- The states of an interpreter on a host that others may change as well. -/
inductive Reached (host : Host σ) (registry : Registry σ) : Machine σ → Prop
  | start (desk : Desk σ) : Reached host registry { toDesk := desk }
  | evaluate {m : Machine σ} (limits : Limits) (p : Program) (scope : Scope) :
      Reached host registry m →
      Reached host registry (Eval.evaluate ⟨host, registry, limits⟩ p ⟨scope, m⟩).2.machine
  | statement {m : Machine σ} (limits : Limits) (s : Stmt) (scope : Scope) :
      Reached host registry m →
      Reached host registry
        (Eval.evaluateStatement ⟨host, registry, limits⟩ s ⟨scope, m⟩).2.machine
  | expression {m : Machine σ} (limits : Limits) (e : Expr) (scope : Scope) :
      Reached host registry m →
      Reached host registry
        (Eval.evaluateExpression ⟨host, registry, limits⟩ e ⟨scope, m⟩).2.machine
  | invoke {m : Machine σ} (limits : Limits) (hotkey : String) :
      Reached host registry m →
      Reached host registry (m.invoke ⟨host, registry, limits⟩ hotkey).2
  | trigger {m : Machine σ} (limits : Limits) (hotkey : String) :
      Reached host registry m →
      Reached host registry (m.trigger ⟨host, registry, limits⟩ hotkey).2
  | unbind {m : Machine σ} (hotkey : String) :
      Reached host registry m → Reached host registry (m.unbind host hotkey).2
  | elsewhere {m : Machine σ} (desk : Desk σ) :
      Reached host registry m → Reached host registry { m with toDesk := desk }

/-- Runs bind actions under canonical texts and do nothing else to the bindings. -/
theorem upheld_keyed (setup : Setup σ) :
    Upheld setup fun _ _ bindings => bindings.Keyed Binding.source where
  call := fun _ _ _ _ _ _ _ h => h
  bind := fun h b => h.insert b

variable {host : Host σ} {registry : Registry σ} {m : Machine σ}

theorem bindings_unbind (host : Host σ) (hotkey : String) (m : Machine σ) :
    (m.unbind host hotkey).2.bindings = m.bindings.erase (normalize hotkey) := by
  unfold unbind
  simp only
  split
  · rfl
  · rename_i hnot
    rw [Table.contains_iff_mem_keys] at hnot
    exact (Table.erase_of_not_mem hnot).symm

theorem Reached.keyed (h : m.Reached host registry) : m.bindings.Keyed Binding.source := by
  induction h with
  | start desk => exact Table.keyed_empty
  | evaluate limits p scope _ ih =>
      exact Eval.evaluate_keeps (upheld_keyed ⟨host, registry, limits⟩) p [] ih
  | statement limits s scope _ ih =>
      exact Eval.evaluateStatement_keeps (upheld_keyed ⟨host, registry, limits⟩) s [] ih
  | expression limits e scope _ ih =>
      exact Eval.evaluateExpression_keeps (upheld_keyed ⟨host, registry, limits⟩) e [] ih
  | invoke limits hotkey _ ih =>
      exact invoke_keeps (upheld_keyed ⟨host, registry, limits⟩) hotkey [] ih
  | trigger limits hotkey _ ih =>
      exact trigger_keeps (upheld_keyed ⟨host, registry, limits⟩) hotkey [] ih
  | unbind hotkey _ ih =>
      rw [bindings_unbind]
      exact ih.erase (normalize hotkey)
  | elsewhere desk _ ih => exact ih

/-- All operations find a binding under a key. -/
structure Finds (setup : Setup σ) (m : Machine σ) (key : String) (b : Binding) : Prop where
  isBound : m.isBound key = true
  invoke : ∃ m' : Machine σ, m'.host = m.host ∧ m'.bindings = m.bindings ∧
    m.invoke setup key =
      (some (Eval.evaluateStatement setup b.action ⟨b.scope, m'⟩).1,
        (Eval.evaluateStatement setup b.action ⟨b.scope, m'⟩).2.machine)
  unbind : (m.unbind setup.host key).1 = true ∧
    (m.unbind setup.host key).2.bindings = m.bindings.erase key

theorem finds_of_normalize_eq (setup : Setup σ) {key : String} {b : Binding}
    (hget : m.bindings.get? key = some b) (hkey : normalize key = key) : m.Finds setup key b := by
  have hcontains : m.bindings.contains key = true := by
    rw [Table.contains, hget]
    rfl
  refine ⟨?_, ?_, ?_⟩
  · rw [isBound, hkey, hcontains]
  · let m' := m.note .debug ("triggering " ++ key ++ " (bound as " ++ b.source ++ ")")
    refine ⟨{ m' with depth := 0 }, rfl, rfl, ?_⟩
    unfold invoke
    simp only [hkey, hget]
    rfl
  · refine ⟨?_, by rw [bindings_unbind, hkey]⟩
    unfold unbind
    simp only [hkey, hcontains, if_true]

/-- What becomes of a hotkey that is listed. -/
theorem Reached.listed (h : m.Reached host registry) {key : String} (hkey : key ∈ m.boundKeys) :
    ∃ b, m.bindings.get? key = some b ∧ normalize b.source = key ∧
      ((Hotkey.parse b.source).Settled ↔ key ∉ (m.unbind host key).2.boundKeys) ∧
      ((Hotkey.parse b.source).Settled →
        ∀ limits : Limits, m.Finds ⟨host, registry, limits⟩ key b) := by
  obtain ⟨b, hget⟩ := Table.mem_keys_iff.1 hkey
  have hsettled := h.keyed.normalize_eq_iff hget
  refine ⟨b, hget, h.keyed hget, ?_, ?_⟩
  · rw [← hsettled, boundKeys, bindings_unbind]
    exact Table.normalize_eq_iff_not_mem_erase hkey
  · intro hb limits
    exact finds_of_normalize_eq ⟨host, registry, limits⟩ hget (hsettled.2 hb)

end Machine

/-! ## Keyboards -/

namespace Native.Keyboard

/-- The states of a keyboard on a host that others may change as well. -/
inductive Reached (host : Host σ) (registry : Registry σ) : Keyboard σ → Prop
  | start (desk : Desk σ) : Reached host registry { toDesk := desk }
  | compile {k : Keyboard σ} (limits : Limits) (s : Stmt) :
      Reached host registry k →
      Reached host registry (k.compile ⟨host, registry, limits⟩ s).2
  | bind {k : Keyboard σ} (limits : Limits) (hotkey : String) (action : Stmt) :
      Reached host registry k →
      Reached host registry (k.bind ⟨host, registry, limits⟩ hotkey action).2
  | compileScript {k : Keyboard σ} (limits : Limits) (p : Program) :
      Reached host registry k →
      Reached host registry (k.compileScript ⟨host, registry, limits⟩ p).2
  | run {k : Keyboard σ} (limits : Limits) (a : Action) :
      Reached host registry k → Reached host registry (k.run ⟨host, registry, limits⟩ a).2
  | invoke {k : Keyboard σ} (limits : Limits) (hotkey : String) :
      Reached host registry k →
      Reached host registry (k.invoke ⟨host, registry, limits⟩ hotkey).2
  | trigger {k : Keyboard σ} (limits : Limits) (hotkey : String) :
      Reached host registry k →
      Reached host registry (k.trigger ⟨host, registry, limits⟩ hotkey).2
  | unbind {k : Keyboard σ} (hotkey : String) :
      Reached host registry k → Reached host registry (k.unbind host hotkey).2
  | elsewhere {k : Keyboard σ} (desk : Desk σ) :
      Reached host registry k → Reached host registry { k with toDesk := desk }

/-- Actions are bound under canonical texts, and nothing else is done to the bindings. -/
theorem upheld_keyed (setup : Setup σ) :
    Upheld setup fun _ actions => actions.Keyed Compiled.source where
  call := fun _ _ _ _ _ _ h => h
  bind := fun h c => h.insert c

variable {host : Host σ} {registry : Registry σ} {k : Keyboard σ}

theorem actions_unbind (host : Host σ) (hotkey : String) (k : Keyboard σ) :
    (k.unbind host hotkey).2.actions = k.actions.erase (normalize hotkey) := by
  unfold unbind
  simp only
  split
  · rfl
  · rename_i hnot
    rw [Table.contains_iff_mem_keys] at hnot
    exact (Table.erase_of_not_mem hnot).symm

theorem Reached.keyed (h : k.Reached host registry) : k.actions.Keyed Compiled.source := by
  induction h with
  | start desk => exact Table.keyed_empty
  | compile limits s _ ih =>
      exact compile_keeps (P := fun _ actions => actions.Keyed Compiled.source) s ih
  | bind limits hotkey action _ ih =>
      exact bind_keeps (upheld_keyed ⟨host, registry, limits⟩) hotkey action ih
  | compileScript limits p _ ih =>
      exact compileAll_keeps (upheld_keyed ⟨host, registry, limits⟩) p.statements ih
  | run limits a _ ih => exact ih
  | invoke limits hotkey _ ih =>
      exact invoke_keeps (upheld_keyed ⟨host, registry, limits⟩).call hotkey ih
  | trigger limits hotkey _ ih =>
      exact trigger_keeps (upheld_keyed ⟨host, registry, limits⟩).call hotkey ih
  | unbind hotkey _ ih =>
      rw [actions_unbind]
      exact ih.erase (normalize hotkey)
  | elsewhere desk _ ih => exact ih

/-- All operations find an action under a key. -/
structure Finds (setup : Setup σ) (k : Keyboard σ) (key : String) (c : Compiled) : Prop where
  isBound : k.isBound key = true
  invoke : ∃ k' : Keyboard σ, k'.host = k.host ∧ k'.actions = k.actions ∧
    k.invoke setup key = (some (k'.run setup c.action).1, (k'.run setup c.action).2)
  unbind : (k.unbind setup.host key).1 = true ∧
    (k.unbind setup.host key).2.actions = k.actions.erase key

theorem finds_of_normalize_eq (setup : Setup σ) {key : String} {c : Compiled}
    (hget : k.actions.get? key = some c) (hkey : normalize key = key) : k.Finds setup key c := by
  have hcontains : k.actions.contains key = true := by
    rw [Table.contains, hget]
    rfl
  refine ⟨?_, ?_, ?_⟩
  · rw [isBound, hkey, hcontains]
  · refine ⟨k.note .debug ("triggering " ++ key ++ " (bound as " ++ c.source ++ ")"), rfl, rfl, ?_⟩
    unfold invoke
    simp only [hkey, hget]
  · refine ⟨?_, by rw [actions_unbind, hkey]⟩
    unfold unbind
    simp only [hkey, hcontains, if_true]

/-- What becomes of a hotkey that is listed. -/
theorem Reached.listed (h : k.Reached host registry) {key : String} (hkey : key ∈ k.boundKeys) :
    ∃ c, k.actions.get? key = some c ∧ normalize c.source = key ∧
      ((Hotkey.parse c.source).Settled ↔ key ∉ (k.unbind host key).2.boundKeys) ∧
      ((Hotkey.parse c.source).Settled →
        ∀ limits : Limits, k.Finds ⟨host, registry, limits⟩ key c) := by
  obtain ⟨c, hget⟩ := Table.mem_keys_iff.1 hkey
  have hsettled := h.keyed.normalize_eq_iff hget
  refine ⟨c, hget, h.keyed hget, ?_, ?_⟩
  · rw [← hsettled, boundKeys, actions_unbind]
    exact Table.normalize_eq_iff_not_mem_erase hkey
  · intro hc limits
    exact finds_of_normalize_eq ⟨host, registry, limits⟩ hget (hsettled.2 hc)

end Native.Keyboard

/-! ## Texts from the list -/

/-- **Canonical texts are canonical** exactly if the combination is settled, as it is for plain
texts. In every state of an interpreter or of a keyboard a listed hotkey is found again by all
operations if its combination is settled, and it cannot be removed otherwise. -/
theorem listed_found_iff (host : Host σ) (registry : Registry σ) :
    (∀ text, normalize (normalize text) = normalize text ↔ (Hotkey.parse text).Settled) ∧
      (∀ text, isPlain text = true → (Hotkey.parse text).Settled) ∧
      (∀ m : Machine σ, m.Reached host registry → ∀ key ∈ m.boundKeys,
        ∃ b, m.bindings.get? key = some b ∧ normalize b.source = key ∧
          ((Hotkey.parse b.source).Settled ↔ key ∉ (m.unbind host key).2.boundKeys) ∧
          ((Hotkey.parse b.source).Settled →
            ∀ limits : Limits, m.Finds ⟨host, registry, limits⟩ key b)) ∧
      ∀ k : Native.Keyboard σ, k.Reached host registry → ∀ key ∈ k.boundKeys,
        ∃ c, k.actions.get? key = some c ∧ normalize c.source = key ∧
          ((Hotkey.parse c.source).Settled ↔ key ∉ (k.unbind host key).2.boundKeys) ∧
          ((Hotkey.parse c.source).Settled →
            ∀ limits : Limits, k.Finds ⟨host, registry, limits⟩ key c) :=
  ⟨normalize_normalize_iff, fun _ h => Hotkey.settled_of_isPlain h,
    fun _ hm _ hkey => hm.listed hkey, fun _ hk _ hkey => hk.listed hkey⟩

/-- A program that binds a hotkey to nothing at all. -/
def bindIdle (hotkey : String) : Program :=
  ⟨[.bind (.hotkey hotkey) (.block []) 1]⟩

/-- What an interpreter on a fresh desktop is left with by a program. -/
def desktopAfter (p : Program) : Machine Desktop :=
  (Eval.evaluate ⟨Desktop.host, Registry.standard Desktop.host, { loops := 0 }⟩ p
    ⟨.empty, { host := Desktop.fresh "" [] }⟩).2.machine

/-- What a keyboard on a fresh desktop is left with by a program. -/
def keyboardAfter (p : Program) : Native.Keyboard Desktop :=
  (Native.Keyboard.compileScript
    ⟨Desktop.host, Registry.standard Desktop.host, { loops := 0 }⟩ p
    { host := Desktop.fresh "" [] }).2

theorem ctrlAltA_found :
    (desktopAfter (bindIdle "^!a")).boundKeys = ["Ctrl+Alt+A"] ∧
      ∃ b, (desktopAfter (bindIdle "^!a")).Finds
        ⟨Desktop.host, Registry.standard Desktop.host, { loops := 0 }⟩ "Ctrl+Alt+A" b := by
  have hreached : (desktopAfter (bindIdle "^!a")).Reached Desktop.host
      (Registry.standard Desktop.host) :=
    .evaluate { loops := 0 } _ .empty (.start ⟨Desktop.fresh "" [], #[]⟩)
  have hkeys : (desktopAfter (bindIdle "^!a")).boundKeys = ["Ctrl+Alt+A"] := by decide +kernel
  have hlisted : "Ctrl+Alt+A" ∈ (desktopAfter (bindIdle "^!a")).boundKeys := by
    rw [hkeys]
    exact List.mem_singleton_self _
  obtain ⟨hiff, -, hmachine, -⟩ :=
    listed_found_iff Desktop.host (Registry.standard Desktop.host)
  obtain ⟨b, -, hsource, -, hfinds⟩ := hmachine _ hreached _ hlisted
  have hsettled : (Hotkey.parse b.source).Settled := by
    refine (hiff b.source).1 ?_
    rw [hsource]
    decide +kernel
  exact ⟨hkeys, b, hfinds hsettled { loops := 0 }⟩

/-- A key with two letters for its capital form is listed under a text that is not found. -/
theorem sharpS_not_found :
    normalize (normalize "^ß") ≠ normalize "^ß" ∧
      (∃ m : Machine Desktop, m.Reached Desktop.host (Registry.standard Desktop.host) ∧
        m.boundKeys = ["Ctrl+SS"] ∧ m.isBound "Ctrl+SS" = false ∧
        (m.invoke ⟨Desktop.host, Registry.standard Desktop.host, { loops := 0 }⟩
          "Ctrl+SS").1.isNone = true ∧
        (m.unbind Desktop.host "Ctrl+SS").1 = false) ∧
      ∃ k : Native.Keyboard Desktop, k.Reached Desktop.host (Registry.standard Desktop.host) ∧
        k.boundKeys = ["Ctrl+SS"] ∧ k.isBound "Ctrl+SS" = false ∧
        (k.invoke ⟨Desktop.host, Registry.standard Desktop.host, { loops := 0 }⟩
          "Ctrl+SS").1.isNone = true ∧
        (k.unbind Desktop.host "Ctrl+SS").1 = false := by
  refine ⟨by decide +kernel, ⟨desktopAfter (bindIdle "^ß"), ?_, ?_⟩,
    ⟨keyboardAfter (bindIdle "^ß"), ?_, ?_⟩⟩
  · exact .evaluate { loops := 0 } _ .empty (.start ⟨Desktop.fresh "" [], #[]⟩)
  · decide +kernel
  · exact .compileScript { loops := 0 } _ (.start ⟨Desktop.fresh "" [], #[]⟩)
  · decide +kernel

end Chord
