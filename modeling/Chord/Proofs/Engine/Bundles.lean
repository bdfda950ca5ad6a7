import Chord.Proofs.Engine.Modes
import Chord.Proofs.Json.RoundTrip
import Chord.Proofs.Native.Headings
import Chord.Proofs.Store

/-!
# Bundles come back

A bundle that one engine wrote is loaded by any other one as if that had registered the script.

**Input.** A script file that an engine has compiled to a bundle file.

**Algorithm.** The writer compiles each binding and forgets the code; the reader reads the script
again and compiles it again. `Bundle.Faithful` is what the writer found out and the reader relies
on.

**Results.** `Bundle.ofText?_text` reads a bundle back from its text. `Engine.compileFile_faithful`:
bundles that were written are faithful. `Engine.loadBundle_compileFile`: the bundle is loaded from
the file, with the hotkeys of the script, on every host and in every mode.
-/

namespace Chord

/-! ## The text of a bundle -/

theorem Json.allPlain_map {α : Type} {f : α → Json} :
    (as : List α) → (∀ a ∈ as, (f a).Plain) → Json.AllPlain (as.map f)
  | [], _ => trivial
  | a :: as, h =>
      ⟨h a List.mem_cons_self, Json.allPlain_map as fun b hb => h b (List.mem_cons_of_mem a hb)⟩

theorem BundleEntry.plain_toJson {entry : BundleEntry} (h : entry.line < 0x10000000000000000) :
    entry.toJson.Plain :=
  ⟨⟨_, rfl⟩, ⟨_, rfl⟩, ⟨entry.line, h, rfl⟩, trivial⟩

theorem Json.natBelow?_int {bound n : Nat} (h : n < bound) :
    (Json.int n).natBelow? bound = some n := by
  have hbelow : (0 ≤ (n : Int) && (n : Int) < bound) = true := by
    simp [h]
  rw [Json.int, Json.natBelow?, if_pos hbelow, Int.toNat_natCast]

theorem BundleEntry.ofJson?_eq_some {j hotkey normalized line : Json} {entry : BundleEntry}
    (hfields : j.fields? ["hotkey", "normalized", "line"] = some [hotkey, normalized, line])
    (hhotkey : hotkey.string? = some entry.hotkey)
    (hnormalized : normalized.string? = some entry.normalized)
    (hline : line.natBelow? 0x10000000000000000 = some entry.line) :
    BundleEntry.ofJson? j = some entry := by
  unfold BundleEntry.ofJson?
  rw [hfields]
  show (do
    let hotkey ← hotkey.string?
    let normalized ← normalized.string?
    let line ← line.natBelow? 0x10000000000000000
    return (⟨hotkey, normalized, line⟩ : BundleEntry)) = _
  rw [hhotkey, hnormalized, hline]
  rfl

theorem BundleEntry.ofJson?_toJson {entry : BundleEntry}
    (h : entry.line < 0x10000000000000000) : BundleEntry.ofJson? entry.toJson = some entry := by
  have hfields : entry.toJson.fields? ["hotkey", "normalized", "line"] =
      some [.text entry.hotkey, .text entry.normalized, .int entry.line] := by
    simp [BundleEntry.toJson, Json.fields?]
  exact BundleEntry.ofJson?_eq_some hfields rfl rfl (Json.natBelow?_int h)

theorem BundleEntry.listOfJson?_map {entries : List BundleEntry}
    (h : ∀ entry ∈ entries, entry.line < 0x10000000000000000) :
    BundleEntry.listOfJson? (.array (entries.map BundleEntry.toJson)) = some entries := by
  rw [BundleEntry.listOfJson?]
  induction entries with
  | nil => rfl
  | cons entry entries ih =>
      have hentry := BundleEntry.ofJson?_toJson (h entry List.mem_cons_self)
      have hrest := ih fun other hother => h other (List.mem_cons_of_mem entry hother)
      rw [List.map_cons, List.mapM_cons, hentry, hrest]
      rfl

theorem Bundle.ofJson?_eq_some {j format version bindings source : Json} {b : Bundle}
    (hfields : j.fields? ["format", "version", "bindings", "source"] =
      some [format, version, bindings, source])
    (hformat : format.string? = some b.format)
    (hversion : version.natBelow? 0x100000000 = some b.version)
    (hbindings : BundleEntry.listOfJson? bindings = some b.bindings)
    (hsource : source.string? = some b.source) : Bundle.ofJson? j = some b := by
  unfold Bundle.ofJson?
  rw [hfields]
  show (do
    let format ← format.string?
    let version ← version.natBelow? 0x100000000
    let bindings ← BundleEntry.listOfJson? bindings
    let source ← source.string?
    return (⟨format, version, bindings, source⟩ : Bundle)) = _
  rw [hformat, hversion, hbindings, hsource]
  rfl

/-- **A bundle is read back from its text**, whatever its source is. Lines and version are the
numbers of 64 and of 32 bits that JSON texts may hold there. -/
theorem Bundle.ofText?_text {b : Bundle} (hversion : b.version < 0x100000000)
    (hlines : ∀ entry ∈ b.bindings, entry.line < 0x10000000000000000) :
    Bundle.ofText? b.text = some b := by
  have hplain : b.toJson.Plain := by
    refine ⟨⟨_, rfl⟩, ⟨b.version, by omega, rfl⟩, ?_, ⟨_, rfl⟩, trivial⟩
    exact Json.allPlain_map b.bindings fun entry hentry =>
      BundleEntry.plain_toJson (hlines entry hentry)
  have hfields : b.toJson.fields? ["format", "version", "bindings", "source"] =
      some [.text b.format, .int b.version, .array (b.bindings.map BundleEntry.toJson),
        .text b.source] := by
    simp [Bundle.toJson, Json.fields?]
  rw [Bundle.ofText?, Bundle.text, Json.parse?_pretty hplain, Option.bind_some]
  exact Bundle.ofJson?_eq_some hfields rfl (Json.natBelow?_int hversion)
    (BundleEntry.listOfJson?_map hlines) rfl

/-! ## Compiling, the journal aside -/

variable {σ τ : Type}

namespace Native.Keyboard

variable (setup : Setup σ)

/-- A keyboard without its journal. -/
def silent (k : Keyboard σ) : Keyboard σ :=
  { host := k.host, actions := k.actions }

theorem compile_silent (s : Stmt) (k : Keyboard σ) :
    (k.compile setup s).1 = Native.compile setup.registry s ∧
      (k.compile setup s).2.silent = k.silent := by
  unfold compile
  cases Native.compile setup.registry s with
  | ok a =>
      generalize [a.note] = notes
      exact ⟨rfl, rfl⟩
  | error cause => exact ⟨rfl, rfl⟩

theorem compileStatement_silent {k k' : Keyboard σ} (h : k.silent = k'.silent) (s : Stmt)
    (report : Report) :
    (k.compileStatement setup s report).1 = (k'.compileStatement setup s report).1 ∧
      (k.compileStatement setup s report).2.silent =
        (k'.compileStatement setup s report).2.silent := by
  obtain ⟨⟨host, journal⟩, actions⟩ := k
  obtain ⟨⟨host', journal'⟩, actions'⟩ := k'
  cases h
  cases s with
  | bind hotkey action line =>
      simp only [compileStatement, bind, compile]
      cases Native.compile setup.registry action with
      | ok a => exact ⟨rfl, rfl⟩
      | error cause => exact ⟨rfl, rfl⟩
  | _ => exact ⟨rfl, rfl⟩

theorem compileAll_silent {k k' : Keyboard σ} (h : k.silent = k'.silent) (ss : List Stmt) :
    (k.compileAll setup ss).1 = (k'.compileAll setup ss).1 ∧
      (k.compileAll setup ss).2.silent = (k'.compileAll setup ss).2.silent := by
  let Same (x y : Report × Keyboard σ) : Prop := x.1 = y.1 ∧ x.2.silent = y.2.silent
  refine List.foldl_rel (r := Same) ⟨rfl, h⟩ ?_
  rintro s - ⟨report, k⟩ ⟨report', k'⟩ ⟨hreport, hk⟩
  obtain rfl : report = report' := hreport
  exact compileStatement_silent setup hk s report

variable {setup}

theorem compileStatement_bindable {s : Stmt} (hs : s.Bindable setup.registry) (report : Report)
    (k : Keyboard σ) : (k.compileStatement setup s report).1 =
      { report with bound := report.bound ++ [s.key] } := by
  obtain ⟨text, action, line, rfl, a, ha⟩ := hs
  simp only [compileStatement, bind, compile, ha, Stmt.key, Stmt.hotkeyText?, Option.getD_some]

/-- Bindings that can be compiled are all bound. -/
theorem compileAll_bindable {ss : List Stmt} (hss : ∀ s ∈ ss, s.Bindable setup.registry)
    (k : Keyboard σ) : (k.compileAll setup ss).1 = { bound := ss.map Stmt.key } := by
  have hfold : ∀ (ss : List Stmt), (∀ s ∈ ss, s.Bindable setup.registry) →
      ∀ x : Report × Keyboard σ,
        (ss.foldl (fun x s => x.2.compileStatement setup s x.1) x).1 =
          { x.1 with bound := x.1.bound ++ ss.map Stmt.key } := by
    intro ss hss
    induction ss with
    | nil =>
        intro x
        rw [List.map_nil, List.append_nil]
        rfl
    | cons s rest ih =>
        intro x
        have hrest := ih (fun s hs => hss s (List.mem_cons_of_mem _ hs))
          (x.2.compileStatement setup s x.1)
        rw [compileStatement_bindable (hss s List.mem_cons_self)] at hrest
        rw [List.foldl_cons, List.map_cons, List.append_cons]
        exact hrest
  exact hfold ss hss ({}, k)

end Native.Keyboard

namespace Engine

variable {setup : Setup σ}

/-- An engine without its journal. -/
def silent (e : Engine σ) : Engine σ :=
  { host := e.host
    bindings := e.bindings
    depth := e.depth
    mode := e.mode
    scope := e.scope
    actions := e.actions }

theorem silent_note (e : Engine σ) (level : Level) (text : String) :
    (e.note level text).silent = e.silent :=
  rfl

theorem silent_noteAll (e : Engine σ) (notes : List Note) : (e.noteAll notes).silent = e.silent :=
  rfl

theorem silent_setMode (mode : Mode) (e : Engine σ) :
    (e.setMode mode).silent = ({ e with mode } : Engine σ).silent := by
  unfold setMode
  split
  · rfl
  · generalize "execution mode: " ++ _ = text
    rfl

theorem silent_withKeyboard (e : Engine σ) (k : Native.Keyboard σ) :
    (e.withKeyboard k).silent = e.silent.withKeyboard k.silent :=
  rfl

/-- Binding changes host, journal and compiled actions, whatever the mode is. -/
theorem bindAll_eq (setup : Setup σ) (ss : List Stmt) (e : Engine σ) :
    (e.bindAll setup ss).2 = e.withKeyboard (e.keyboard.compileAll setup ss).2 := by
  unfold bindAll
  simp only
  split <;> rfl

/-- Bindings that can be compiled are all bound, and neither the journal nor the mode has an
influence on how. -/
theorem bindAll_bindable {ss : List Stmt} (hss : ∀ s ∈ ss, s.Bindable setup.registry)
    {e e' : Engine σ} {mode : Mode} (h : e'.silent = ({ e with mode } : Engine σ).silent) :
    (e'.bindAll setup ss).1 = .ok (ss.map Stmt.key) ∧
      (e'.bindAll setup ss).2.silent =
        ({ (e.bindAll setup ss).2 with mode } : Engine σ).silent := by
  constructor
  · simp only [bindAll, Native.Keyboard.compileAll_bindable hss e'.keyboard]
    rfl
  · have hkeyboard : e'.keyboard.silent = e.keyboard.silent := congrArg keyboard h
    obtain ⟨-, hk⟩ := Native.Keyboard.compileAll_silent setup hkeyboard ss
    rw [bindAll_eq, bindAll_eq, silent_withKeyboard, h, hk]
    rfl

/-- Verifying bindings changes nothing, and finds out whether they can be compiled. -/
theorem verify_spec (setup : Setup σ) : (ss : List Stmt) →
    (∀ s ∈ ss, ∃ text action line, s = .bind (.hotkey text) action line) → (e : Engine σ) →
    (e.verify setup ss).2.silent = e.silent ∧ ((e.verify setup ss).1.2 = [] →
      (∀ s ∈ ss, s.Bindable setup.registry) ∧
        (e.verify setup ss).1.1.map (·.normalized) = ss.map Stmt.key)
  | [], _, e => ⟨rfl, fun _ => ⟨fun _ hs => absurd hs List.not_mem_nil, rfl⟩⟩
  | s :: rest, hss, e => by
      obtain ⟨text, action, line, rfl⟩ := hss s List.mem_cons_self
      have hrest := verify_spec setup rest fun s hs => hss s (List.mem_cons_of_mem _ hs)
      obtain ⟨hresult, hk⟩ := Native.Keyboard.compile_silent setup action e.keyboard
      rcases hcompile : e.keyboard.compile setup action with ⟨result, k⟩
      rw [hcompile] at hresult hk
      have hsame : (e.withKeyboard k).silent = e.silent := by
        rw [silent_withKeyboard, hk]
        rfl
      obtain ⟨hsilent, hentries⟩ := hrest (e.withKeyboard k)
      cases result with
      | error cause =>
          simp only [verify, hcompile]
          exact ⟨hsilent.trans hsame, fun hfailures => absurd hfailures (List.cons_ne_nil _ _)⟩
      | ok a =>
          simp only [verify, hcompile]
          refine ⟨hsilent.trans hsame, fun hfailures => ?_⟩
          obtain ⟨hbindable, hkeys⟩ := hentries hfailures
          constructor
          · intro s hs
            rcases List.mem_cons.1 hs with rfl | hs
            · exact ⟨text, action, line, rfl, a, hresult.symm⟩
            · exact hbindable s hs
          · rw [List.map_cons, List.map_cons, hkeys, Stmt.key]

end Engine

/-! ## Faithful bundles -/

/-- A bundle is of the current format and lists the hotkeys of its source, whose actions can all be
compiled. -/
structure Bundle.Faithful (registry : Registry σ) (b : Bundle) (p : Program) : Prop where
  format : b.format = Bundle.currentFormat
  version : b.version = Bundle.currentVersion
  parse : parseSource b.source = .ok p
  bindable : ∀ s ∈ p.bindings, s.Bindable registry
  keys : b.bindings.map (·.normalized) = p.bindings.map Stmt.key

/-- What is faithful on one host is so on every other one. -/
theorem Bundle.Faithful.standard {host : Host σ} {b : Bundle} {p : Program}
    (h : b.Faithful (.standard host) p) (host' : Host τ) : b.Faithful (.standard host') p := by
  refine ⟨h.format, h.version, h.parse, fun s hs => ?_, h.keys⟩
  obtain ⟨text, action, line, rfl, a, ha⟩ := h.bindable s hs
  exact ⟨text, action, line, rfl, a, (Native.compile_standard host' host action).trans ha⟩

theorem exists_bind_of_mem_bindings {source : String} {p : Program}
    (hparse : parseSource source = .ok p) {s : Stmt} (hs : s ∈ p.bindings) :
    ∃ text action line, s = .bind (.hotkey text) action line := by
  obtain ⟨hmem, hbinding⟩ := List.mem_filter.1 hs
  cases s with
  | bind hotkey action line =>
      obtain ⟨text, rfl⟩ := exists_hotkey_of_mem hparse hmem
      exact ⟨text, action, line, rfl⟩
  | _ => cases hbinding

namespace Engine

variable {setup : Setup σ} {b : Bundle} {p : Program}

/-- A successful compilation leaves the engine as it was and writes a faithful bundle. -/
theorem compileFile_faithful {e e' : Engine σ} {files files' : Store} {input output : String}
    (h : e.compileFile setup files input output = (.ok b, files', e')) :
    e'.silent = e.silent ∧ files.read input = .ok b.source ∧
      files.write output b.text = .ok files' ∧ ∃ p, b.Faithful setup.registry p := by
  unfold compileFile at h
  split at h
  · cases h
  cases hread : files.read input with
  | error cause =>
      rw [hread] at h
      cases h
  | ok source =>
      cases hparse : Chord.parseSource source with
      | error cause =>
          simp only [hread, parseSource, hparse] at h
          cases h
      | ok p =>
          simp only [hread, parseSource, hparse, Except.mapError] at h
          -- The engine that verifies has only more notes.
          generalize hnoted : (if p.others.isEmpty = true then e.noteAll (sourceNotes source)
            else (e.noteAll (sourceNotes source)).note _ _) = noted at h
          have hsilent : noted.silent = e.silent := by
            rw [← hnoted]
            split
            · exact silent_noteAll e _
            · rw [silent_note, silent_noteAll]
          obtain ⟨hverified, hbindable⟩ := verify_spec setup p.bindings
            (fun s hs => exists_bind_of_mem_bindings hparse hs) noted
          rcases hverify : noted.verify setup p.bindings with ⟨⟨entries, failures⟩, verified⟩
          rw [hverify] at h hverified hbindable
          cases failures with
          | cons failure failures => cases h
          | nil =>
              obtain ⟨hbindable, hkeys⟩ := hbindable rfl
              simp only at h
              split at h
              · cases h
              · rename_i files'' hwrite
                cases h
                refine ⟨?_, rfl, hwrite, p, rfl, rfl, hparse, hbindable, hkeys⟩
                rw [silent_note]
                exact hverified.trans hsilent

/-- A script whose bindings can be compiled becomes a bundle, if that can be written. -/
theorem compileFile_of_verify {e : Engine σ} {files files' : Store} {input output : String}
    (hmode : e.mode = .aheadOfTime) (hread : files.read input = .ok b.source)
    (hparse : Chord.parseSource b.source = .ok p) (hformat : b.format = Bundle.currentFormat)
    (hversion : b.version = Bundle.currentVersion)
    (hverify : ∀ e : Engine σ, ∃ e', e.verify setup p.bindings = ((b.bindings, []), e'))
    (hwrite : files.write output b.text = .ok files') :
    ∃ e', e.compileFile setup files input output = (.ok b, files', e') := by
  have hmode : (e.mode != .aheadOfTime) = false := by simp [hmode]
  simp only [compileFile, hmode, hread, parseSource, hparse, Except.mapError, Bool.false_eq_true,
    if_false]
  generalize (if p.others.isEmpty = true then e.noteAll _ else Engine.note _ _ _) = noted
  obtain ⟨e', hverified⟩ := hverify noted
  rw [hverified, ← hformat, ← hversion]
  simp only [hwrite]
  exact ⟨_, rfl⟩

/-- Loading a faithful bundle binds the bindings of its source, in a compiled mode. -/
theorem install_faithful (h : b.Faithful setup.registry p) (e : Engine σ) :
    ∃ e' : Engine σ,
      e'.silent = ({ e with mode := if e.mode.isInterpreter then .aheadOfTime else e.mode }
        : Engine σ).silent ∧
      e.install setup b = e'.bindAll setup p.bindings := by
  have hformat : (b.format != Bundle.currentFormat) = false := by simp [h.format]
  have hversion : (b.version != Bundle.currentVersion) = false := by simp [h.version]
  have hkeys : (b.bindings.map (·.normalized) !=
      p.bindings.map fun s => normalize (s.hotkeyText?.getD "")) = false := by
    rw [h.keys]
    exact bne_self_eq_false _
  simp only [install, hformat, hversion, parseSource, h.parse, Except.mapError, hkeys,
    Bool.false_eq_true, if_false]
  generalize sourceNotes b.source = notes
  refine ⟨_, ?_, rfl⟩
  have hmode : (e.noteAll notes).mode = e.mode := rfl
  rw [hmode]
  cases e.mode.isInterpreter with
  | true => exact silent_setMode .aheadOfTime (e.noteAll notes)
  | false => rfl

/-- Registering a script in a compiled mode binds its bindings. -/
theorem register_compiled {source : String} (hparse : Chord.parseSource source = .ok p)
    {e : Engine σ} (hmode : e.mode.isInterpreter = false) :
    ∃ e' : Engine σ, e'.silent = e.silent ∧
      e.register setup source = e'.bindAll setup p.bindings := by
  simp only [register, parseSource, hparse, Except.mapError]
  generalize sourceNotes source = notes
  generalize (p.others.map fun s => (_ : Note)) = warnings
  have hmode' : ((e.noteAll notes).noteAll warnings).mode.isInterpreter = false := hmode
  rw [hmode']
  refine ⟨_, ?_, rfl⟩
  rw [silent_noteAll, silent_noteAll]

/-- **Bundles come back.** A compilation that succeeds leaves its engine as it was, the journal
aside. From then on every engine on every host loads the bundle: it binds the hotkeys that the
bundle lists, which are those of the script, to what registering the script in a compiled mode binds
them to. Interpreted bindings and variables stay, and only the interpreter changes its mode. Running
the bundle file does the same and gives null. Line numbers have 64 bits in the file. -/
theorem loadBundle_compileFile {host : Host σ} {limits : Limits} {e e' : Engine σ}
    {files files' : Store} {input output : String} {b : Bundle}
    (hcompile : e.compileFile ⟨host, .standard host, limits⟩ files input output =
      (.ok b, files', e'))
    (hlines : ∀ entry ∈ b.bindings, entry.line < 0x10000000000000000) :
    e'.silent = e.silent ∧ files.read input = .ok b.source ∧
      ∃ p, Chord.parseSource b.source = .ok p ∧
        b.bindings.map (·.normalized) = p.bindings.map Stmt.key ∧
        ∀ (host' : Host τ) (limits' : Limits) (other : Engine τ) (mode : Mode),
          mode.isInterpreter = false →
          let setup : Setup τ := ⟨host', .standard host', limits'⟩
          let loaded := other.loadBundle setup files' output
          let ran := other.runScript setup files' output
          let registered := ({ other with mode } : Engine τ).register setup b.source
          loaded.1 = .ok (b.bindings.map (·.normalized)) ∧ ran.1 = .ok .null ∧
            registered.1 = .ok (b.bindings.map (·.normalized)) ∧
            loaded.2.actions = registered.2.actions ∧ loaded.2.host = registered.2.host ∧
            loaded.2.bindings = other.bindings ∧ loaded.2.scope = other.scope ∧
            loaded.2.mode = (if other.mode.isInterpreter then .aheadOfTime else other.mode) ∧
            ran.2.silent = loaded.2.silent := by
  obtain ⟨hsame, hread, hwrite, p, hfaithful⟩ := compileFile_faithful hcompile
  refine ⟨hsame, hread, p, hfaithful.parse, hfaithful.keys, ?_⟩
  intro host' limits' other mode hmode setup loaded ran registered
  have hfaithful' : b.Faithful setup.registry p := hfaithful.standard host'
  -- The file has the text of the bundle, and the text has the bundle.
  have hfile : files'.read output = .ok b.text := Store.read_of_write hwrite
  have htext : Bundle.ofText? b.text = some b := by
    refine Bundle.ofText?_text ?_ hlines
    rw [hfaithful.version]
    decide
  have hloaded : loaded = other.install setup b := by
    simp only [loaded, loadBundle, hfile, htext]
  obtain ⟨noted, hnoted, hran⟩ : ∃ noted : Engine τ, noted.silent = other.silent ∧
      ran = ((noted.install setup b).1.map fun _ => .null, (noted.install setup b).2) := by
    simp only [ran, runScript, hfile, htext]
    exact ⟨_, silent_note other _ _, rfl⟩
  -- All three bind the bindings of the script in engines that differ in mode and journal only.
  obtain ⟨e₁, he₁, hinstall₁⟩ := install_faithful hfaithful' other
  obtain ⟨e₂, he₂, hinstall₂⟩ := install_faithful hfaithful' noted
  obtain ⟨e₃, he₃, hregister⟩ : ∃ e₃ : Engine τ,
      e₃.silent = ({ other with mode } : Engine τ).silent ∧
        registered = e₃.bindAll setup p.bindings :=
    register_compiled hfaithful.parse hmode
  have he₂ : e₂.silent = e₁.silent := by
    rw [he₁, he₂]
    exact congrArg (fun e : Engine τ =>
      { e with mode := if e.mode.isInterpreter then .aheadOfTime else e.mode }) hnoted
  obtain ⟨hkeys₁, hbound₁⟩ := bindAll_bindable hfaithful'.bindable he₁
  obtain ⟨hkeys₂, hbound₂⟩ := bindAll_bindable hfaithful'.bindable (he₂.trans he₁)
  obtain ⟨hkeys₃, hbound₃⟩ := bindAll_bindable hfaithful'.bindable he₃
  rw [hloaded, hran, hregister, hinstall₁, hinstall₂, hkeys₁, hkeys₂, hkeys₃, hfaithful.keys]
  have hframe := bindAll_eq setup p.bindings other
  refine ⟨rfl, rfl, rfl, ?_, ?_, ?_, ?_, ?_, hbound₂.trans hbound₁.symm⟩
  · exact (congrArg (·.actions) hbound₁).trans (congrArg (·.actions) hbound₃).symm
  · exact (congrArg (·.host) hbound₁).trans (congrArg (·.host) hbound₃).symm
  · exact (congrArg (·.bindings) hbound₁).trans (congrArg (·.bindings) hframe)
  · exact (congrArg (·.scope) hbound₁).trans (congrArg (·.scope) hframe)
  · exact congrArg (·.mode) hbound₁

/-- Two spellings of one hotkey below a statement that no bundle runs. -/
def overlaidSource : String :=
  "let a\n^a => send \"é\"\nCtrl+A => send \"y\""

/-- The program of `overlaidSource`. -/
def overlaidProgram : Program where
  statements := [
    .assign "a" none,
    .bind (.hotkey "^a") (.expr (.call (.identifier "send") [.string "é"])) 2,
    .bind (.hotkey "Ctrl+A") (.expr (.call (.identifier "send") [.string "y"])) 3]

/-- The bundle that `overlaidSource` is compiled to. -/
def overlaidBundle : Bundle where
  format := Bundle.currentFormat
  version := Bundle.currentVersion
  bindings := [⟨"^a", normalize "^a", 2⟩, ⟨"Ctrl+A", normalize "Ctrl+A", 3⟩]
  source := overlaidSource

theorem loadBundle_overlaid :
    let setup : Setup Desktop := ⟨Desktop.host, .standard Desktop.host, ⟨256, 10⟩⟩
    ∃ files files' e', Store.empty.write "s" overlaidSource = .ok files ∧
      (start .aheadOfTime (.fresh "" [])).compileFile setup files "s" "b" =
        (.ok overlaidBundle, files', e') ∧
      ((start .interpreter (.fresh "" [])).loadBundle setup files' "b").1 =
        .ok ["Ctrl+A", "Ctrl+A"] := by
  intro setup
  have htokens : tokenize overlaidSource = [
      ⟨.letWord, "let", ⟨1, 1⟩⟩, ⟨.identifier, "a", ⟨1, 5⟩⟩, ⟨.newline, "\n", ⟨1, 6⟩⟩,
      ⟨.hotkey, "^a", ⟨2, 1⟩⟩, ⟨.arrow, "=>", ⟨2, 4⟩⟩, ⟨.identifier, "send", ⟨2, 7⟩⟩,
      ⟨.string, "é", ⟨2, 12⟩⟩, ⟨.newline, "\n", ⟨2, 15⟩⟩,
      ⟨.hotkey, "Ctrl+A", ⟨3, 1⟩⟩, ⟨.arrow, "=>", ⟨3, 8⟩⟩, ⟨.identifier, "send", ⟨3, 11⟩⟩,
      ⟨.string, "y", ⟨3, 16⟩⟩, ⟨.eof, "", ⟨3, 19⟩⟩] := by decide +kernel
  have hparse : Chord.parseSource overlaidSource = .ok overlaidProgram := by
    unfold Chord.parseSource
    rw [htokens]
    rfl
  obtain ⟨hscript, hbundle⟩ : Store.parts "s" = ["s"] ∧ Store.parts "b" = ["b"] := by
    constructor
    all_goals
      rw [Store.parts, String.splitOn, if_neg (by decide), String.splitOnAux.eq_def,
        if_neg (by decide), if_neg (by decide), String.splitOnAux.eq_def, if_pos (by decide)]
      decide +kernel
  let files : Store := { files := Table.empty.insert "s" overlaidSource.toUTF8 }
  have hin : Store.empty.write "s" overlaidSource = .ok files := by
    refine Store.writeBytes_eq_ok.2 ?_
    rw [hscript]
    exact ⟨by decide +kernel, by decide +kernel, by decide +kernel, by decide +kernel, rfl⟩
  let files' : Store := { files := files.files.insert "b" overlaidBundle.text.toUTF8 }
  have hout : files.write "b" overlaidBundle.text = .ok files' := by
    refine Store.writeBytes_eq_ok.2 ?_
    rw [hbundle]
    exact ⟨by decide +kernel, by decide +kernel, by decide +kernel, by decide +kernel, rfl⟩
  obtain ⟨e', hcompile⟩ : ∃ e', (start .aheadOfTime (.fresh "" [])).compileFile setup files "s"
      "b" = (.ok overlaidBundle, files', e') :=
    compileFile_of_verify rfl (Store.read_of_write hin) hparse rfl rfl (fun _ => ⟨_, rfl⟩) hout
  refine ⟨files, files', e', hin, hcompile, ?_⟩
  obtain ⟨-, -, p, -, -, hload⟩ := loadBundle_compileFile hcompile (by decide)
  have hloaded := hload Desktop.host ⟨256, 10⟩ (start .interpreter (.fresh "" [])) .jit rfl
  have hkey : normalize "^a" = "Ctrl+A" := by decide +kernel
  have hkey' : normalize "Ctrl+A" = "Ctrl+A" := by decide +kernel
  rw [hloaded.1, overlaidBundle, List.map_cons, List.map_cons, hkey, hkey']
  rfl

end Engine

end Chord
