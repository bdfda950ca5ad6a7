import Chord.Proofs.Library
import Chord.Proofs.Table
import Mathlib.Data.List.Induction

/-!
# What a registry remembers

A registry is told of one function after the other. It numbers them in that order and keeps them all
under their numbers. Under a module and a name it keeps the number of the last one only.

**Input.** A list of registrations, carried out from the registry without functions.

**Algorithm.** The list is taken apart at its end. One more registration adds one function at the
next number and changes what is found under one module and one name (`find?_register_self`,
`Filed.find?_register_of_ne`, `mem_functionNames_register`).

**Results.** `enterAll_recorded`: numbers, look-ups and listings are all read off the list of
registrations, as `Recorded` says.
-/

namespace Chord

variable {σ : Type}

/-! ## Registrations -/

namespace Registration

/-- The module that a function is registered for. -/
def module : Registration σ → String
  | .member module _ _ _ => module
  | .global _ _ _ => globalModule

/-- The name that a function is registered under. -/
def name : Registration σ → String
  | .member _ name _ _ => name
  | .global name _ _ => name

/-- The function that is registered, with its number. -/
def entry (id : Nat) : Registration σ → Builtin σ
  | .member module name arity body => ⟨id, module, name, arity, body⟩
  | .global name arity body => ⟨id, globalModule, name, arity, body⟩

/-- Whether a registration is for a module and a name. -/
def IsFor (call : Registration σ) (module name : String) : Prop :=
  call.module = module ∧ call.name = name

end Registration

/-- The function of the last registration for a module and a name. -/
def LastEntry (calls : List (Registration σ)) (module name : String) (b : Builtin σ) : Prop :=
  ∃ earlier call later, calls = earlier ++ call :: later ∧ call.IsFor module name ∧
    (∀ other ∈ later, ¬other.IsFor module name) ∧ b = call.entry earlier.length

namespace LastEntry

variable {calls : List (Registration σ)} {call : Registration σ} {module name : String}
  {b : Builtin σ}

theorem concat_self (h : call.IsFor module name) :
    LastEntry (calls ++ [call]) module name b ↔ call.entry calls.length = b := by
  constructor
  · rintro ⟨earlier, last, later, hsplit, hlast, hlater, rfl⟩
    rcases List.eq_nil_or_concat later with rfl | ⟨later, other, rfl⟩
    · obtain ⟨rfl, hcall⟩ := List.append_inj' hsplit rfl
      cases hcall
      rfl
    · rw [List.concat_eq_append, ← List.cons_append, ← List.append_assoc] at hsplit
      obtain ⟨-, hcall⟩ := List.append_inj' hsplit rfl
      cases hcall
      exact absurd h (hlater call (by simp))
  · rintro rfl
    exact ⟨calls, call, [], rfl, h, List.forall_mem_nil _, rfl⟩

theorem concat_of_not (h : ¬call.IsFor module name) :
    LastEntry (calls ++ [call]) module name b ↔ LastEntry calls module name b := by
  constructor
  · rintro ⟨earlier, last, later, hsplit, hlast, hlater, rfl⟩
    rcases List.eq_nil_or_concat later with rfl | ⟨later, other, rfl⟩
    · obtain ⟨-, hcall⟩ := List.append_inj' hsplit rfl
      cases hcall
      exact absurd hlast h
    · rw [List.concat_eq_append, ← List.cons_append, ← List.append_assoc] at hsplit
      obtain ⟨rfl, -⟩ := List.append_inj' hsplit rfl
      exact ⟨earlier, last, later, rfl, hlast, fun d hd => hlater d (by simp [hd]), rfl⟩
  · rintro ⟨earlier, last, later, rfl, hlast, hlater, rfl⟩
    refine ⟨earlier, last, later ++ [call], by simp, hlast, ?_, rfl⟩
    exact List.forall_mem_append.2 ⟨hlater, List.forall_mem_singleton.2 h⟩

end LastEntry

namespace Registry

/-! ## One registration -/

section Register

variable (r : Registry σ) (module name : String) (arity : Nat) (body : List Value → σ → Effect σ)

theorem modules_register :
    (r.register module name arity body).modules =
      r.modules.insert module
        (((r.modules.get? module).getD .empty).insert name r.builtins.size) :=
  rfl

theorem functionNames_register_self :
    (r.register module name arity body).functionNames module =
      (((r.modules.get? module).getD .empty).insert name r.builtins.size).keys := by
  rw [functionNames, modules_register, Table.get?_insert_self]
  rfl

theorem functionNames_register_of_ne {other : String} (h : other ≠ module) :
    (r.register module name arity body).functionNames other = r.functionNames other := by
  rw [functionNames, modules_register, Table.get?_insert_of_ne _ h]
  rfl

theorem mem_functionNames_register {other function : String} :
    function ∈ (r.register module name arity body).functionNames other ↔
      (module = other ∧ name = function) ∨ function ∈ r.functionNames other := by
  by_cases hother : other = module
  · subst hother
    rw [functionNames_register_self, Table.mem_keys_insert, eq_comm (a := function)]
    simp [functionNames]
  · rw [functionNames_register_of_ne r module name arity body hother]
    simp [Ne.symm hother]

theorem find?_register_self :
    (r.register module name arity body).find? module name =
      some ⟨r.builtins.size, module, name, arity, body⟩ := by
  have hid : ((r.register module name arity body).modules.get? module).bind (·.get? name) =
      some r.builtins.size := by
    rw [modules_register, Table.get?_insert_self]
    exact Table.get?_insert_self _ name _
  rw [find?, hid]
  exact get?_register_self r module name arity body

variable {r module name}

/-- What is found under another module or another name stays what it was. -/
theorem Filed.find?_register_of_ne (hfiled : r.Filed) {other function : String}
    (hne : ¬(module = other ∧ name = function)) :
    (r.register module name arity body).find? other function = r.find? other function := by
  have hid : ((r.register module name arity body).modules.get? other).bind (·.get? function) =
      (r.modules.get? other).bind (·.get? function) := by
    rw [modules_register]
    by_cases hother : other = module
    · subst hother
      have hfunction : function ≠ name := fun heq => hne ⟨rfl, heq.symm⟩
      rw [Table.get?_insert_self, Option.bind_some, Table.get?_insert_of_ne _ hfunction]
      cases r.modules.get? other with
      | none => rfl
      | some table => rfl
    · rw [Table.get?_insert_of_ne _ hother]
  rw [find?, find?, hid]
  -- The number was given out earlier, and what stands under it is not touched.
  cases hfound : (r.modules.get? other).bind (·.get? function) with
  | none => rfl
  | some id =>
      obtain ⟨b, hb, -⟩ := hfiled hfound
      rw [Option.bind_some, Option.bind_some, hb]
      exact get?_register_of_some hb module name arity body

end Register

/-! ## Listings of a registry -/

/-- A name is listed exactly if a function is found under it. -/
theorem Filed.mem_functionNames_iff {r : Registry σ} (h : r.Filed) {module name : String} :
    name ∈ r.functionNames module ↔ ∃ b, r.find? module name = some b := by
  rw [functionNames, Table.mem_keys_iff, find?]
  cases htable : r.modules.get? module with
  | none => simp
  | some table =>
      rw [Option.getD_some, Option.bind_some]
      constructor
      · rintro ⟨id, hid⟩
        obtain ⟨b, hb, -⟩ := h (by rw [htable]; exact hid)
        exact ⟨b, by rw [hid]; exact hb⟩
      · rintro ⟨b, hb⟩
        obtain ⟨id, hid, -⟩ := Option.bind_eq_some_iff.1 hb
        exact ⟨id, hid⟩

/-- The functions without a module are found one by one under their names. -/
theorem globals_eq (r : Registry σ) :
    r.globals = (r.functionNames globalModule).filterMap r.lookupGlobal := by
  unfold globals functionNames
  have hfound : ∀ name, r.lookupGlobal name =
      (((r.modules.get? globalModule).getD .empty).get? name).bind r.get? := by
    intro name
    unfold lookupGlobal find?
    cases r.modules.get? globalModule with
    | none => rfl
    | some table => rfl
  generalize (r.modules.get? globalModule).getD .empty = table at hfound
  rw [Table.values, Table.keys, List.filterMap_map, List.filterMap_map]
  refine List.filterMap_congr fun entry hentry => ?_
  rw [Function.comp_apply, Function.comp_apply, hfound, Table.get?_of_mem_entries hentry]
  rfl

theorem Built.mem_globals_iff {r : Registry σ} (h : r.Built) {b : Builtin σ} :
    b ∈ r.globals ↔ r.lookupGlobal b.name = some b := by
  rw [globals_eq, List.mem_filterMap]
  constructor
  · rintro ⟨name, -, hfind⟩
    rwa [(h.module_eq_of_find? hfind).2]
  · intro hfind
    exact ⟨b.name, h.filed.mem_functionNames_iff.2 ⟨b, hfind⟩, hfind⟩

theorem Built.map_name_globals {r : Registry σ} (h : r.Built) :
    r.globals.map Builtin.name = r.functionNames globalModule := by
  rw [globals_eq, List.map_filterMap]
  refine (List.filterMap_congr fun name hname => ?_).trans List.filterMap_some
  obtain ⟨b, hb⟩ := h.filed.mem_functionNames_iff.1 hname
  have hlookup : r.lookupGlobal name = some b := hb
  rw [hlookup, Option.map_some, (h.module_eq_of_find? hb).2]

/-! ## Several registrations -/

/-- The registry after some registrations. -/
def after (calls : List (Registration σ)) : Registry σ :=
  ((empty : Registry σ).enterAll calls).2

theorem enterAll_append (r : Registry σ) (calls more : List (Registration σ)) :
    r.enterAll (calls ++ more) =
      ((r.enterAll calls).1 ++ ((r.enterAll calls).2.enterAll more).1,
        ((r.enterAll calls).2.enterAll more).2) := by
  induction calls generalizing r with
  | nil => rfl
  | cons call calls ih =>
      simp only [List.cons_append, enterAll, ih]

theorem after_append (calls more : List (Registration σ)) :
    after (calls ++ more) = ((after calls).enterAll more).2 := by
  rw [after, enterAll_append]
  rfl

/-- One more registration. -/
theorem exists_register_after (calls : List (Registration σ)) (call : Registration σ) :
    ∃ arity body,
      after (calls ++ [call]) = (after calls).register call.module call.name arity body ∧
      ∀ id, call.entry id = ⟨id, call.module, call.name, arity, body⟩ := by
  rw [after_append]
  cases call with
  | member module name arity body => exact ⟨arity, body, rfl, fun _ => rfl⟩
  | global name arity body => exact ⟨arity, body, rfl, fun _ => rfl⟩

theorem built_after (calls : List (Registration σ)) : (after calls).Built := by
  induction calls using List.reverseRecOn with
  | nil => exact .empty
  | append_singleton calls call ih =>
      obtain ⟨arity, body, hafter, -⟩ := exists_register_after calls call
      rw [hafter]
      exact .register _ _ _ _ ih

theorem size_after (calls : List (Registration σ)) :
    (after calls).builtins.size = calls.length := by
  induction calls using List.reverseRecOn with
  | nil => rfl
  | append_singleton calls call ih =>
      obtain ⟨arity, body, hafter, -⟩ := exists_register_after calls call
      rw [hafter, List.length_append, ← ih]
      exact Array.size_push _

theorem fst_enter (r : Registry σ) (call : Registration σ) :
    (r.enter call).1 = r.builtins.size := by
  cases call <;> rfl

/-- Registrations are answered with consecutive numbers. -/
theorem fst_enterAll (calls : List (Registration σ)) :
    ((empty : Registry σ).enterAll calls).1 = List.range calls.length := by
  induction calls using List.reverseRecOn with
  | nil => rfl
  | append_singleton calls call ih =>
      rw [enterAll_append, List.length_append, List.length_singleton, List.range_succ, ih,
        ← size_after calls, ← fst_enter (after calls) call]
      rfl

theorem get?_after {calls : List (Registration σ)} {i : Nat} {call : Registration σ}
    (h : calls[i]? = some call) : (after calls).get? i = some (call.entry i) := by
  induction calls using List.reverseRecOn with
  | nil => cases h
  | append_singleton calls last ih =>
      obtain ⟨arity, body, hafter, hentry⟩ := exists_register_after calls last
      rw [hafter]
      rcases Nat.lt_or_ge i calls.length with hlt | hge
      · rw [List.getElem?_append_left hlt] at h
        exact get?_register_of_some (ih h) _ _ _ _
      · rw [List.getElem?_append_right hge] at h
        obtain ⟨hlt, rfl⟩ := List.getElem?_eq_some_iff.1 h
        obtain rfl : i = calls.length := by
          rw [List.length_singleton] at hlt
          omega
        rw [List.getElem_singleton, hentry, ← size_after calls]
        exact get?_register_self _ _ _ _ _

/-- **Last registrations**: what is found under a module and a name was registered there last. -/
theorem find?_after {calls : List (Registration σ)} {module name : String} {b : Builtin σ} :
    (after calls).find? module name = some b ↔ LastEntry calls module name b := by
  induction calls using List.reverseRecOn with
  | nil =>
      constructor
      · nofun
      · rintro ⟨earlier, call, later, hsplit, -⟩
        simp at hsplit
  | append_singleton calls call ih =>
      obtain ⟨arity, body, hafter, hentry⟩ := exists_register_after calls call
      rw [hafter]
      by_cases hfor : call.IsFor module name
      · obtain ⟨rfl, rfl⟩ := hfor
        rw [LastEntry.concat_self ⟨rfl, rfl⟩, hentry, ← size_after calls, find?_register_self,
          Option.some.injEq]
      · rw [LastEntry.concat_of_not hfor,
          (built_after calls).filed.find?_register_of_ne arity body hfor, ih]

theorem mem_functionNames_after {calls : List (Registration σ)} {module name : String} :
    name ∈ (after calls).functionNames module ↔ ∃ call ∈ calls, call.IsFor module name := by
  induction calls using List.reverseRecOn with
  | nil => exact ⟨nofun, nofun⟩
  | append_singleton calls call ih =>
      obtain ⟨arity, body, hafter, -⟩ := exists_register_after calls call
      rw [hafter, mem_functionNames_register, ih]
      simp [Registration.IsFor, or_and_right, exists_or, or_comm]

theorem mem_modules_after {calls : List (Registration σ)} {module : String} :
    module ∈ (after calls).modules.keys ↔ ∃ call ∈ calls, call.module = module := by
  induction calls using List.reverseRecOn with
  | nil => exact ⟨nofun, nofun⟩
  | append_singleton calls call ih =>
      obtain ⟨arity, body, hafter, -⟩ := exists_register_after calls call
      rw [hafter, modules_register, Table.mem_keys_insert, ih]
      simp [or_and_right, exists_or, or_comm, eq_comm]

theorem mem_moduleNames_after {calls : List (Registration σ)} {module : String} :
    module ∈ (after calls).moduleNames ↔
      module ≠ globalModule ∧ ∃ call ∈ calls, call.module = module := by
  rw [moduleNames, List.mem_filter, mem_modules_after, bne_iff_ne, and_comm]

theorem hasModule_after {calls : List (Registration σ)} {module : String} :
    (after calls).hasModule module = true ↔
      module ≠ globalModule ∧ ∃ call ∈ calls, call.module = module := by
  rw [hasModule, Bool.and_eq_true, bne_iff_ne, Table.contains_iff_mem_keys, mem_modules_after]

/-! ## Look-ups -/

section Lookup

variable {calls : List (Registration σ)} {module name : String}

theorem lookup_after_eq_ok_iff (hmodule : module ≠ globalModule) {b : Builtin σ} :
    (after calls).lookup module name = .ok b ↔ LastEntry calls module name b := by
  rw [← find?_after, lookup]
  split
  · split
    · rename_i b' hfind
      rw [hfind, Except.ok.injEq, Option.some.injEq]
    · rename_i hfind
      rw [hfind]
      exact ⟨nofun, nofun⟩
  · rename_i hnone
    refine ⟨nofun, fun hfind => absurd (hasModule_after.2 ⟨hmodule, ?_⟩) hnone⟩
    obtain ⟨call, hcall, hfor⟩ := mem_functionNames_after.1
      ((built_after calls).filed.mem_functionNames_iff.2 ⟨b, hfind⟩)
    exact ⟨call, hcall, hfor.1⟩

theorem lookup_after_eq_unknownModule_iff (hmodule : module ≠ globalModule) :
    (after calls).lookup module name = .error (.unknownModule module) ↔
      ∀ call ∈ calls, call.module ≠ module := by
  have hhas := @hasModule_after _ calls module
  rw [lookup]
  split
  · rename_i hsome
    obtain ⟨-, call, hcall, heq⟩ := hhas.1 hsome
    split <;> exact ⟨nofun, fun h => absurd heq (h call hcall)⟩
  · rename_i hnone
    refine ⟨fun _ call hcall heq => ?_, fun _ => rfl⟩
    exact hnone (hhas.2 ⟨hmodule, call, hcall, heq⟩)

theorem lookup_after_eq_unknownFunction_iff (hmodule : module ≠ globalModule) :
    (after calls).lookup module name = .error (.unknownFunction module name) ↔
      (∃ call ∈ calls, call.module = module) ∧ ∀ call ∈ calls, ¬call.IsFor module name := by
  have hhas := @hasModule_after _ calls module
  have hnames := @mem_functionNames_after _ calls module name
  rw [(built_after calls).filed.mem_functionNames_iff] at hnames
  rw [lookup]
  split
  · rename_i hsome
    split
    · rename_i b hfind
      obtain ⟨call, hcall, hfor⟩ := hnames.1 ⟨b, hfind⟩
      exact ⟨nofun, fun h => absurd hfor (h.2 call hcall)⟩
    · rename_i hfind
      refine ⟨fun _ => ⟨(hhas.1 hsome).2, fun call hcall hfor => ?_⟩, fun _ => rfl⟩
      obtain ⟨b, hb⟩ := hnames.2 ⟨call, hcall, hfor⟩
      cases hfind.symm.trans hb
  · rename_i hnone
    exact ⟨nofun, fun h => absurd (hhas.2 ⟨hmodule, h.1⟩) hnone⟩

end Lookup

/-! ## The record of a registry -/

/-- What the numbers `ids` and the registry `r` tell of the registrations `calls` they came from. -/
structure Recorded (calls : List (Registration σ)) (ids : List Nat) (r : Registry σ) : Prop where
  /-- Registrations are answered with the numbers from zero on. -/
  numbers : ids = List.range calls.length
  /-- Under its number a function stays, whatever is registered later. -/
  kept : ∀ i call, calls[i]? = some call →
    ∀ more, (r.enterAll more).2.get? i = some (call.entry i)
  /-- A function of a module is the one registered last. -/
  found : ∀ module name b, module ≠ globalModule →
    (r.lookup module name = .ok b ↔ LastEntry calls module name b)
  /-- A module is unknown exactly if nothing was registered in it. -/
  noModule : ∀ module name, module ≠ globalModule →
    (r.lookup module name = .error (.unknownModule module) ↔ ∀ call ∈ calls, call.module ≠ module)
  /-- In all other cases the function is unknown. -/
  noFunction : ∀ module name, module ≠ globalModule →
    (r.lookup module name = .error (.unknownFunction module name) ↔
      (∃ call ∈ calls, call.module = module) ∧ ∀ call ∈ calls, ¬call.IsFor module name)
  /-- The functions without a module are in no module that could be named. -/
  hidden : ∀ name, r.lookup globalModule name = .error (.unknownModule globalModule)
  /-- A function without a module is the one registered last. -/
  bare : ∀ name b, r.lookupGlobal name = some b ↔ LastEntry calls globalModule name b
  /-- The modules are listed once each, ascending. -/
  modules : r.moduleNames.Pairwise (· < ·) ∧ ∀ module,
    module ∈ r.moduleNames ↔ module ≠ globalModule ∧ ∃ call ∈ calls, call.module = module
  /-- The functions of a module are listed once each, ascending. -/
  functions : ∀ module, (r.functionNames module).Pairwise (· < ·) ∧ ∀ name,
    name ∈ r.functionNames module ↔ ∃ call ∈ calls, call.IsFor module name
  /-- The functions without a module are listed once each, by ascending name, as they are found. -/
  globals : (r.globals.map Builtin.name).Pairwise (· < ·) ∧
    (∀ name, name ∈ r.globals.map Builtin.name ↔ ∃ call ∈ calls, call.IsFor globalModule name) ∧
    ∀ b ∈ r.globals, LastEntry calls globalModule b.name b

/-- **Registries record their registrations**: after any sequence of registrations, the numbers they
were answered with, everything that is looked up and everything that is listed are those of the
sequence. -/
theorem enterAll_recorded (calls : List (Registration σ)) :
    Recorded calls ((empty : Registry σ).enterAll calls).1
      ((empty : Registry σ).enterAll calls).2 where
  numbers := fst_enterAll calls
  kept := by
    intro i call hcall more
    have hlonger : (calls ++ more)[i]? = some call :=
      (List.getElem?_append_left (List.getElem?_eq_some_iff.1 hcall).1).trans hcall
    have hkept := get?_after hlonger
    rwa [after_append] at hkept
  found := fun _ _ _ hmodule => lookup_after_eq_ok_iff hmodule
  noModule := fun _ _ hmodule => lookup_after_eq_unknownModule_iff hmodule
  noFunction := fun _ _ hmodule => lookup_after_eq_unknownFunction_iff hmodule
  hidden := by
    intro name
    rw [lookup, hasModule, bne_self_eq_false, Bool.false_and, if_neg Bool.false_ne_true]
  bare := fun _ _ => find?_after
  modules := ⟨(Table.keys_sorted _).filter _, fun _ => mem_moduleNames_after⟩
  functions := fun _ => ⟨Table.keys_sorted _, fun _ => mem_functionNames_after⟩
  globals := by
    have hnames := (built_after calls).map_name_globals
    refine ⟨?_, fun name => ?_, fun b hb => ?_⟩
    · exact hnames ▸ Table.keys_sorted _
    · exact (iff_of_eq (congrArg (name ∈ ·) hnames)).trans mem_functionNames_after
    · exact find?_after.1 ((built_after calls).mem_globals_iff.1 hb)

end Registry
end Chord
