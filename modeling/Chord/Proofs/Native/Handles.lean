import Chord.Proofs.Native.Link

/-!
# Handles are stable

Compiled code never sees a value. It is given handles by the operations on its frame and passes them
on to later operations, and nothing checks what it passes.

**Input.** A fresh frame, and operations on it in any order and with any integers.

**Algorithm.** `Frame.result?` says what an operation comes to. An operation with a result appends
its value or records its fault, and only a call moves the desk on (`perform_of_result?`); one
without a result leaves the frame alone. What a whole run appends and records follows by induction
on the operations (`performAll_precedes`, `values_performAll`, `error_performAll`).

**Results.** `handles_stable`: along every run each handle stands for the value that it was given
out for, all other integers read as null, and the run finishes with the fault recorded last or with
the value of a handle, as `Stable` says.
-/

namespace Chord
namespace Native

variable {σ : Type}

/-! ## Operations -/

/-- An operation on a frame with its operands, which may be any integers. -/
inductive Operation where
  | const (index : Int)
  | bool (flag : Int)
  | truthy (handle : Int)
  | binary (code left right : Int)
  | call (id count a b c : Int)
  | raise (index : Int)
deriving DecidableEq, Repr

/-- The values among some results, in order. -/
def appended (results : List (Except Fault Value)) : List Value :=
  results.filterMap fun
    | .ok v => some v
    | .error _ => none

/-- The faults among some results, in order. -/
def recorded (results : List (Except Fault Value)) : List Fault :=
  results.filterMap fun
    | .ok _ => none
    | .error cause => some cause

namespace Frame

/-- Carries out an operation: the integer that it answers with, and the frame after it. -/
def perform (f : Frame σ) : Operation → Int × Frame σ
  | .const index => f.const index
  | .bool flag => f.bool flag
  | .truthy handle => (f.truthy handle, f)
  | .binary code left right => f.binary code left right
  | .call id count a b c => f.call id count a b c
  | .raise index => f.raise index

/-- The frame after operations in order. -/
def performAll (f : Frame σ) (os : List Operation) : Frame σ :=
  os.foldl (fun f o => (f.perform o).2) f

/-- The built-in function that an integer is the number of. -/
def builtin? (f : Frame σ) (id : Int) : Option (Builtin σ) :=
  if id < 0 then none else f.registry.get? id.toNat

/-- What the first `count` of three handles stand for. -/
def arguments (f : Frame σ) (count a b c : Int) : List Value :=
  ([a, b, c].take (min count.toNat maxCallArgs)).map f.get

/-- What the operator with a code makes of the values of two handles. -/
def applied (f : Frame σ) (code left right : Int) : Except Fault Value :=
  match BinOp.ofCode? code with
  | some op => applyBinOp op (f.get left) (f.get right)
  | none => .error (.host ("invalid operator code " ++ toString code))

/-- What the function with a number answers, and the desk after it. -/
def called (f : Frame σ) (id count a b c : Int) : Except Fault Value × Desk σ :=
  match f.builtin? id with
  | some builtin => f.desk.call builtin (f.arguments count a b c)
  | none => (.error (.host ("invalid builtin id " ++ toString id)), f.desk)

/-- What an operation comes to: a value or a fault. Telling a truth comes to neither. -/
def result? (f : Frame σ) : Operation → Option (Except Fault Value)
  | .const index => some (.ok ((itemAt? f.constants index).getD .null))
  | .bool flag => some (.ok (.boolean (flag != 0)))
  | .truthy _ => none
  | .binary code left right => some (f.applied code left right)
  | .call id count a b c => some (f.called id count a b c).1
  | .raise index =>
      some (.error ((itemAt? f.failures index).getD
        (.host ("invalid failure index " ++ toString index))))

/-- What operations in order come to, the truths they tell aside. -/
def results (f : Frame σ) : List Operation → List (Except Fault Value)
  | [] => []
  | o :: os => (f.result? o).toList ++ (f.perform o).2.results os

/-- An operation calls a function of the registry, which leaves a desk. -/
def Calls (f : Frame σ) (o : Operation) (desk : Desk σ) : Prop :=
  ∃ id count a b c builtin, o = .call id count a b c ∧ f.builtin? id = some builtin ∧
    (f.desk.call builtin (f.arguments count a b c)).2 = desk

variable {f : Frame σ} {o : Operation}

/-! ## One operation -/

theorem binary_eq (f : Frame σ) (code left right : Int) :
    f.binary code left right = f.settle (f.applied code left right) := by
  simp only [binary, applied]
  cases BinOp.ofCode? code with
  | some op => rfl
  | none => rfl

theorem call_eq (f : Frame σ) (id count a b c : Int) :
    f.call id count a b c =
      settle { f with desk := (f.called id count a b c).2 } (f.called id count a b c).1 := by
  simp only [call, called, builtin?]
  cases (if id < 0 then none else f.registry.get? id.toNat) with
  | some builtin => rfl
  | none => rfl

/-- The desk moves on only where a function is called. -/
theorem calls_of_called (f : Frame σ) (id count a b c : Int) :
    (f.called id count a b c).2 = f.desk ∨
      f.Calls (.call id count a b c) (f.called id count a b c).2 := by
  simp only [called]
  cases hbuiltin : f.builtin? id with
  | some builtin => exact .inr ⟨id, count, a, b, c, builtin, rfl, hbuiltin, rfl⟩
  | none => exact .inl rfl

/-- An operation with a result settles it, after the desk has moved on if it is a call. -/
theorem perform_of_result? {result : Except Fault Value} (h : f.result? o = some result) :
    ∃ desk, f.perform o = settle { f with desk } result ∧ (desk = f.desk ∨ f.Calls o desk) := by
  cases o with
  | const index =>
      cases h
      exact ⟨f.desk, rfl, .inl rfl⟩
  | bool flag =>
      cases h
      exact ⟨f.desk, rfl, .inl rfl⟩
  | truthy handle => cases h
  | binary code left right =>
      cases h
      exact ⟨f.desk, f.binary_eq code left right, .inl rfl⟩
  | call id count a b c =>
      cases h
      exact ⟨_, f.call_eq id count a b c, f.calls_of_called id count a b c⟩
  | raise index =>
      cases h
      exact ⟨f.desk, rfl, .inl rfl⟩

/-- An operation without a result leaves the frame as it is. -/
theorem perform_of_result?_eq_none (h : f.result? o = none) : (f.perform o).2 = f := by
  cases o with
  | truthy handle => rfl
  | const | bool | binary | call | raise => cases h

/-- An operation changes the desk only by calling a function. -/
theorem desk_perform (f : Frame σ) (o : Operation) :
    (f.perform o).2.desk = f.desk ∨ f.Calls o (f.perform o).2.desk := by
  cases hresult : f.result? o with
  | none => exact .inl (congrArg Frame.desk (perform_of_result?_eq_none hresult))
  | some result =>
      obtain ⟨desk, hrun, hdesk⟩ := perform_of_result? hresult
      have hsettled : (f.perform o).2.desk = desk := by
        rw [hrun]
        cases result <;> rfl
      rwa [hsettled]

/-- An operation appends one value and answers with its number. -/
def Appends (f : Frame σ) (o : Operation) : Prop :=
  ∃ v, f.result? o = some (.ok v) ∧ (f.perform o).1 = f.values.size ∧
    (f.perform o).2.values = f.values.push v ∧ (f.perform o).2.error = f.error

/-- An operation records a fault, appends nothing and answers with `failed`. -/
def Fails (f : Frame σ) (o : Operation) : Prop :=
  ∃ cause, f.result? o = some (.error cause) ∧ (f.perform o).1 = failed ∧
    (f.perform o).2.values = f.values ∧ (f.perform o).2.error = some cause

/-- How operations are answered. Only operators and calls can go either way. -/
def Answers (f : Frame σ) (o : Operation) : Prop :=
  match o with
  | .const _ | .bool _ => f.Appends o
  | .binary _ _ _ | .call _ _ _ _ _ => f.Appends o ∨ f.Fails o
  | .truthy _ => ((f.perform o).1 = 0 ∨ (f.perform o).1 = 1) ∧ (f.perform o).2 = f
  | .raise _ => f.Fails o

theorem appends_of_result? {v : Value} (h : f.result? o = some (.ok v)) : f.Appends o := by
  obtain ⟨desk, hrun, -⟩ := perform_of_result? h
  rw [Appends, hrun]
  exact ⟨v, h, rfl, rfl, rfl⟩

/-- The handle that a value is given out under stands for it. -/
theorem holds_of_result? {v : Value} (h : f.result? o = some (.ok v)) :
    (f.perform o).2.Holds (f.perform o).1 v := by
  obtain ⟨desk, hrun, -⟩ := perform_of_result? h
  rw [hrun]
  exact push_holds _ v

theorem fails_of_result? {cause : Fault} (h : f.result? o = some (.error cause)) : f.Fails o := by
  obtain ⟨desk, hrun, -⟩ := perform_of_result? h
  rw [Fails, hrun]
  exact ⟨cause, h, rfl, rfl, rfl⟩

/-- An operation with a result appends it or fails with it. -/
theorem appends_or_fails {result : Except Fault Value} (h : f.result? o = some result) :
    f.Appends o ∨ f.Fails o := by
  cases result with
  | ok v => exact .inl (appends_of_result? h)
  | error cause => exact .inr (fails_of_result? h)

/-- Every operation is answered as it has to be. -/
theorem perform_answers (f : Frame σ) (o : Operation) : f.Answers o := by
  cases o with
  | const index => exact appends_of_result? rfl
  | bool flag => exact appends_of_result? rfl
  | truthy handle =>
      refine ⟨?_, rfl⟩
      simp only [perform, truthy]
      split
      · exact .inr rfl
      · exact .inl rfl
  | binary code left right => exact appends_or_fails rfl
  | call id count a b c => exact appends_or_fails rfl
  | raise index => exact fails_of_result? rfl

/-- A frame that may come later: it has the same registry and pools, and every handle stands for the
value that it stood for before. -/
structure Precedes (f g : Frame σ) : Prop where
  registry : g.registry = f.registry
  constants : g.constants = f.constants
  failures : g.failures = f.failures
  keeps : f.Keeps g

theorem Precedes.refl (f : Frame σ) : f.Precedes f :=
  ⟨rfl, rfl, rfl, .refl f⟩

theorem Precedes.trans {g k : Frame σ} (hfg : f.Precedes g) (hgk : g.Precedes k) :
    f.Precedes k where
  registry := hgk.registry.trans hfg.registry
  constants := hgk.constants.trans hfg.constants
  failures := hgk.failures.trans hfg.failures
  keeps := hfg.keeps.trans hgk.keeps

theorem perform_precedes (f : Frame σ) (o : Operation) : f.Precedes (f.perform o).2 := by
  cases hresult : f.result? o with
  | none =>
      rw [perform_of_result?_eq_none hresult]
      exact .refl f
  | some result =>
      obtain ⟨desk, hrun, -⟩ := perform_of_result? hresult
      rw [hrun]
      cases result with
      | ok v => exact ⟨rfl, rfl, rfl, push_keeps { f with desk } v⟩
      | error cause => exact ⟨rfl, rfl, rfl, .refl f⟩

theorem values_perform (f : Frame σ) (o : Operation) :
    (f.perform o).2.values.toList = f.values.toList ++ appended (f.result? o).toList := by
  rcases hresult : f.result? o with _ | (cause | v)
  · rw [perform_of_result?_eq_none hresult]
    exact (List.append_nil _).symm
  · obtain ⟨-, -, -, hvalues, -⟩ := fails_of_result? hresult
    rw [hvalues]
    exact (List.append_nil _).symm
  · obtain ⟨desk, hrun, -⟩ := perform_of_result? hresult
    rw [hrun]
    exact Array.toList_push

theorem error_perform (f : Frame σ) (o : Operation) :
    (f.perform o).2.error = (recorded (f.result? o).toList).getLast?.or f.error := by
  rcases hresult : f.result? o with _ | (cause | v)
  · rw [perform_of_result?_eq_none hresult]
    rfl
  · obtain ⟨desk, hrun, -⟩ := perform_of_result? hresult
    rw [hrun]
    rfl
  · obtain ⟨-, -, -, -, herror⟩ := appends_of_result? hresult
    rw [herror]
    rfl

/-! ## Runs of operations -/

theorem performAll_cons (f : Frame σ) (o : Operation) (os : List Operation) :
    f.performAll (o :: os) = (f.perform o).2.performAll os :=
  rfl

theorem performAll_append (f : Frame σ) (earlier later : List Operation) :
    f.performAll (earlier ++ later) = (f.performAll earlier).performAll later :=
  List.foldl_append

theorem performAll_precedes (f : Frame σ) (os : List Operation) :
    f.Precedes (f.performAll os) := by
  induction os generalizing f with
  | nil => exact .refl f
  | cons o os ih => exact (f.perform_precedes o).trans (ih (f.perform o).2)

/-- A run appends its values in the order in which it comes to them. -/
theorem values_performAll (f : Frame σ) (os : List Operation) :
    (f.performAll os).values.toList = f.values.toList ++ appended (f.results os) := by
  induction os generalizing f with
  | nil => exact (List.append_nil _).symm
  | cons o os ih =>
      rw [performAll_cons, ih, values_perform, results, List.append_assoc]
      simp only [appended, List.filterMap_append]

/-- A run remembers the last of its faults. -/
theorem error_performAll (f : Frame σ) (os : List Operation) :
    (f.performAll os).error = (recorded (f.results os)).getLast?.or f.error := by
  induction os generalizing f with
  | nil => rfl
  | cons o os ih =>
      rw [performAll_cons, ih, error_perform, results, ← Option.or_assoc]
      simp only [recorded, List.filterMap_append, List.getLast?_append]

/-! ## Stable handles -/

/-- What the operations `os`, carried out on the frame `start`, leave to be seen. -/
structure Stable (start : Frame σ) (os : List Operation) : Prop where
  /-- An operation is answered with the number of a value that it appends, or it fails. -/
  answers : ∀ earlier o later, os = earlier ++ o :: later → (start.performAll earlier).Answers o
  /-- Registry, pools and the values of all handles stay as they are. -/
  precedes : ∀ earlier later, os = earlier ++ later →
    (start.performAll earlier).Precedes (start.performAll os)
  /-- The handle that a value was given out under stands for it to the end. -/
  given : ∀ earlier o later v, os = earlier ++ o :: later →
    (start.performAll earlier).result? o = some (.ok v) →
    (start.performAll os).Holds ((start.performAll earlier).perform o).1 v
  /-- The desk, and with it the host, changes only where a function is called. -/
  desk : ∀ earlier o later, os = earlier ++ o :: later →
    (start.performAll (earlier ++ [o])).desk = (start.performAll earlier).desk ∨
      (start.performAll earlier).Calls o (start.performAll (earlier ++ [o])).desk
  /-- Null comes first, then the values in the order in which they were appended. -/
  values : (start.performAll os).values.toList = .null :: appended (start.results os)
  /-- The first handle stands for null. -/
  null : (start.performAll os).Holds nullHandle .null
  /-- An integer under which no value was appended reads as null. -/
  others : ∀ handle : Int, ¬(0 < handle ∧ handle ≤ (appended (start.results os)).length) →
    (start.performAll os).get handle = .null
  /-- The run finishes with the fault recorded last, if the handle is `failed`, and else with the
  value that the handle stands for. -/
  finish : ∀ handle, (start.performAll os).finish handle =
    if handle = failed then
      .error ((recorded (start.results os)).getLast?.getD (.host "native action aborted"))
    else .ok ((start.performAll os).get handle)

/-- A frame whose values begin with null has it under the first handle. -/
theorem holds_null {vs : List Value} (h : f.values.toList = .null :: vs) :
    f.Holds nullHandle .null := by
  have hfirst : f.values[0]? = some .null := by
    rw [← Array.getElem?_toList, h]
    rfl
  exact hfirst

/-- An integer under which nothing stands behind that null reads as null too. -/
theorem get_eq_null {vs : List Value} (h : f.values.toList = .null :: vs) {handle : Int}
    (hother : ¬(0 < handle ∧ handle ≤ vs.length)) : f.get handle = .null := by
  have hsize : f.values.size = vs.length + 1 := by
    rw [← Array.length_toList, h, List.length_cons]
  rcases Int.lt_trichotomy handle 0 with hneg | hzero | hpos
  · rw [Frame.get, itemAt?, if_pos hneg]
    rfl
  · rw [hzero]
    exact (holds_null h).get_eq
  · rw [Frame.get, itemAt?, if_neg (by omega), Array.getElem?_eq_none (by omega)]
    rfl

/-- **Handles are stable** along every run of operations on a fresh frame: at each operation of the
run, and at its end. -/
theorem handles_stable (registry : Registry σ) (constants : Array Value) (failures : Array Fault)
    (desk : Desk σ) (os : List Operation) :
    Stable { registry, constants, failures, desk } os where
  answers := by
    intro earlier o later _
    exact perform_answers _ o
  precedes := by
    rintro earlier later rfl
    rw [performAll_append]
    exact performAll_precedes _ later
  given := by
    rintro earlier o later v rfl hresult
    rw [performAll_append, performAll_cons]
    exact (performAll_precedes _ later).keeps _ v (holds_of_result? hresult)
  desk := by
    intro earlier o later _
    rw [performAll_append]
    exact desk_perform _ o
  values := values_performAll _ os
  null := holds_null (values_performAll _ os)
  others := by
    intro handle hother
    exact get_eq_null (values_performAll _ os) hother
  finish := by
    intro handle
    rw [finish_eq, error_performAll, Option.or_none]

/-- The division reads -7 as null and so divides by zero; the call fails after it. The handles of the
two values are not disturbed by either. -/
example :
    let start : Frame Unit :=
      { registry := .empty, constants := #[.integer 1], failures := #[], desk := ⟨(), #[]⟩ }
    let f := start.performAll [.const 0, .binary 9 1 (-7), .bool 5, .call (-1) 9 2 0 failed]
    f.finish failed = .error (.host "invalid builtin id -1") ∧
      f.finish 1 = .ok (.integer 1) ∧ f.finish 2 = .ok (.boolean true) ∧ f.finish 3 = .ok .null :=
  ⟨rfl, rfl, rfl, rfl⟩

end Frame

end Native
end Chord
