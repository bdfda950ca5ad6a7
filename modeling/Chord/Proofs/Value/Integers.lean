import Chord.Value.Arithmetic

/-!
# Integers stay exact

**Input.** Two values that count as integers: null, booleans, integers and lists.

**Results.** `applyBinOp_counts`: adding, subtracting and multiplying give the exact integer if it
is in range and otherwise a float. Dividing fails exactly if the divisor is zero, and gives an
integer exactly if the quotient is one that is in range.
-/

namespace Chord

/-! ## The range of integers -/

/-- The integers that 64 bits with a sign can hold. -/
def InRange (n : Int) : Prop :=
  -0x8000000000000000 ≤ n ∧ n < 0x8000000000000000

theorem int64?_of_inRange {n : Int} (h : InRange n) : ∃ k, int64? n = some k ∧ k.toInt = n := by
  refine ⟨Int64.ofInt n, ?_, Int64.toInt_ofInt_of_le h.1 h.2⟩
  unfold InRange at h
  rw [int64?, if_pos]
  simp only [Bool.and_eq_true, decide_eq_true_eq]
  omega

theorem int64?_of_not_inRange {n : Int} (h : ¬InRange n) : int64? n = none := by
  unfold InRange at h
  rw [int64?, if_neg]
  simp only [Bool.and_eq_true, decide_eq_true_eq]
  omega

/-! ## Operands -/

/-- The integer that a value counts as. Floats and texts count as none, even if they are whole. -/
def Value.count? : Value → Option Int
  | .null => some 0
  | .boolean b => some (if b then 1 else 0)
  | .integer n => some n.toInt
  | .float _ => none
  | .string _ => none
  | .list _ => some 0

theorem Value.isString_of_count? {v : Value} {n : Int} (h : v.count? = some n) :
    v.isString = false := by
  cases v with
  | string s => cases h
  | _ => rfl

theorem Number.ofValue_of_count? {v : Value} {n : Int} (h : v.count? = some n) :
    ∃ k : Int64, ofValue v = .int k ∧ k.toInt = n := by
  cases v with
  | null =>
      cases h
      exact ⟨0, rfl, rfl⟩
  | boolean b =>
      cases h
      refine ⟨if b then 1 else 0, rfl, ?_⟩
      cases b <;> rfl
  | integer k =>
      cases h
      exact ⟨k, rfl, rfl⟩
  | float x => cases h
  | string s => cases h
  | list items =>
      cases h
      exact ⟨0, rfl, rfl⟩

/-! ## Operations -/

/-- A result is the integer `n` if that is in range, and otherwise the float `x`. -/
def Lands (n : Int) (x : Float) (result : Except Fault Value) : Prop :=
  (InRange n ∧ ∃ k : Int64, k.toInt = n ∧ result = .ok (.integer k)) ∨
    (¬InRange n ∧ result = .ok (.float x))

namespace Arith

variable {m n : Int64}

theorem apply_ints (op : Arith) (h : op = .divide → n.toInt ≠ 0) :
    op.apply (.int m) (.int n) =
      match (op.onInts? m.toInt n.toInt).bind int64? with
      | some k => .ok (.integer k)
      | none => .ok (.float (op.onFloats (Float.ofInt m.toInt) (Float.ofInt n.toInt))) := by
  rw [apply, if_neg]
  · rfl
  · simp only [Bool.and_eq_true, beq_iff_eq, Number.isZero, not_and]
    rintro hop rfl
    exact h hop rfl

/-- An operation whose exact result is an integer. -/
theorem apply_lands (op : Arith) {exact : Int} (h : op = .divide → n.toInt ≠ 0)
    (hexact : op.onInts? m.toInt n.toInt = some exact) :
    Lands exact (op.onFloats (Float.ofInt m.toInt) (Float.ofInt n.toInt))
      (op.apply (.int m) (.int n)) := by
  rw [apply_ints op h, hexact, Option.bind_some]
  by_cases hrange : InRange exact
  · obtain ⟨k, hsome, hk⟩ := int64?_of_inRange hrange
    rw [hsome]
    exact .inl ⟨hrange, k, hk, rfl⟩
  · rw [int64?_of_not_inRange hrange]
    exact .inr ⟨hrange, rfl⟩

theorem divide_eq_error_iff :
    divide.apply (.int m) (.int n) = .error .divisionByZero ↔ n.toInt = 0 := by
  by_cases hzero : n.toInt = 0
  · obtain rfl : n = 0 := Int64.toInt_inj.1 hzero
    exact iff_of_true rfl rfl
  · refine iff_of_false ?_ hzero
    rw [apply_ints divide fun _ => hzero]
    split <;> exact nofun

theorem onInts?_divide_of_dvd {a b : Int} (h : b ∣ a) : divide.onInts? a b = some (a / b) := by
  rw [onInts?, if_pos (by rw [Int.tmod_eq_zero_of_dvd h]; rfl), Int.tdiv_eq_ediv_of_dvd h]

theorem onInts?_divide_of_not_dvd {a b : Int} (h : ¬b ∣ a) : divide.onInts? a b = none := by
  rw [onInts?, if_neg]
  rw [beq_iff_eq]
  exact fun hzero => h (Int.dvd_of_tmod_eq_zero hzero)

end Arith

/-- The operators that calculate, as they are applied to numbers. -/
theorem applyBinOp_of_count? {l r : Value} {a b : Int} (hl : l.count? = some a)
    (hr : r.count? = some b) :
    ∃ m n : Int64, m.toInt = a ∧ n.toInt = b ∧
      applyBinOp .add l r = Arith.add.apply (.int m) (.int n) ∧
      applyBinOp .subtract l r = Arith.subtract.apply (.int m) (.int n) ∧
      applyBinOp .multiply l r = Arith.multiply.apply (.int m) (.int n) ∧
      applyBinOp .divide l r = Arith.divide.apply (.int m) (.int n) := by
  obtain ⟨m, hm, ha⟩ := Number.ofValue_of_count? hl
  obtain ⟨n, hn, hb⟩ := Number.ofValue_of_count? hr
  refine ⟨m, n, ha, hb, ?_, ?_, ?_, ?_⟩
  · simp only [applyBinOp, Value.isString_of_count? hl, Value.isString_of_count? hr, hm, hn]
    rfl
  all_goals simp only [applyBinOp, hm, hn]

/-- **Integers stay exact or are left**: sums, differences and products are the exact integer or,
out of range, a float. A division fails exactly by zero; its result is the exact quotient if there
is one in range, and otherwise a float. -/
theorem applyBinOp_counts {l r : Value} {a b : Int} (hl : l.count? = some a)
    (hr : r.count? = some b) :
    Lands (a + b) (Float.ofInt a + Float.ofInt b) (applyBinOp .add l r) ∧
      Lands (a - b) (Float.ofInt a - Float.ofInt b) (applyBinOp .subtract l r) ∧
      Lands (a * b) (Float.ofInt a * Float.ofInt b) (applyBinOp .multiply l r) ∧
      (applyBinOp .divide l r = .error .divisionByZero ↔ b = 0) ∧
      (b ≠ 0 → b ∣ a →
        Lands (a / b) (Float.ofInt a / Float.ofInt b) (applyBinOp .divide l r)) ∧
      (b ≠ 0 → ¬b ∣ a →
        applyBinOp .divide l r = .ok (.float (Float.ofInt a / Float.ofInt b))) := by
  obtain ⟨m, n, rfl, rfl, hadd, hsubtract, hmultiply, hdivide⟩ := applyBinOp_of_count? hl hr
  rw [hadd, hsubtract, hmultiply, hdivide]
  refine ⟨Arith.apply_lands .add nofun rfl, Arith.apply_lands .subtract nofun rfl,
    Arith.apply_lands .multiply nofun rfl, Arith.divide_eq_error_iff, fun hne hdvd => ?_,
    fun hne hdvd => ?_⟩
  · exact Arith.apply_lands .divide (fun _ => hne) (Arith.onInts?_divide_of_dvd hdvd)
  · rw [Arith.apply_ints .divide fun _ => hne, Arith.onInts?_divide_of_not_dvd hdvd]
    rfl

/-- The smallest integer has no opposite in range. -/
theorem applyBinOp_counts_smallest :
    (Value.integer Int64.minValue).count? = some (-0x8000000000000000) ∧
      (Value.integer (-1)).count? = some (-1) ∧
      applyBinOp .divide (.integer Int64.minValue) (.integer (-1)) =
        .ok (.float (Float.ofInt (-0x8000000000000000) / Float.ofInt (-1))) := by
  have hl : (Value.integer Int64.minValue).count? = some (-0x8000000000000000) := rfl
  have hr : (Value.integer (-1)).count? = some (-1) := rfl
  obtain ⟨-, -, -, -, hdivide, -⟩ := applyBinOp_counts hl hr
  refine ⟨hl, hr, ?_⟩
  obtain ⟨hrange, -⟩ | ⟨-, hfloat⟩ := hdivide (by decide) (by decide)
  · exact absurd hrange.2 (by decide)
  · exact hfloat

end Chord
