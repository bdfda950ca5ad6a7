import Chord.Decimal.Shortest
import Chord.Proofs.Decimal.Binary
import Mathlib.Algebra.Order.Field.Power
import Mathlib.Data.Rat.Cast.Order
import Mathlib.Tactic.Linarith
import Mathlib.Tactic.NormNum
import Mathlib.Tactic.Positivity
import Mathlib.Tactic.Ring

/-!
# Shortest numerals stand for their floats

**Input.** Significands and powers of two of floats.

**Results.** The numbers that round to a float lie apart from those that round to another one
(`contains_lt`). With 17 digits the decimal grid is finer than the interval of any float
(`exists_candidate`), so that the search ends with a number of the interval
(`contains_shortest`).
-/

namespace Chord
namespace Decimal

/-! ## Intervals -/

/-- A power with an integer exponent as a quotient of two powers of which one is `1`. -/
theorem zpow_mul_pow_toNat {b : ℚ} (hb : b ≠ 0) (g : ℤ) : b ^ g * b ^ (-g).toNat = b ^ g.toNat := by
  obtain ⟨n, rfl | rfl⟩ := g.eq_nat_or_neg
  · simp
  · simp [hb]

namespace Interval

/-- A number lies in an interval. -/
def Contains (i : Interval) (q : ℚ) : Prop :=
  if i.closed then i.low ≤ q * i.den ∧ q * i.den ≤ i.high
  else i.low < q * i.den ∧ q * i.den < i.high

theorem holds_iff (i : Interval) (n : ℕ) : i.holds n = true ↔ i.Contains n := by
  unfold holds Contains
  split <;> simp only [Bool.and_eq_true, decide_eq_true_eq] <;> norm_cast

theorem contains_scale (i : Interval) (g : ℤ) (q : ℚ) :
    (i.scale g).Contains q ↔ i.Contains (q * 10 ^ g) := by
  have hten : (10 : ℚ) ^ g * 10 ^ (-g).toNat = 10 ^ g.toNat := zpow_mul_pow_toNat (by norm_num) g
  have hpos : (0 : ℚ) < 10 ^ (-g).toNat := by positivity
  have hden : q * ((i.scale g).den : ℚ) = q * 10 ^ g * i.den * 10 ^ (-g).toNat := by
    simp only [scale, Nat.pow_eq]
    push_cast
    rw [← hten]
    ring
  have hlow : ((i.scale g).low : ℚ) = i.low * 10 ^ (-g).toNat := by
    simp only [scale, Nat.pow_eq]
    push_cast
    rfl
  have hhigh : ((i.scale g).high : ℚ) = i.high * 10 ^ (-g).toNat := by
    simp only [scale, Nat.pow_eq]
    push_cast
    rfl
  have hclosed : (i.scale g).closed = i.closed := rfl
  unfold Contains
  rw [hclosed, hden, hlow, hhigh]
  simp only [mul_le_mul_iff_left₀ hpos, mul_lt_mul_iff_left₀ hpos]

theorem holds_of_candidate? {tie : Tie} {i : Interval} {n : ℕ} (h : i.candidate? tie = some n) :
    i.holds n = true := by
  unfold candidate? at h
  dsimp only at h
  split at h
  · rename_i hbelow habove
    split at h
    · cases h
      exact hbelow
    split at h
    · cases h
      exact habove
    cases tie with
    | up =>
        cases h
        exact habove
    | even =>
        cases h
        split
        · exact hbelow
        · exact habove
  · cases h
    assumption
  · cases h
    assumption
  · cases h

/-- A neighbour of the value lies in an interval that is wider than the distance between them. -/
theorem isSome_candidate? (tie : Tie) {i : Interval} (hden : 0 < i.den) (hlow : i.low < i.value)
    (hhigh : i.value < i.high) (hwidth : i.low + i.den < i.high) :
    (i.candidate? tie).isSome = true := by
  have hsplit : i.value / i.den * i.den + i.value % i.den = i.value := Nat.div_add_mod' _ _
  have hrest : i.value % i.den < i.den := Nat.mod_lt _ hden
  have hholds : i.holds (i.value / i.den) = true ∨ i.holds (i.value / i.den + 1) = true := by
    unfold holds
    rw [Nat.succ_mul]
    generalize i.value / i.den * i.den = a at *
    split <;> simp only [Bool.and_eq_true, decide_eq_true_eq] <;> omega
  unfold candidate?
  dsimp only
  split <;> grind

theorem isSome_candidate?_scale (tie : Tie) {i : Interval} {g : ℤ} (hden : 0 < i.den)
    (hlow : i.low < i.value) (hhigh : i.value < i.high)
    (hwidth : i.low + 10 ^ g * i.den < (i.high : ℚ)) :
    ((i.scale g).candidate? tie).isSome = true := by
  have hup : 0 < Nat.pow 10 (-g).toNat := Nat.pow_pos (by omega)
  refine isSome_candidate? tie (Nat.mul_pos hden (Nat.pow_pos (by omega)))
    (Nat.mul_lt_mul_of_pos_right hlow hup) (Nat.mul_lt_mul_of_pos_right hhigh hup) ?_
  have hten : (10 : ℚ) ^ g * 10 ^ (-g).toNat = 10 ^ g.toNat := zpow_mul_pow_toNat (by norm_num) g
  have hscaled := mul_lt_mul_of_pos_right hwidth (by positivity : (0 : ℚ) < 10 ^ (-g).toNat)
  rw [add_mul, mul_right_comm, hten, mul_comm _ (i.den : ℚ)] at hscaled
  simp only [scale, Nat.pow_eq]
  exact_mod_cast hscaled

/-! ## The interval of a float -/

/-- How far below a float its interval starts, in quarters of its last place. -/
def below (m : ℕ) (p : ℤ) : ℕ :=
  if m == 0x10000000000000 && p != -1074 then 1 else 2

theorem contains_around {m : ℕ} {p : ℤ} {q : ℚ} :
    (around m p).Contains q ↔
      if m % 2 = 0 then
        ((4 * m - below m p : ℕ) : ℚ) * 2 ^ (p - 2) ≤ q ∧ q ≤ (4 * m + 2 : ℕ) * 2 ^ (p - 2)
      else
        ((4 * m - below m p : ℕ) : ℚ) * 2 ^ (p - 2) < q ∧ q < (4 * m + 2 : ℕ) * 2 ^ (p - 2) := by
  have htwo : (2 : ℚ) ^ (p - 2) * 2 ^ (2 - p).toNat = 2 ^ (p - 2).toNat := by
    simpa only [neg_sub] using zpow_mul_pow_toNat (b := 2) (by norm_num) (p - 2)
  have hpos : (0 : ℚ) < 2 ^ (2 - p).toNat := by positivity
  have hden : ((around m p).den : ℚ) = 2 ^ (2 - p).toNat := by
    simp only [around, Nat.pow_eq]
    push_cast
    rfl
  have hlow : ((around m p).low : ℚ) =
      (4 * m - below m p : ℕ) * 2 ^ (p - 2) * 2 ^ (2 - p).toNat := by
    rw [mul_assoc, htwo]
    simp only [around, below, Nat.pow_eq, Nat.cast_mul, Nat.cast_pow, Nat.cast_ofNat]
  have hhigh : ((around m p).high : ℚ) = (4 * m + 2 : ℕ) * 2 ^ (p - 2) * 2 ^ (2 - p).toNat := by
    rw [mul_assoc, htwo]
    simp only [around, Nat.pow_eq, Nat.cast_mul, Nat.cast_pow, Nat.cast_ofNat]
  have hclosed : (around m p).closed = decide (m % 2 = 0) := rfl
  unfold Contains
  rw [hden, hlow, hhigh, hclosed]
  simp only [mul_le_mul_iff_left₀ hpos, mul_lt_mul_iff_left₀ hpos, decide_eq_true_eq]

/-- What lies in the interval of a float is not above its upper end, and below it if the
significand is odd. -/
theorem le_of_contains_around {m : ℕ} {p : ℤ} {q : ℚ} (h : (around m p).Contains q) :
    ((4 * m - below m p : ℕ) : ℚ) * 2 ^ (p - 2) ≤ q ∧ q ≤ (4 * m + 2 : ℕ) * 2 ^ (p - 2) := by
  rw [contains_around] at h
  split at h
  · exact h
  · exact ⟨h.1.le, h.2.le⟩

theorem lt_of_contains_around {m : ℕ} {p : ℤ} {q : ℚ} (h : (around m p).Contains q)
    (hodd : m % 2 = 1) :
    ((4 * m - below m p : ℕ) : ℚ) * 2 ^ (p - 2) < q ∧ q < (4 * m + 2 : ℕ) * 2 ^ (p - 2) := by
  rwa [contains_around, if_neg (by omega)] at h

/-- In units of the smaller float, its interval ends where the other one starts at the latest. Where
the two meet, one of the significands is odd. -/
theorem ends_le {m m' : ℕ} {p p' : ℤ} (hm : Canonical m p) (hm' : Canonical m' p')
    (hlt : p < p' ∨ p = p' ∧ m < m') :
    ∃ k : ℕ, (k : ℚ) * 2 ^ (p - 2) ≤ 2 ^ (p' - 2) ∧ 4 * m + 2 ≤ (4 * m' - below m' p') * k ∧
      (4 * m + 2 < (4 * m' - below m' p') * k ∨ m % 2 = 1 ∨ m' % 2 = 1) := by
  have hm53 := hm.lt
  rcases hlt with hp | ⟨rfl, hmm'⟩
  · have hp' : p' ≠ -1074 := by
      have := hm.le
      omega
    have hm52 : 0x10000000000000 ≤ m' := hm'.normal.resolve_left hp'
    refine ⟨2, ?_, ?_⟩
    · calc ((2 : ℕ) : ℚ) * 2 ^ (p - 2) = 2 ^ (p - 1) := by
            rw [Nat.cast_ofNat, ← zpow_one_add₀ (by norm_num)]
            congr 1
            ring
        _ ≤ 2 ^ (p' - 2) := zpow_le_zpow_right₀ (by norm_num) (by omega)
    · simp only [below, Bool.and_eq_true, beq_iff_eq, bne_iff_ne, ne_eq, hp', not_false_eq_true,
        and_true]
      split <;> omega
  · have hbelow : below m' p ≤ 2 := by
      unfold below
      split <;> omega
    exact ⟨1, by simp, by omega, by omega⟩

/-- Numbers in the intervals of different floats are in the order of the floats. -/
theorem contains_lt {m m' : ℕ} {p p' : ℤ} (hm : Canonical m p) (hm' : Canonical m' p')
    (hlt : p < p' ∨ p = p' ∧ m < m') {q q' : ℚ} (h : (around m p).Contains q)
    (h' : (around m' p').Contains q') : q < q' := by
  obtain ⟨k, hunit, hle, hapart⟩ := ends_le hm hm' hlt
  have hpos : (0 : ℚ) < 2 ^ (p - 2) := by positivity
  have hstart : ((4 * m' - below m' p') * k : ℕ) * (2 : ℚ) ^ (p - 2) ≤
      (4 * m' - below m' p' : ℕ) * 2 ^ (p' - 2) := by
    rw [Nat.cast_mul, mul_assoc]
    gcongr
  have hends : ((4 * m + 2 : ℕ) : ℚ) * 2 ^ (p - 2) ≤
      ((4 * m' - below m' p') * k : ℕ) * (2 : ℚ) ^ (p - 2) := by
    gcongr
  have hq := (le_of_contains_around h).2
  have hq' := (le_of_contains_around h').1
  rcases hapart with hapart | hodd | hodd
  · have hends' : ((4 * m + 2 : ℕ) : ℚ) * 2 ^ (p - 2) <
        ((4 * m' - below m' p') * k : ℕ) * (2 : ℚ) ^ (p - 2) := by
      gcongr
    exact hq.trans_lt (hends'.trans_le (hstart.trans hq'))
  · exact (lt_of_contains_around h hodd).2.trans_le (hends.trans (hstart.trans hq'))
  · exact (hq.trans (hends.trans hstart)).trans_lt (lt_of_contains_around h' hodd).1

/-- A number lies in the interval of one float only. -/
theorem contains_inj {m m' : ℕ} {p p' : ℤ} (hm : Canonical m p) (hm' : Canonical m' p') {q : ℚ}
    (h : (around m p).Contains q) (h' : (around m' p').Contains q) : m = m' ∧ p = p' := by
  rcases lt_trichotomy p p' with hp | rfl | hp
  · exact absurd (contains_lt hm hm' (.inl hp) h h') (lt_irrefl q)
  · rcases lt_trichotomy m m' with hlt | rfl | hlt
    · exact absurd (contains_lt hm hm' (.inr ⟨rfl, hlt⟩) h h') (lt_irrefl q)
    · exact ⟨rfl, rfl⟩
    · exact absurd (contains_lt hm' hm (.inr ⟨rfl, hlt⟩) h' h) (lt_irrefl q)
  · exact absurd (contains_lt hm' hm (.inl hp) h' h) (lt_irrefl q)

end Interval

/-! ## The search -/

theorem le_mul_pow_leadingZeros {b : ℕ} {fuel a : ℕ} (h : b ≤ a * 10 ^ fuel) (found : ℕ) :
    ∃ k, leadingZeros b fuel a found = found + k ∧ b ≤ a * 10 ^ k := by
  induction fuel generalizing a found with
  | zero => exact ⟨0, rfl, h⟩
  | succ fuel ih =>
      unfold leadingZeros
      split
      · rename_i hle
        exact ⟨0, rfl, by omega⟩
      · obtain ⟨k, hk, hle⟩ := ih (a := a * 10) (by rwa [mul_assoc, ← pow_succ']) (found + 1)
        exact ⟨k + 1, by omega, by rwa [pow_succ', ← mul_assoc]⟩

/-- The first digit is not behind the exponent that is found for it. -/
theorem zpow_firstExponent_le {a b : ℕ} (ha : 0 < a) (hb : 0 < b) (hle : b ≤ 10 ^ 400) :
    (10 : ℚ) ^ firstExponent a b * b ≤ a := by
  unfold firstExponent
  split
  · rename_i hab
    have hlength : 0 < (Nat.toDigits 10 (a / b)).length := Nat.length_toDigits_pos
    have hpow : 10 ^ ((Nat.toDigits 10 (a / b)).length - 1) ≤ a / b := by
      rcases Nat.eq_zero_or_pos ((Nat.toDigits 10 (a / b)).length - 1) with hone | hmore
      · rw [hone, pow_zero]
        exact Nat.div_pos hab hb
      · have hlt := Nat.length_toDigits_le_iff (n := a / b) (b := 10) (by omega) hmore
        exact Nat.le_of_not_lt fun h => absurd (hlt.2 h) (by omega)
    have hnat : 10 ^ ((Nat.toDigits 10 (a / b)).length - 1) * b ≤ a :=
      (Nat.mul_le_mul_right b hpow).trans (Nat.div_mul_le_self a b)
    rw [← Nat.cast_one, ← Nat.cast_sub hlength, zpow_natCast]
    exact_mod_cast hnat
  · have hfuel : b ≤ a * 10 ^ 400 := hle.trans (Nat.le_mul_of_pos_left _ ha)
    obtain ⟨k, hk, hbk⟩ := le_mul_pow_leadingZeros hfuel 0
    rw [hk, zero_add, zpow_neg, zpow_natCast, inv_mul_le_iff₀ (by positivity), mul_comm]
    exact_mod_cast hbk

/-- A search succeeds if one of the grids that it tries has a candidate. -/
theorem contains_searchDigits {tie : Tie} {i : Interval} {e : ℤ} {fuel count k : ℕ} (hk : k < fuel)
    (h : ((i.scale (e - (count + k : ℕ) + 1)).candidate? tie).isSome = true) :
    i.Contains
      ((searchDigits tie i e fuel count).1 * 10 ^ (searchDigits tie i e fuel count).2) := by
  induction fuel generalizing count k with
  | zero => omega
  | succ fuel ih =>
      unfold searchDigits
      dsimp only
      split
      · rename_i n hn
        rw [← Interval.contains_scale, ← Interval.holds_iff]
        exact Interval.holds_of_candidate? hn
      · rename_i hnone
        cases k with
        | zero =>
            rw [Nat.add_zero, hnone] at h
            cases h
        | succ k => exact ih (k := k) (by omega) (by rwa [Nat.add_right_comm, Nat.add_assoc])

theorem two_pow_le_ten_pow {k n : ℕ} (h : k ≤ 3 * n) : 2 ^ k ≤ 10 ^ n :=
  calc 2 ^ k ≤ 2 ^ (3 * n) := Nat.pow_le_pow_right (by omega) h
    _ = 8 ^ n := Nat.pow_mul 2 3 n
    _ ≤ 10 ^ n := Nat.pow_le_pow_left (by omega) n

/-- With 17 digits the grid is finer than the interval of any float. -/
theorem exists_candidate (tie : Tie) {m : ℕ} {p : ℤ} (hm : Canonical m p) (hpos : 0 < m) :
    (((Interval.around m p).scale
      (firstExponent (Interval.around m p).value (Interval.around m p).den - 16)).candidate?
        tie).isSome = true := by
  have hm53 := hm.lt
  have hup : 0 < 2 ^ (p - 2).toNat := by positivity
  have hbelow : 4 * m < (2 + Interval.below m p) * 10 ^ 16 ∧ 0 < Interval.below m p ∧
      Interval.below m p < 4 * m := by
    simp only [Interval.below, Bool.and_eq_true, beq_iff_eq]
    split <;> omega
  generalize hi : Interval.around m p = i
  have hlow : i.low = (4 * m - Interval.below m p) * 2 ^ (p - 2).toNat := by rw [← hi]; rfl
  have hvalue : i.value = 4 * m * 2 ^ (p - 2).toNat := by rw [← hi]; rfl
  have hhigh : i.high = (4 * m + 2) * 2 ^ (p - 2).toNat := by rw [← hi]; rfl
  have hden : i.den = 2 ^ (2 - p).toNat := by rw [← hi]; rfl
  have hdenPos : 0 < i.den := by rw [hden]; positivity
  have hvaluePos : 0 < i.value := by rw [hvalue]; positivity
  have hdenLe : i.den ≤ 10 ^ 400 := by
    have hp := hm.le
    rw [hden]
    exact two_pow_le_ten_pow (by omega)
  have hfirst := zpow_firstExponent_le hvaluePos hdenPos hdenLe
  -- The sixteenth place after the first one is narrower than the interval.
  have hwidth : i.value < (i.high - i.low) * 10 ^ 16 := by
    rw [hlow, hvalue, hhigh, ← Nat.sub_mul, Nat.mul_right_comm _ _ (10 ^ 16)]
    exact Nat.mul_lt_mul_of_pos_right (by omega) hup
  have hlowLt : i.low < i.value := by
    rw [hlow, hvalue]
    exact Nat.mul_lt_mul_of_pos_right (by omega) hup
  have hhighLt : i.value < i.high := by
    rw [hhigh, hvalue]
    exact Nat.mul_lt_mul_of_pos_right (by omega) hup
  refine Interval.isSome_candidate?_scale tie hdenPos hlowLt hhighLt ?_
  have hwidth' : (i.value : ℚ) < (i.high - i.low) * 10 ^ 16 := by
    rw [← Nat.cast_sub (hlowLt.trans hhighLt).le]
    exact_mod_cast hwidth
  rw [zpow_sub₀ (by norm_num)]
  norm_num
  linarith

/-- The shortest numeral of a float lies in its interval. -/
theorem contains_shortest (tie : Tie) {m : ℕ} {p : ℤ} (hm : Canonical m p) (hpos : 0 < m) :
    ∃ (n : ℕ) (g : ℤ), shortest tie m p = Numeral.ofScaled n g ∧
      (Interval.around m p).Contains (n * 10 ^ g) := by
  have hcandidate := exists_candidate tie hm hpos
  unfold shortest
  dsimp only
  generalize Interval.around m p = i at *
  generalize firstExponent i.value i.den = e at *
  have hgrid : e - 16 = e - (1 + 16 : ℕ) + 1 := by omega
  rw [hgrid] at hcandidate
  exact ⟨_, _, rfl, contains_searchDigits (by omega) hcandidate⟩

end Decimal
end Chord
