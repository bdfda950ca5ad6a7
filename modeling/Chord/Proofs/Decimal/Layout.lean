import Chord.Decimal.Layout
import Chord.Proofs.Decimal.Shortest

/-!
# Number texts determine their numbers

**Input.** Floats.

**Algorithm.** A text in positional notation is read back as a rational number: the digits before
and after the point, over a power of ten.

**Results.** The text of a finite float is read back as a number that rounds to this float
(`reading_positional`, `contains_numeral`), so that different floats have different texts
(`text_injective`). Texts consist of letters, digits, points and minus signs
(`isNumeric_of_mem_text`).
-/

namespace Chord
namespace Decimal

/-! ## Numerals -/

/-- The number that a numeral stands for. -/
def Numeral.value (n : Numeral) : ℚ :=
  Nat.ofDigitChars 10 n.digits 0 * 10 ^ (n.exponent + 1 - n.digits.length)

theorem stripZeros_append (ds : List Char) :
    ∃ k, ds = stripZeros ds ++ List.replicate k '0' := by
  refine ⟨(ds.reverse.takeWhile (· == '0')).length, ?_⟩
  have hzeros : ds.reverse.takeWhile (· == '0') =
      List.replicate (ds.reverse.takeWhile (· == '0')).length '0' := by
    refine List.eq_replicate_of_mem fun c hc => ?_
    simpa using List.all_eq_true.1 List.all_takeWhile c hc
  rw [← List.reverse_replicate, ← hzeros, stripZeros, ← List.reverse_append,
    List.takeWhile_append_dropWhile, List.reverse_reverse]

theorem value_ofScaled (n : ℕ) (g : ℤ) : (Numeral.ofScaled n g).value = n * 10 ^ g := by
  obtain ⟨k, hk⟩ := stripZeros_append (Nat.toDigits 10 n)
  have hlength := congrArg List.length hk
  rw [List.length_append, List.length_replicate] at hlength
  have hdigits : 10 ^ k * Nat.ofDigitChars 10 (stripZeros (Nat.toDigits 10 n)) 0 = n := by
    rw [← Nat.ofDigitChars_replicate_zero, ← Nat.ofDigitChars_append, ← hk,
      Nat.ofDigitChars_ten_toDigits]
  have hexponent : g + ((Nat.toDigits 10 n).length : ℤ) - 1 + 1 -
      ((stripZeros (Nat.toDigits 10 n)).length : ℤ) = k + g := by omega
  simp only [Numeral.value, Numeral.ofScaled, hexponent]
  rw [zpow_add₀ (by norm_num), zpow_natCast, ← mul_assoc, mul_comm (_ : ℚ) (10 ^ k)]
  exact congrArg (· * (10 : ℚ) ^ g) (by exact_mod_cast hdigits)

theorem isDigit_of_mem_ofScaled {n : ℕ} {g : ℤ} {c : Char}
    (h : c ∈ (Numeral.ofScaled n g).digits) : c.isDigit = true := by
  obtain ⟨k, hk⟩ := stripZeros_append (Nat.toDigits 10 n)
  refine Nat.isDigit_of_mem_toDigits (b := 10) (n := n) (by omega) (by omega) ?_
  rw [hk]
  exact List.mem_append_left _ h

/-! ## Positional notation -/

/-- The number that digits with an optional point stand for. -/
def reading (cs : List Char) : ℚ :=
  Nat.ofDigitChars 10 (cs.takeWhile (· != '.') ++ (cs.dropWhile (· != '.')).drop 1) 0 *
    10 ^ (-(((cs.dropWhile (· != '.')).drop 1).length : ℤ))

theorem reading_append_point {ds es : List Char} (h : '.' ∉ ds) :
    reading (ds ++ '.' :: es) = Nat.ofDigitChars 10 (ds ++ es) 0 * 10 ^ (-(es.length : ℤ)) := by
  have hall : ∀ c ∈ ds, (c != '.') = true := fun c hc => bne_iff_ne.2 fun heq => h (heq ▸ hc)
  simp [reading, List.takeWhile_append_of_pos hall, List.dropWhile_append_of_pos hall]

theorem reading_of_notMem {ds : List Char} (h : '.' ∉ ds) :
    reading ds = Nat.ofDigitChars 10 ds 0 := by
  have hall : ∀ c ∈ ds, (c != '.') = true := fun c hc => bne_iff_ne.2 fun heq => h (heq ▸ hc)
  have htake : ds.takeWhile (· != '.') = ds := by
    rw [← List.append_nil ds, List.takeWhile_append_of_pos hall]
    rfl
  have hdrop : ds.dropWhile (· != '.') = [] := by
    rw [← List.append_nil ds, List.dropWhile_append_of_pos hall]
    rfl
  simp [reading, htake, hdrop]

/-- Positional notation is read back as the number that the numeral stands for. -/
theorem reading_positional {n : Numeral} (h : '.' ∉ n.digits) :
    reading (n.positional false) = n.value := by
  unfold Numeral.positional Numeral.value
  split
  · rename_i hneg
    have hzeros : Nat.ofDigitChars 10
        ('0' :: (List.replicate (-n.exponent - 1).toNat '0' ++ n.digits)) 0 =
          Nat.ofDigitChars 10 n.digits 0 := by
      rw [← List.cons_append, ← List.replicate_succ, Nat.ofDigitChars_append,
        Nat.ofDigitChars_replicate_zero, Nat.mul_zero]
    rw [List.cons_append, List.cons_append, ← List.singleton_append,
      reading_append_point (by decide), List.singleton_append, hzeros, List.length_append,
      List.length_replicate]
    congr 2
    omega
  · dsimp only
    split
    · rename_i hneg hshort
      have hpoint :
          '.' ∉ n.digits ++ List.replicate (n.exponent.toNat + 1 - n.digits.length) '0' := by
        simp [h]
      rw [if_neg Bool.false_ne_true, List.append_nil, reading_of_notMem hpoint,
        Nat.ofDigitChars_append, Nat.ofDigitChars_replicate_zero, Nat.cast_mul, mul_comm]
      congr 1
      rw [Nat.cast_pow, Nat.cast_ofNat, ← zpow_natCast]
      congr 1
      omega
    · rename_i hneg hlong
      rw [reading_append_point fun hmem => h (List.mem_of_mem_take hmem), List.take_append_drop,
        List.length_drop]
      congr 2
      omega

theorem mem_positional {n : Numeral} {c : Char} (h : c ∈ n.positional false) :
    c ∈ n.digits ∨ c = '0' ∨ c = '.' := by
  unfold Numeral.positional at h
  split at h
  · simp only [List.cons_append, List.mem_cons, List.mem_append, List.mem_replicate] at h
    grind
  · dsimp only at h
    split at h
    · simp only [List.mem_append, List.mem_replicate] at h
      grind
    · simp only [List.mem_append, List.mem_cons] at h
      grind [List.mem_of_mem_take, List.mem_of_mem_drop]

/-! ## Floats -/

/-- The numeral that is written for the float `m * 2 ^ p`. -/
def numeral (m : ℕ) (p : ℤ) : Numeral :=
  if m == 0 then ⟨['0'], 0⟩ else shortest .up m p

theorem isDigit_of_mem_numeral {m : ℕ} {p : ℤ} {c : Char} (h : c ∈ (numeral m p).digits) :
    c.isDigit = true := by
  unfold numeral at h
  split at h
  · rw [List.mem_singleton.1 h]
    decide
  · exact isDigit_of_mem_ofScaled h

/-- What is written for a float lies in its interval. -/
theorem contains_numeral {m : ℕ} {p : ℤ} (hm : Canonical m p) :
    (Interval.around m p).Contains (numeral m p).value := by
  unfold numeral
  split
  · rename_i hzero
    rw [beq_iff_eq] at hzero
    subst hzero
    have hvalue : Numeral.value ⟨['0'], 0⟩ = 0 := by simp [Numeral.value, Nat.ofDigitChars]
    rw [hvalue, Interval.contains_around, if_pos rfl]
    exact ⟨by simp [Interval.below], by positivity⟩
  · rename_i hpos
    obtain ⟨n, g, hshortest, hcontains⟩ :=
      contains_shortest .up hm (Nat.pos_of_ne_zero fun hzero => hpos (beq_iff_eq.2 hzero))
    rwa [hshortest, value_ofScaled]

theorem reading_numeral (m : ℕ) (p : ℤ) :
    reading ((numeral m p).positional false) = (numeral m p).value := by
  refine reading_positional fun hpoint => ?_
  exact absurd (isDigit_of_mem_numeral hpoint) (by decide)

theorem isDigit_of_mem_positional {m : ℕ} {p : ℤ} {c : Char}
    (h : c ∈ (numeral m p).positional false) : c.isDigit = true ∨ c = '.' := by
  rcases mem_positional h with hdigit | rfl | rfl
  · exact .inl (isDigit_of_mem_numeral hdigit)
  · exact .inl rfl
  · exact .inr rfl

theorem toList_text_of_finite {x : Float} {negative : Bool} {m : ℕ} {p : ℤ}
    (h : parts x = .finite negative m p) :
    (text x).toList =
      (if negative then ['-'] else []) ++ (numeral m p).positional false := by
  have hsize : (if m == 0 then (⟨['0'], 0⟩ : Numeral).positional false
      else (shortest .up m p).positional false) = (numeral m p).positional false := by
    unfold numeral
    split <;> rfl
  simp only [text, Layout.render, h, plain, if_true, hsize, String.toList_ofList]
  cases negative <;> rfl

/-- Signs and digits of a finite float. -/
theorem mem_text_of_finite {x : Float} {negative : Bool} {m : ℕ} {p : ℤ}
    (h : parts x = .finite negative m p) {c : Char} (hc : c ∈ (text x).toList) :
    c.isDigit = true ∨ c = '.' ∨ c = '-' := by
  rw [toList_text_of_finite h, List.mem_append] at hc
  rcases hc with hsign | hsize
  · cases negative with
    | true => exact .inr (.inr (List.mem_singleton.1 hsign))
    | false => cases hsign
  · exact (isDigit_of_mem_positional hsize).imp_right .inl

theorem text_of_nan {x : Float} (h : parts x = .nan) : text x = "NaN" := by
  rw [text, Layout.render, h]
  rfl

theorem text_of_infinite {x : Float} {negative : Bool} (h : parts x = .infinite negative) :
    text x = if negative then "-inf" else "inf" := by
  rw [text, Layout.render, h]
  rfl

/-- The characters of number texts. -/
def isNumeric (c : Char) : Bool :=
  c.isAlphanum || c == '.' || c == '-'

/-- Number texts have no blanks, brackets, commas or quotes. -/
theorem isNumeric_of_mem_text {x : Float} {c : Char} (h : c ∈ (text x).toList) :
    isNumeric c = true := by
  cases hparts : parts x with
  | nan =>
      have hall : "NaN".toList.all isNumeric = true := rfl
      rw [text_of_nan hparts] at h
      exact List.all_eq_true.1 hall c h
  | infinite negative =>
      have hall : (if negative then "-inf" else "inf").toList.all isNumeric = true := by
        cases negative <;> rfl
      rw [text_of_infinite hparts] at h
      exact List.all_eq_true.1 hall c h
  | finite negative m p =>
      rcases mem_text_of_finite hparts h with hdigit | rfl | rfl
      · rw [isNumeric, Char.isAlphanum, hdigit, Bool.or_true, Bool.true_or, Bool.true_or]
      · rfl
      · rfl

/-- Only finite floats have texts without letters. -/
theorem exists_finite_of_text_eq {x y : Float} {negative : Bool} {m : ℕ} {p : ℤ}
    (hx : parts x = .finite negative m p) (h : text x = text y) :
    ∃ negative' m' p', parts y = .finite negative' m' p' := by
  have hletter : 'N' ∉ (text y).toList ∧ 'n' ∉ (text y).toList := by
    rw [← h]
    exact ⟨fun hN => absurd (mem_text_of_finite hx hN) (by decide),
      fun hn => absurd (mem_text_of_finite hx hn) (by decide)⟩
  cases hy : parts y with
  | nan =>
      rw [text_of_nan hy] at hletter
      exact absurd hletter.1 (by decide)
  | infinite negative' =>
      rw [text_of_infinite hy] at hletter
      cases negative' <;> exact absurd hletter.2 (by decide)
  | finite negative' m' p' => exact ⟨negative', m', p', rfl⟩

theorem positional_injective {m m' : ℕ} {p p' : ℤ} (hm : Canonical m p) (hm' : Canonical m' p')
    (h : (numeral m p).positional false = (numeral m' p').positional false) :
    m = m' ∧ p = p' := by
  have hvalue : (numeral m p).value = (numeral m' p').value := by
    rw [← reading_numeral, ← reading_numeral, h]
  exact Interval.contains_inj hm hm' (contains_numeral hm) (hvalue ▸ contains_numeral hm')

theorem parts_eq_of_finite {x y : Float} {negative negative' : Bool} {m m' : ℕ} {p p' : ℤ}
    (hx : parts x = .finite negative m p) (hy : parts y = .finite negative' m' p')
    (h : text x = text y) : parts x = parts y := by
  have hlist := congrArg String.toList h
  rw [toList_text_of_finite hx, toList_text_of_finite hy] at hlist
  have hminus : ∀ {m : ℕ} {p : ℤ}, '-' ∉ (numeral m p).positional false := fun hmem =>
    absurd (isDigit_of_mem_positional hmem) (by decide)
  cases negative <;> cases negative'
  case true.true | false.false =>
    obtain ⟨rfl, rfl⟩ := positional_injective (canonical_of_parts hx) (canonical_of_parts hy)
      (List.append_cancel_left hlist)
    rw [hx, hy]
  case true.false =>
    have hmem := congrArg ('-' ∈ ·) hlist
    exact absurd (hmem.mp List.mem_cons_self) hminus
  case false.true =>
    have hmem := congrArg ('-' ∈ ·) hlist
    exact absurd (hmem.mpr List.mem_cons_self) hminus

/-- Different floats have different texts. -/
theorem text_injective {x y : Float} (h : text x = text y) : x = y := by
  refine parts_injective ?_
  cases hx : parts x with
  | finite negative m p =>
      obtain ⟨negative', m', p', hy⟩ := exists_finite_of_text_eq hx h
      rw [← hx]
      exact parts_eq_of_finite hx hy h
  | nan =>
      cases hy : parts y with
      | nan => rfl
      | infinite negative' =>
          rw [text_of_nan hx, text_of_infinite hy] at h
          cases negative' <;> exact absurd h (by decide)
      | finite negative' m' p' =>
          obtain ⟨_, _, _, hfinite⟩ := exists_finite_of_text_eq hy h.symm
          rw [hx] at hfinite
          cases hfinite
  | infinite negative =>
      cases hy : parts y with
      | nan =>
          rw [text_of_infinite hx, text_of_nan hy] at h
          cases negative <;> exact absurd h (by decide)
      | infinite negative' =>
          rw [text_of_infinite hx, text_of_infinite hy] at h
          have hsign : ∀ a b : Bool,
              (if a then "-inf" else "inf") = (if b then "-inf" else "inf") → a = b := by decide
          rw [hsign _ _ h]
      | finite negative' m' p' =>
          obtain ⟨_, _, _, hfinite⟩ := exists_finite_of_text_eq hy h.symm
          rw [hx] at hfinite
          cases hfinite

end Decimal
end Chord
