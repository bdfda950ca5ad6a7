import Chord.Decimal.Binary

/-!
# The parts of a float determine it

**Input.** Floats.

**Results.** A significand and a power of two that belong to a float are `Canonical`: the
significand has at most 53 bits, and exactly 53 unless the power is the smallest one. The bits of a
float can be put together again from its parts (`bits_parts`), so that floats with the same parts
are equal (`parts_injective`).
-/

namespace Chord
namespace Decimal

/-- Significands and powers of two of floats. Only among the smallest numbers the first bit may be
missing. -/
structure Canonical (m : Nat) (p : Int) : Prop where
  lt : m < 0x20000000000000
  le : -1074 ≤ p
  normal : p = -1074 ∨ 0x10000000000000 ≤ m

theorem canonical_of_parts {x : Float} {negative : Bool} {m : Nat} {p : Int}
    (h : parts x = .finite negative m p) : Canonical m p := by
  unfold parts at h
  dsimp only at h
  split at h
  · split at h <;> cases h
  · rename_i hexponent
    rw [beq_iff_eq] at hexponent
    split at h
    · cases h
      exact ⟨by omega, by omega, .inl rfl⟩
    · rename_i hzero
      rw [beq_iff_eq] at hzero
      cases h
      exact ⟨by omega, by omega, .inr (by omega)⟩

/-- The bits of a float with given parts. -/
def Parts.bits : Parts → Nat
  | .nan => 0x7FF8000000000000
  | .infinite negative => (if negative then 0x8000000000000000 else 0) + 0x7FF0000000000000
  | .finite negative m p =>
      (if negative then 0x8000000000000000 else 0) +
        if m < 0x10000000000000 then m
        else (p + 1075).toNat * 0x10000000000000 + (m - 0x10000000000000)

/-- There is one float that is not a number. -/
theorem toNat_toBits_of_nan (x : Float)
    (hexponent : x.toBits.toNat / 0x10000000000000 % 0x800 = 2047)
    (hfraction : x.toBits.toNat % 0x10000000000000 ≠ 0) :
    x.toBits.toNat = 0x7FF8000000000000 := by
  have hbits : x.toModel.toBits.toBitVec.toNat = x.toBits.toNat := rfl
  have hnan := x.toModel.valid.eq_packedNaN ?_ ?_
  · rw [← hbits, hnan]
    rfl
  · refine BitVec.eq_of_toNat_eq ?_
    simpa [Float.Model.UnpackedFloat.unpackExponent, hbits, Nat.shiftRight_eq_div_pow]
      using hexponent
  · intro hzero
    have hmantissa := congrArg BitVec.toNat hzero
    exact hfraction (by simpa [Float.Model.UnpackedFloat.unpackMantissa, hbits] using hmantissa)

theorem bits_parts (x : Float) : (parts x).bits = x.toBits.toNat := by
  have hlt := x.toBits.toNat_lt
  have hnan := toNat_toBits_of_nan x
  unfold parts
  dsimp only
  generalize x.toBits.toNat = bits at *
  split
  · rename_i hexponent
    rw [beq_iff_eq] at hexponent
    split
    · rename_i hfraction
      rw [beq_iff_eq] at hfraction
      simp only [Parts.bits, decide_eq_true_eq]
      split <;> omega
    · rename_i hfraction
      rw [beq_iff_eq] at hfraction
      exact (hnan hexponent hfraction).symm
  · split
    · rename_i hzero
      rw [beq_iff_eq] at hzero
      have hfraction : bits % 0x10000000000000 < 0x10000000000000 := by omega
      simp only [Parts.bits, decide_eq_true_eq, if_pos hfraction]
      split <;> omega
    · rename_i hexponent hzero
      rw [beq_iff_eq] at hexponent hzero
      have hfraction : ¬0x10000000000000 + bits % 0x10000000000000 < 0x10000000000000 := by omega
      have hpower : ((bits / 0x10000000000000 % 0x800 : Nat) : Int) - 1075 + 1075 =
          (bits / 0x10000000000000 % 0x800 : Nat) := by omega
      simp only [Parts.bits, decide_eq_true_eq, if_neg hfraction, hpower, Int.toNat_natCast]
      split <;> omega

theorem parts_injective {x y : Float} (h : parts x = parts y) : x = y := by
  have hbits : x.toBits = y.toBits := by
    refine UInt64.toNat_inj.1 ?_
    rw [← bits_parts x, ← bits_parts y, h]
  obtain ⟨⟨bits, hvalid⟩⟩ := x
  obtain ⟨⟨bits', hvalid'⟩⟩ := y
  cases hbits
  rfl

end Decimal
end Chord
