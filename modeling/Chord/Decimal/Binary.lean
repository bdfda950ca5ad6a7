/-!
# The parts of a floating-point number

A 64-bit float seen as an exact number: a significand times a power of two.

**Input.** Floats.

**Results.** `parts` takes a float apart, `whole?` gives the integer that a float is equal to,
`truncated` cuts the fraction off and `roundAway` rounds to an integer, a half going away from zero.
-/

namespace Chord
namespace Decimal

/-- What a float stands for. A finite one is `significand * 2 ^ power` with a sign. -/
inductive Parts where
  | nan
  | infinite (negative : Bool)
  | finite (negative : Bool) (significand : Nat) (power : Int)
deriving DecidableEq, Repr

/-- Takes a float apart. Subnormal numbers have no hidden bit. -/
def parts (x : Float) : Parts :=
  let bits : Nat := x.toBits.toNat
  let negative : Bool := decide (0x8000000000000000 ≤ bits)
  let exponent : Nat := bits / 0x10000000000000 % 0x800
  let fraction : Nat := bits % 0x10000000000000
  if exponent == 2047 then
    if fraction == 0 then .infinite negative else .nan
  else if exponent == 0 then .finite negative fraction (-1074)
  else .finite negative (0x10000000000000 + fraction) ((exponent : Int) - 1075)

/-- The integer with a sign. -/
def signed (negative : Bool) (n : Nat) : Int :=
  if negative then -(n : Int) else n

/-- The integer equal to a finite float, if there is one. -/
def whole? (x : Float) : Option Int :=
  match parts x with
  | .finite negative m p =>
      if 0 ≤ p then some (signed negative (m * Nat.pow 2 p.toNat))
      else if m % Nat.pow 2 (-p).toNat == 0 then some (signed negative (m / Nat.pow 2 (-p).toNat))
      else none
  | _ => none

/-- The size of a finite float without its fraction. -/
def truncated (x : Float) : Nat :=
  match parts x with
  | .finite _ m p => if 0 ≤ p then m * Nat.pow 2 p.toNat else m / Nat.pow 2 (-p).toNat
  | _ => 0

/-- The nearest integer, a half going away from zero. -/
def roundAway (x : Float) : Float :=
  match parts x with
  | .finite negative m p =>
      if 0 ≤ p then x
      else
        let unit := Nat.pow 2 (-p).toNat
        let n := Float.ofNat ((2 * m + unit) / (2 * unit))
        if negative then -n else n
  | _ => x

end Decimal
end Chord
