import Chord.Decimal.Binary

/-!
# Fixed-point decimals

Exact decimal arithmetic in 96 bits, which scripts use when an integer meets a float.

**Input.** Integers and floats.

**Results.** A `Fixed` is a signed coefficient below `2 ^ 96` over a power of ten up to `10 ^ 28`.
`ofFloat?` finds the decimal behind a float, `add`, `sub`, `mul` and `div` calculate with a rounding
to even where the digits do not fit and fail where not even the whole part fits, and `toFloat` goes
back.
-/

namespace Chord
namespace Decimal

/-- The decimal `coefficient / 10 ^ scale` with a sign. -/
structure Fixed where
  negative : Bool
  coefficient : Nat
  scale : Nat
deriving DecidableEq, Repr

namespace Fixed

/-- Coefficients stay below this number. -/
def limit : Nat := Nat.pow 2 96

/-- The largest number of decimal places. -/
def maxScale : Nat := 28

/-- An integer. -/
def ofInt (n : Int) : Fixed :=
  { negative := n < 0, coefficient := n.natAbs, scale := 0 }

/-! ## From floats -/

/-- Trades `n` powers of one half for powers of one tenth, as long as five times the coefficient
fits. Gives the coefficient and the exponent of ten. -/
def tradeHalves : Nat → Nat → Int → Nat × Int
  | 0, m, e => (m, e)
  | n + 1, m, e =>
      if m % 2 == 0 then tradeHalves n (m / 2) (e + 1)
      else if 5 * m < limit then tradeHalves n (5 * m) e
      else tradeHalves n (m / 2) (e + 1)

/-- Trades `n` powers of two for powers of ten. -/
def tradeTwos : Nat → Nat → Int → Option (Nat × Int)
  | 0, m, e => some (m, e)
  | n + 1, m, e =>
      if m < Nat.pow 2 95 then tradeTwos n (2 * m) (e - 1)
      else if (n + 1 : Int) < 2 * e then none
      else tradeTwos n (m / 5) e

/-- Multiplies by `10 ^ n` if the result fits. -/
def absorbTens : Nat → Nat → Option Nat
  | 0, m => some m
  | n + 1, m => if 10 * m < limit then absorbTens n (10 * m) else none

/-- Drops the last digit, rounding a half up. -/
def dropDigit (m : Nat) : Nat :=
  if 5 ≤ m % 10 then m / 10 + 1 else m / 10

/-- Drops `n` of the `scale + n` decimal places. Gives what is left and its places. -/
def dropPlaces : Nat → Nat → Nat → Nat × Nat
  | 0, m, scale => (m, scale)
  | n + 1, m, scale => if m / 10 == 0 then (0, 0) else dropPlaces n (dropDigit m) scale

/-- Drops decimal places while the coefficient has more than 52 bits. -/
def dropExcess : Nat → Nat → Nat × Nat
  | 0, m => (m, 0)
  | scale + 1, m => if 0x10000000000000 ≤ m then dropExcess scale (dropDigit m) else (m, scale + 1)

/-- Drops decimal places that are zero. -/
def dropZeros : Nat → Nat → Nat × Nat
  | 0, m => (m, 0)
  | scale + 1, m => if m % 10 == 0 then dropZeros scale (m / 10) else (m, scale + 1)

/-- The decimal with few digits behind a float, if it is in range. -/
def ofFloat? (x : Float) : Option Fixed :=
  match parts x with
  | .finite negative m p =>
      if m == 0 then some ⟨negative, 0, 0⟩
      else do
        let (m, e) ←
          if p < 0 then some (tradeHalves (-p).toNat m p) else tradeTwos p.toNat m p
        let m ← absorbTens e.toNat m
        let places := (-e).toNat
        let (m, scale) := dropPlaces (places - maxScale) m (min places maxScale)
        let (m, scale) := dropExcess scale m
        let (m, scale) := dropZeros scale m
        some ⟨negative, m, scale⟩
  | _ => none

/-! ## Arithmetic -/

/-- `a / b` rounded to the nearest integer, a half to the even one. -/
def divEven (a b : Nat) : Nat :=
  let q := a / b
  let r := a % b
  if b < 2 * r || (2 * r == b && q % 2 == 1) then q + 1 else q

/-- Tries to drop `n` and more of the `scale` places until the coefficient fits. -/
def fitFrom (m scale : Nat) : Nat → Nat → Option (Nat × Nat)
  | 0, _ => none
  | fuel + 1, n =>
      if scale < n then none
      else if divEven m (Nat.pow 10 n) < limit then some (divEven m (Nat.pow 10 n), scale - n)
      else fitFrom m scale fuel (n + 1)

/-- Rounds a coefficient as little as needed for it to fit. -/
def fit (negative : Bool) (m scale : Nat) : Option Fixed :=
  (fitFrom m scale (scale + 1) (scale - maxScale)).map fun (m, scale) => ⟨negative, m, scale⟩

/-- The negative of a decimal; a zero keeps its sign. -/
def neg (a : Fixed) : Fixed :=
  if a.coefficient == 0 then a else { a with negative := !a.negative }

/-- The signed coefficient at a scale that is not smaller than the own one. -/
def atScale (a : Fixed) (scale : Nat) : Int :=
  signed a.negative (a.coefficient * Nat.pow 10 (scale - a.scale))

/-- The sum of two decimals. -/
def add (a b : Fixed) : Option Fixed :=
  if a.coefficient == 0 then some b
  else if b.coefficient == 0 then some a
  else
    let scale := max a.scale b.scale
    let sum := a.atScale scale + b.atScale scale
    fit (sum < 0) sum.natAbs scale

/-- The difference of two decimals. -/
def sub (a b : Fixed) : Option Fixed :=
  if a.coefficient == 0 then some b.neg
  else if b.coefficient == 0 then some a
  else add a b.neg

/-- The product of two decimals. -/
def mul (a b : Fixed) : Option Fixed :=
  if a.coefficient == 0 || b.coefficient == 0 then some ⟨false, 0, 0⟩
  else fit (a.negative != b.negative) (a.coefficient * b.coefficient) (a.scale + b.scale)

/-- The largest `p` up to `n` for which `q * 10 ^ p` fits. -/
def growth (q : Nat) : Nat → Nat
  | 0 => 0
  | n + 1 => if q * Nat.pow 10 (n + 1) < limit then n + 1 else growth q n

/-- A quotient on its way: `q` and the remainder `r` of a division by `d` that has produced `scale`
decimal places. Gives the quotient, its places and whether the division went past the whole part. -/
def divideOn (d : Nat) : Nat → Nat → Nat → Int → Bool → Option (Nat × Int × Bool)
  | 0, q, _, scale, past => some (q, scale, past)
  | fuel + 1, q, r, scale, past =>
      let grow (p : Nat) (past : Bool) : Option (Nat × Int × Bool) :=
        let scale := scale + p
        let q' := q * Nat.pow 10 p + r * Nat.pow 10 p / d
        let r' := r * Nat.pow 10 p % d
        if limit ≤ q' then
          if scale - 1 < 0 then none
          else
            let low := q' / 10
            let digit := q' % 10
            let up := 5 < digit || (digit == 5 && (r' != 0 || low % 2 == 1))
            some (if up then low + 1 else low, scale - 1, past)
        else divideOn d fuel q' r' scale past
      if r == 0 then
        if 0 ≤ scale then some (q, scale, past)
        else
          let p := min 9 (-scale).toNat
          if limit ≤ q * Nat.pow 10 p then none else grow p past
      else
        let p := if scale == maxScale then 0 else growth q (min 9 ((maxScale : Int) - scale).toNat)
        if scale != maxScale && p < 9 && (p : Int) + scale < 0 then none
        else if p == 0 then
          let q' := if d < 2 * r || (2 * r == d && q % 2 == 1) then q + 1 else q
          if q' == limit then some (divEven q' 10, scale - 1, true) else some (q', scale, true)
        else grow p true

/-- Strips eight zeros at a time. -/
def stripEights : Nat → Nat → Nat → Nat × Nat
  | 0, q, scale => (q, scale)
  | fuel + 1, q, scale =>
      if q % 0x100000000 == 0 && 8 ≤ scale && q % 100000000 == 0 then
        stripEights fuel (q / 100000000) (scale - 8)
      else (q, scale)

/-- Strips `k` zeros once, if the coefficient is divisible by `d` and has them. -/
def stripOnce (d k : Nat) (qs : Nat × Nat) : Nat × Nat :=
  if qs.1 % d == 0 && k ≤ qs.2 && qs.1 % Nat.pow 10 k == 0 then
    (qs.1 / Nat.pow 10 k, qs.2 - k)
  else qs

/-- The quotient of two decimals. -/
def div (a b : Fixed) : Option Fixed :=
  if b.coefficient == 0 then none
  else if a.coefficient == 0 then some ⟨false, 0, 0⟩
  else
    let d := b.coefficient
    (divideOn d 64 (a.coefficient / d) (a.coefficient % d) ((a.scale : Int) - b.scale) false).map
      fun (q, scale, past) =>
        let qs :=
          if past then
            stripOnce 2 1 (stripOnce 4 2 (stripOnce 16 4 (stripEights 4 q scale.toNat)))
          else (q, scale.toNat)
        ⟨a.negative != b.negative, qs.1, qs.2⟩

/-! ## Back to numbers -/

/-- The integer equal to a decimal, if there is one. -/
def whole? (a : Fixed) : Option Int :=
  if a.coefficient % Nat.pow 10 a.scale == 0 then
    some (signed a.negative (a.coefficient / Nat.pow 10 a.scale))
  else none

/-- `base ^ n` by repeated squaring of floats, with the roundings that this brings. -/
def floatPow : Nat → Float → Float → Nat → Float
  | 0, r, _, _ => r
  | fuel + 1, r, base, n =>
      let r := if n % 2 == 1 then r * base else r
      if n / 2 == 0 then r else floatPow fuel r (base * base) (n / 2)

/-- The float near a decimal: whole part plus fraction, rounded to the decimal's places. -/
def toFloat (a : Fixed) : Float :=
  let size :=
    if a.scale == 0 then Float.ofNat a.coefficient
    else
      let unit := Nat.pow 10 a.scale
      let fraction := Float.ofNat (a.coefficient % unit) / Float.ofNat unit
      let whole := Float.ofNat (a.coefficient / unit)
      if fraction == Float.ofNat 0 then whole
      else
        let t := floatPow 6 (Float.ofNat 1) (Float.ofNat 10) a.scale
        roundAway ((whole + fraction) * t) / t
  if a.negative then -size else size

end Fixed

end Decimal
end Chord
