import Chord.Decimal.Binary

/-!
# Shortest decimals

The fewest decimal digits that read back as the same float.

**Input.** A significand and a power of two.

**Algorithm.** The reals that round to a float form an interval, which contains its ends exactly
when the significand is even. For one digit, two digits and so on the two neighbours of the value
on the decimal grid with that many digits are tried; the first grid with a neighbour in the interval
wins, and of two neighbours the nearer one.

**Results.** `shortest` gives the digits and the decimal exponent of the first of them.
-/

namespace Chord
namespace Decimal

/-- Digits `d₀d₁d₂…` that stand for `d₀.d₁d₂… * 10 ^ exponent`. -/
structure Numeral where
  digits : List Char
  exponent : Int
deriving DecidableEq, Repr

/-- Where a value goes that lies halfway between two candidates. -/
inductive Tie where
  | up
  | even
deriving DecidableEq, Repr

/-- The numbers `value / den` that round to one float, with their ends. -/
structure Interval where
  low : Nat
  value : Nat
  high : Nat
  den : Nat
  closed : Bool
deriving DecidableEq, Repr

/-- The interval of `m * 2 ^ p`. Below a power of two the next float is half as far away as above
it, unless the number is among the smallest. -/
def Interval.around (m : Nat) (p : Int) : Interval :=
  let below := if m == 0x10000000000000 && p != -1074 then 1 else 2
  let up := Nat.pow 2 (p - 2).toNat
  { low := (4 * m - below) * up
    value := 4 * m * up
    high := (4 * m + 2) * up
    den := Nat.pow 2 (2 - p).toNat
    closed := m % 2 == 0 }

/-- The interval in units of `10 ^ g`. -/
def Interval.scale (i : Interval) (g : Int) : Interval :=
  let up := Nat.pow 10 (-g).toNat
  { i with
    low := i.low * up
    value := i.value * up
    high := i.high * up
    den := i.den * Nat.pow 10 g.toNat }

/-- Whether the integer `n` lies in the interval. -/
def Interval.holds (i : Interval) (n : Nat) : Bool :=
  if i.closed then i.low ≤ n * i.den && n * i.den ≤ i.high
  else i.low < n * i.den && n * i.den < i.high

/-- The integer next to the value that lies in the interval, the nearer one if both do. -/
def Interval.candidate? (tie : Tie) (i : Interval) : Option Nat :=
  let n := i.value / i.den
  let rest := i.value % i.den
  match i.holds n, i.holds (n + 1) with
  | true, true =>
      if 2 * rest < i.den then some n
      else if i.den < 2 * rest then some (n + 1)
      else match tie with
        | .up => some (n + 1)
        | .even => some (if n % 2 == 0 then n else n + 1)
  | true, false => some n
  | false, true => some (n + 1)
  | false, false => none

/-- The least `k`, counted from `found`, for which `a * 10 ^ k` is not below `b`. -/
def leadingZeros (b : Nat) : Nat → Nat → Nat → Nat
  | 0, _, found => found
  | fuel + 1, a, found => if b ≤ a then found else leadingZeros b fuel (a * 10) (found + 1)

/-- The exponent of the first digit of `a / b`. -/
def firstExponent (a b : Nat) : Int :=
  if b ≤ a then ((Nat.toDigits 10 (a / b)).length : Int) - 1
  else -(leadingZeros b 400 a 0 : Int)

/-- Tries `count` and more digits on a value whose first digit has exponent `e`. -/
def searchDigits (tie : Tie) (i : Interval) (e : Int) : Nat → Nat → Nat × Int
  | 0, count =>
      let g := e - count + 1
      ((i.scale g).value / (i.scale g).den, g)
  | fuel + 1, count =>
      let g := e - count + 1
      match (i.scale g).candidate? tie with
      | some n => (n, g)
      | none => searchDigits tie i e fuel (count + 1)

/-- Digits without the zeros at their end. -/
def stripZeros (ds : List Char) : List Char :=
  (ds.reverse.dropWhile (· == '0')).reverse

/-- The numeral of `n * 10 ^ g`, `n` positive. -/
def Numeral.ofScaled (n : Nat) (g : Int) : Numeral :=
  let ds := Nat.toDigits 10 n
  { digits := stripZeros ds, exponent := g + ds.length - 1 }

/-- The shortest numeral that reads back as the float `m * 2 ^ p`, `m` positive. -/
def shortest (tie : Tie) (m : Nat) (p : Int) : Numeral :=
  let i := Interval.around m p
  let (n, g) := searchDigits tie i (firstExponent i.value i.den) 17 1
  Numeral.ofScaled n g

end Decimal
end Chord
