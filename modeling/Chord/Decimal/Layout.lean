import Chord.Decimal.Shortest

/-!
# Number text

How the digits of a number are set out.

**Input.** Numerals and floats.

**Results.** A `Layout` says where positional notation ends, whether a whole number keeps `.0`, how
ties between two shortest numerals go and what infinities and NaN are called; `Layout.render` writes
a float accordingly.
-/

namespace Chord
namespace Decimal

/-- The choices that a number format makes. -/
structure Layout where
  /-- Which exponents of the first digit are written positionally. -/
  positional : Int → Bool
  /-- Whether a whole number written positionally ends in `.0`. -/
  keepPoint : Bool
  tie : Tie
  nan : String
  infinity : String
  negativeInfinity : String

/-- Digits with the point after the first `e + 1` places. -/
def Numeral.positional (keepPoint : Bool) (n : Numeral) : List Char :=
  if n.exponent < 0 then
    '0' :: '.' :: List.replicate (-n.exponent - 1).toNat '0' ++ n.digits
  else
    let places := n.exponent.toNat + 1
    if n.digits.length ≤ places then
      n.digits ++ List.replicate (places - n.digits.length) '0'
        ++ (if keepPoint then ['.', '0'] else [])
    else n.digits.take places ++ '.' :: n.digits.drop places

/-- One digit, the others after a point, and the exponent with its sign. -/
def Numeral.scientific (n : Numeral) : List Char :=
  let tail := n.digits.drop 1
  n.digits.take 1 ++ (if tail.isEmpty then [] else '.' :: tail)
    ++ 'e' :: (if n.exponent < 0 then '-' else '+') :: Nat.toDigits 10 n.exponent.natAbs

/-- The text of a float. -/
def Layout.render (l : Layout) (x : Float) : String :=
  match parts x with
  | .nan => l.nan
  | .infinite negative => if negative then l.negativeInfinity else l.infinity
  | .finite negative m p =>
      let size :=
        if m == 0 then (⟨['0'], 0⟩ : Numeral).positional l.keepPoint
        else
          let n := shortest l.tie m p
          if l.positional n.exponent then n.positional l.keepPoint else n.scientific
      String.ofList (if negative then '-' :: size else size)

/-- Numbers as scripts show them: every digit in its place, no point after a whole number, and of
two shortest numerals the upper one. -/
def plain : Layout where
  positional := fun _ => true
  keepPoint := false
  tie := .up
  nan := "NaN"
  infinity := "inf"
  negativeInfinity := "-inf"

/-- Numbers as JSON text shows them: an exponent outside of `10 ^ -5` to `10 ^ 16`, a point in every
float, and of two shortest numerals the even one. What is not finite is null. -/
def json : Layout where
  positional := fun e => -5 ≤ e && e < 16
  keepPoint := true
  tie := .even
  nan := "null"
  infinity := "null"
  negativeInfinity := "null"

/-- The text of a float in a script. -/
def text (x : Float) : String :=
  plain.render x

end Decimal
end Chord
