/-!
# Reading numbers

Decimal text as the nearest float.

**Input.** Texts as lists of characters.

**Results.** `read?` accepts an optional sign and then either digits with an optional point on any
side of them and an optional exponent, or `inf`, `infinity` or `nan` in any case. The result is the
float nearest to the number written.
-/

namespace Chord
namespace Decimal

/-- The value of decimal digits that follow the number `n`. -/
def digitsFrom (n : Nat) (ds : List Char) : Nat :=
  ds.foldl (fun acc d => 10 * acc + (d.toNat - '0'.toNat)) n

/-- The value of decimal digits. -/
def digitsValue (ds : List Char) : Nat :=
  digitsFrom 0 ds

/-- The positive float infinity. -/
def infinity : Float :=
  Float.ofBits 0x7FF0000000000000

/-- The float that is not a number. -/
def notANumber : Float :=
  Float.ofBits 0x7FF8000000000000

/-- The float nearest to `n * 10 ^ e`. Far outside the range of floats the power is not formed. -/
def nearest (n : Nat) (e : Int) : Float :=
  if n == 0 then Float.ofNat 0
  else
    let size := ((Nat.toDigits 10 n).length : Int) + e
    if 400 < size then infinity
    else if size < -400 then Float.ofNat 0
    else if 0 ≤ e then Float.ofScientific n false e.toNat
    else Float.ofScientific n true (-e).toNat

/-- Takes a sign off the front of a text; the flag tells whether it was a minus. -/
def splitSign : List Char → Bool × List Char
  | '-' :: cs => (true, cs)
  | '+' :: cs => (false, cs)
  | cs => (false, cs)

/-- An exponent part up to the end of the text: nothing, or `e` and a signed number. -/
def exponent? : List Char → Option Int
  | [] => some 0
  | c :: cs =>
      if c == 'e' || c == 'E' then
        let (negative, ds) := splitSign cs
        if ds.isEmpty || !ds.all Char.isDigit then none
        else some (if negative then -(digitsValue ds : Int) else digitsValue ds)
      else none

/-- The size of a number written with digits, a point and an exponent. -/
def magnitude? (cs : List Char) : Option Float :=
  let whole := cs.takeWhile Char.isDigit
  let rest := cs.dropWhile Char.isDigit
  let (fraction, rest) :=
    match rest with
    | '.' :: more => (more.takeWhile Char.isDigit, more.dropWhile Char.isDigit)
    | _ => ([], rest)
  if whole.isEmpty && fraction.isEmpty then none
  else (exponent? rest).map fun e => nearest (digitsValue (whole ++ fraction)) (e - fraction.length)

/-- The float that a text denotes, if it denotes one. -/
def read? (cs : List Char) : Option Float :=
  let (negative, cs) := splitSign cs
  let size :=
    match String.ofList (cs.map Char.toLower) with
    | "inf" => some infinity
    | "infinity" => some infinity
    | "nan" => some notANumber
    | _ => magnitude? cs
  size.map fun x => if negative then -x else x

end Decimal
end Chord
