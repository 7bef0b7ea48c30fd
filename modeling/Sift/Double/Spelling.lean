import Sift.Double.Decimal
import Sift.Text.Digits

/-!
# How numbers are written

Two ways to write a double, both from a decimal with the fewest digits that
read back.

* `Double.plain`: always positional, an integer without a point: the way of
  queries and lists of values;
* `Double.spelled`: with a point or an exponent, so that it reads as a double:
  the way of JSON;
* `Double.ofText?`: the other direction, for either way.
-/

namespace Sift

namespace Decimal

/-- The digits of a decimal in positional notation: the integer part and the
    fractional part. -/
def places (x : Decimal) : List Char × List Char :=
  let digits := Text.digitsOf x.coefficient
  if 0 ≤ x.exponent then (digits ++ List.replicate x.exponent.toNat '0', [])
  else
    let after := (-x.exponent).toNat
    let filled := List.replicate (after + 1 - digits.length) '0' ++ digits
    (filled.take (filled.length - after), filled.drop (filled.length - after))

/-- The exponent of the first digit. -/
def leading (x : Decimal) : Int := (Text.digitsOf x.coefficient).length + x.exponent - 1

/-- One digit, the others after a point, and the exponent with its sign. -/
def scientific (x : Decimal) : List Char :=
  let sign := if x.leading < 0 then [] else ['+']
  let power := 'e' :: sign ++ Text.signedDigits x.leading
  match Text.digitsOf x.coefficient with
  | [] => power
  | [c] => c :: power
  | c :: cs => c :: '.' :: cs ++ power

end Decimal

namespace Double

/-- The minus of a negative number, also of a negative zero. -/
def sign (d : Double) : List Char := if d.negative then ['-'] else []

/-- A number in positional notation, without a point if it is an integer. Two
    equally near candidates go to the greater one. -/
def plain (d : Double) : List Char :=
  if d.isNaN then "NaN".toList
  else if !d.isFinite then d.sign ++ "inf".toList
  else match (d.shortest .up).places with
    | (whole, []) => d.sign ++ whole
    | (whole, fraction) => d.sign ++ whole ++ '.' :: fraction

/-- A number as JSON writes it: positional from `1e-5` to below `1e16`, with
    `.0` after an integer, and scientific beyond. Two equally near candidates
    go to the even one, and what is not finite is written as `null`. -/
def spelled (d : Double) : List Char :=
  if !d.isFinite then "null".toList
  else
    let x := d.shortest .even
    if -5 ≤ x.leading ∧ x.leading ≤ 15 then
      match x.places with
      | (whole, []) => d.sign ++ whole ++ ".0".toList
      | (whole, fraction) => d.sign ++ whole ++ '.' :: fraction
    else d.sign ++ x.scientific

end Double

/-- The decimal `whole.fraction` times a power of ten. -/
def Decimal.ofDigits (whole fraction : List Char) (exponent : Int) : Decimal :=
  ⟨Text.valueOf (whole ++ fraction), exponent - fraction.length⟩

/-- Whether a text starts with a minus, and the text without its sign. -/
def splitSign : List Char → Bool × List Char
  | '-' :: r => (true, r)
  | '+' :: r => (false, r)
  | s => (false, s)

/-- The digits after a point, if there is a point, and what follows them. -/
def splitFraction : List Char → List Char × List Char
  | '.' :: r => (r.takeWhile Text.isDigit, r.dropWhile Text.isDigit)
  | s => ([], s)

/-- The power of ten at the end of a number: none is a power of 0. -/
def powerOf? : List Char → Option Int
  | [] => some 0
  | c :: r =>
    let (negative, digits) := splitSign r
    if (c = 'e' ∨ c = 'E') ∧ !digits.isEmpty ∧ digits.all Text.isDigit then
      some (if negative then -(Text.valueOf digits : Int) else Text.valueOf digits)
    else none

/-- The double nearest to a number in digits: an optional sign, digits with at
    most one point among them or at their ends, and an optional power of
    ten. -/
def Double.ofText? (s : List Char) : Option Double :=
  let (negative, s) := splitSign s
  let whole := s.takeWhile Text.isDigit
  let (fraction, s) := splitFraction (s.dropWhile Text.isDigit)
  if whole.isEmpty && fraction.isEmpty then none
  else (powerOf? s).map fun power => (Decimal.ofDigits whole fraction power).nearest negative

end Sift
