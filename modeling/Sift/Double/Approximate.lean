import Sift.Double.Decimal
import Sift.Text.Digits

/-!
# Approximate decimals

A way from digits to a double that rounds more than once. The digits that fit
64 bits are rounded to a double, and this is multiplied with the double nearest
to a power of ten, or divided by it, which rounds again. So the result may be a
neighbour of the nearest double.

* `Double.times`, `Double.dividedBy`: products and quotients, rounded to nearest;
* `Double.scaled`: a double times a power of ten;
* `Decimal.cut`: the digits of a number as far as they fit 64 bits;
* `Decimal.approximate`: the double made of them.
-/

namespace Sift

namespace Double

/-- The absolute value of a finite number, measured in the least positive one,
    `2 ^ -1074`. -/
def units (d : Double) : Nat :=
  let (m, e) := d.parts
  m * Nat.pow 2 (e + 1074).toNat

/-- The product of two finite numbers, infinite if there is nothing finite
    near. -/
def times (a b : Double) : Double :=
  .ofMagnitude (a.negative != b.negative)
    (Decimal.magnitudeOfUnits (a.units * b.units) (Nat.pow 2 1074))

/-- The quotient of two finite numbers, of which the second one is not zero. -/
def dividedBy (a b : Double) : Double :=
  .ofMagnitude (a.negative != b.negative) (Decimal.magnitudeOf a.units b.units)

/-- The double nearest to a power of ten. -/
def powerOfTen (n : Nat) : Double := Decimal.nearest false ⟨1, n⟩

/-- The greatest `n` with a finite `powerOfTen n`. -/
def powerBound : Nat := 308

/-- The number divided by the greatest power of ten `count` times, or until it
    is zero. -/
def lowered (d : Double) : (count : Nat) → Double
  | 0 => d
  | count + 1 =>
    if d.magnitude = 0 then d else (d.dividedBy (powerOfTen powerBound)).lowered count

/-- The number times a power of ten, infinite if there is nothing finite near.
    A power that is too small to divide by is divided by in several steps. -/
def scaled (d : Double) (exponent : Int) : Double :=
  let n := exponent.natAbs
  if 0 ≤ exponent then
    if n ≤ powerBound then d.times (powerOfTen n)
    else if d.magnitude = 0 then d
    else .ofMagnitude d.negative infinite
  else
    let count := (n - 1) / powerBound
    (d.lowered count).dividedBy (powerOfTen (n - count * powerBound))

end Double

namespace Decimal

open Text

/-- The integer with the digits `n` and those that follow as long as it fits
    64 bits; from then on each digit counts as a zero. -/
def cutWhole (n : Nat) : List Char → Decimal
  | [] => ⟨n, 0⟩
  | c :: cs =>
    let m := 10 * n + digitValue c
    if m < Nat.pow 2 64 then cutWhole m cs else ⟨n, (c :: cs).length⟩

/-- The decimal with the digits that follow behind its point as long as they
    fit 64 bits as well; the others are left out. -/
def cutFraction (x : Decimal) : List Char → Decimal
  | [] => x
  | c :: cs =>
    let m := 10 * x.coefficient + digitValue c
    if m < Nat.pow 2 64 then cutFraction ⟨m, x.exponent - 1⟩ cs else x

/-- The decimal `whole.fraction` times a power of ten, with the digits that fit
    64 bits. -/
def cut (whole fraction : List Char) (exponent : Int) : Decimal :=
  let x := cutFraction (cutWhole 0 whole) fraction
  ⟨x.coefficient, x.exponent + exponent⟩

/-- A double near a decimal, with the given sign: the coefficient is rounded,
    and then its product with the power of ten. -/
def approximate (negative : Bool) (x : Decimal) : Double :=
  .ofMagnitude negative ((Double.ofInt x.coefficient).scaled x.exponent).magnitude

end Decimal

end Sift
