import Sift.Double.Basic

/-!
# Decimals and doubles

Between decimals, `c * 10 ^ x`, and the doubles near them.

* `Decimal.nearest`: the double nearest to a decimal, ties to even, in exact
  arithmetic;
* `Double.exact`: the decimal equal to a finite double;
* `Double.shortest`: among the decimals that read back as a double, one with
  the fewest digits, and of those the nearest.

`Double.shortest` only ever gives decimals that were read back, or the exact
one.
-/

namespace Sift

/-- The decimal `coefficient * 10 ^ exponent`. -/
structure Decimal where
  coefficient : Nat
  exponent : Int
deriving DecidableEq

/-- Which of two equally near neighbours is taken. -/
inductive Tie
  /-- The neighbour with an even last digit. -/
  | even
  /-- The neighbour farther from zero. -/
  | up
deriving DecidableEq

namespace Decimal

/-- The quotient of `n` and `d` rounded to an integer, ties to even. -/
def quotient (n d : Nat) : Nat :=
  let q := n / d
  let r := n % d
  if 2 * r < d ∨ (2 * r = d ∧ q % 2 = 0) then q else q + 1

/-- The magnitude of the double nearest to `n / d`, measured in the least
    positive double, `2 ^ -1074`. A value of more than 53 bits keeps its first
    53. A carry out of these moves on to the next exponent by itself. -/
def magnitudeOfUnits (n d : Nat) : Nat :=
  let shift := (n / d).log2 - 52
  shift * Nat.pow 2 52 + quotient n (d * Nat.pow 2 shift)

/-- The magnitude of the double nearest to `n / d`. -/
def magnitudeOf (n d : Nat) : Nat := magnitudeOfUnits (n * Nat.pow 2 1074) d

/-- The double nearest to a decimal, with the given sign. Beyond `10 ^ 308`
    there is only infinity, and below `10 ^ -324` only zero. -/
def nearest (negative : Bool) (x : Decimal) : Double :=
  if x.coefficient = 0 then .ofMagnitude negative 0
  else if 0 ≤ x.exponent then
    if 308 < x.exponent then .ofMagnitude negative Double.infinite
    else .ofMagnitude negative (magnitudeOf (x.coefficient * Nat.pow 10 x.exponent.toNat) 1)
  else if 325 + x.coefficient.log2 / 3 < -x.exponent then .ofMagnitude negative 0
  else .ofMagnitude negative (magnitudeOf x.coefficient (Nat.pow 10 (-x.exponent).toNat))

/-- The number of decimal digits. -/
def digitCount (n : Nat) : Nat := (Nat.toDigits 10 n).length

/-- The two decimals around `x` with `dropped` digits less, the nearer one
    first; only `x` itself if the digits dropped are zeros. -/
def neighbours (tie : Tie) (x : Decimal) (dropped : Nat) : List Decimal :=
  let step := Nat.pow 10 dropped
  let below := x.coefficient / step
  let past := x.coefficient % step
  let down : Decimal := ⟨below, x.exponent + dropped⟩
  let up : Decimal := ⟨below + 1, x.exponent + dropped⟩
  if past = 0 then [down]
  else if 2 * past < step then [down, up]
  else if step < 2 * past then [up, down]
  else if tie = .even ∧ below % 2 = 0 then [down, up]
  else [up, down]

/-- A decimal without the zeros at the end of its coefficient. -/
def trimmed (x : Decimal) : Decimal :=
  let digits := Nat.toDigits 10 x.coefficient
  let zeros := (digits.reverse.takeWhile (· == '0')).length
  if x.coefficient = 0 then ⟨0, 0⟩
  else ⟨x.coefficient / Nat.pow 10 zeros, x.exponent + zeros⟩

end Decimal

namespace Double

/-- The double nearest to an integer. -/
def ofInt (i : Int) : Double := Decimal.nearest (i < 0) ⟨i.natAbs, 0⟩

/-- The decimal equal to the absolute value of a finite double. -/
def exact (d : Double) : Decimal :=
  let (m, e) := d.parts
  if 0 ≤ e then ⟨m * Nat.pow 2 e.toNat, 0⟩ else ⟨m * Nat.pow 5 (-e).toNat, e⟩

/-- A decimal with the fewest digits that reads back as `d`, the nearest one
    of these, ties broken by `tie`. Seventeen digits always suffice, so the
    exact decimal is only taken if it has fewer digits than were tried. -/
def shortest (tie : Tie) (d : Double) : Decimal :=
  let x := d.exact
  let count := Decimal.digitCount x.coefficient
  let found := (List.range (min 17 (count - 1))).findSome? fun n =>
    (x.neighbours tie (count - (n + 1))).find? fun y => y.nearest d.negative = d
  (found.getD x).trimmed

end Double

end Sift
