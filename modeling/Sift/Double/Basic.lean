/-!
# Double precision numbers

The numbers of IEEE 754 binary64, as a sign and a *magnitude*: the exponent
and fraction fields read together as one number. Magnitudes grow with the
absolute values they stand for, so comparing numbers is comparing integers.

* `Double`: the type, with its infinities and NaNs;
* `Double.equals`, `Double.less`: the comparisons of IEEE 754, in which a NaN
  is not even equal to itself and the two zeros are equal;
* `Double.rank`: the position in the total order, from the negative NaNs to
  the positive ones.
-/

namespace Sift

/-- A binary64 number. -/
structure Double where
  negative : Bool
  /-- The exponent field and the fraction field, in this order. -/
  magnitude : Nat
  magnitude_lt : magnitude < Nat.pow 2 63
deriving DecidableEq

namespace Double

/-- The magnitude of the infinities: all exponent bits set, no fraction. -/
def infinite : Nat := 2047 * Nat.pow 2 52

/-- A number of the given sign, with magnitudes cut off at the infinities. -/
def ofMagnitude (negative : Bool) (magnitude : Nat) : Double where
  negative := negative
  magnitude := min magnitude infinite
  magnitude_lt := Nat.lt_of_le_of_lt (Nat.min_le_right ..) (by decide)

/-- Whether this is no number. -/
def isNaN (d : Double) : Bool := infinite < d.magnitude

/-- Whether this is a number other than an infinity. -/
def isFinite (d : Double) : Bool := d.magnitude < infinite

/-- The magnitude with its sign; both zeros give 0. -/
def signed (d : Double) : Int := if d.negative then -d.magnitude else d.magnitude

/-- The equality of numbers: a NaN equals nothing, and `-0` equals `0`. -/
def equals (a b : Double) : Bool := !a.isNaN && !b.isNaN && a.signed == b.signed

/-- The order of numbers; a NaN is in no relation. -/
def less (a b : Double) : Bool := !a.isNaN && !b.isNaN && a.signed < b.signed

/-- The order of numbers or their equality. -/
def lessOrEqual (a b : Double) : Bool := !a.isNaN && !b.isNaN && a.signed ≤ b.signed

/-- The position in the total order of all numbers, in which `-0` comes before
    `0` and the NaNs are at the two ends. -/
def rank (d : Double) : Int := if d.negative then -d.magnitude - 1 else d.magnitude

/-- The significand and the binary exponent of a finite number: its absolute
    value is `m * 2 ^ e` for `(m, e) = d.parts`. -/
def parts (d : Double) : Nat × Int :=
  let exponent : Nat := d.magnitude / Nat.pow 2 52
  let fraction : Nat := d.magnitude % Nat.pow 2 52
  if exponent = 0 then (fraction, -1074)
  else (Nat.pow 2 52 + fraction, (exponent : Int) - 1075)

theorem rank_injective {a b : Double} (h : a.rank = b.rank) : a = b := by
  obtain ⟨na, ma, ha⟩ := a
  obtain ⟨nb, mb, hb⟩ := b
  cases na <;> cases nb <;> simp only [rank, Bool.false_eq_true, ↓reduceIte] at h <;>
    first
      | (obtain rfl : ma = mb := by omega)
        rfl
      | omega

end Double

end Sift
