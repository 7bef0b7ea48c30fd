/-!
# Decimal digits

Numbers as runs of the ASCII digits, most significant first.

* `digitsOf`, `valueOf`: from a number to its digits and back;
* `padded`: digits filled up with zeros on the left.
-/

namespace Sift.Text

/-- The ASCII digits. -/
def isDigit (c : Char) : Bool := '0' ≤ c && c ≤ '9'

/-- The value of an ASCII digit. -/
def digitValue (c : Char) : Nat := c.toNat - '0'.toNat

/-- The number written with the digits `s`. -/
def valueOf (s : List Char) : Nat := s.foldl (fun n c => 10 * n + digitValue c) 0

/-- The decimal digits of a number, without leading zeros. -/
def digitsOf (n : Nat) : List Char := Nat.toDigits 10 n

/-- The digits of `n`, with zeros in front up to `width` characters. -/
def padded (width n : Nat) : List Char :=
  let digits := digitsOf n
  List.replicate (width - digits.length) '0' ++ digits

/-- The digits of an integer, with a minus in front of a negative one. -/
def signedDigits (i : Int) : List Char :=
  if i < 0 then '-' :: digitsOf i.natAbs else digitsOf i.natAbs

/-- The value of a hexadecimal digit, in either letter case. -/
def hexValue? (c : Char) : Option Nat :=
  if '0' ≤ c && c ≤ '9' then some (c.toNat - '0'.toNat)
  else if 'a' ≤ c && c ≤ 'f' then some (c.toNat - 'a'.toNat + 10)
  else if 'A' ≤ c && c ≤ 'F' then some (c.toNat - 'A'.toNat + 10)
  else none

end Sift.Text
