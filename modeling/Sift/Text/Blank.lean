/-!
# Blanks

The characters with the Unicode property `White_Space`: the blanks that may
stand between the tokens of a query and around an instant.

* `isBlank`: the property itself, a short fixed list;
* `skipBlanks`, `trimBlanks`: a text without its leading blanks, and without
  the blanks on both sides.
-/

namespace Sift.Text

/-- The characters of the Unicode property `White_Space`. -/
def isBlank (c : Char) : Bool :=
  let n := c.toNat
  (9 ≤ n && n ≤ 13) || n == 0x20 || n == 0x85 || n == 0xA0 || n == 0x1680 ||
    (0x2000 ≤ n && n ≤ 0x200A) || n == 0x2028 || n == 0x2029 || n == 0x202F ||
    n == 0x205F || n == 0x3000

/-- A text without its leading blanks. -/
def skipBlanks (s : List Char) : List Char := s.dropWhile isBlank

/-- A text without its leading and trailing blanks. -/
def trimBlanks (s : List Char) : List Char :=
  (skipBlanks (skipBlanks s).reverse).reverse

theorem length_skipBlanks_le (s : List Char) : (skipBlanks s).length ≤ s.length :=
  (List.dropWhile_sublist _).length_le

end Sift.Text
