import Sift.Text.Digits
import Sift.Text.Printable

/-!
# Quoted text

Text between double quotes, in two manners of escaping.

* `quote`: a backslash before each quote and backslash, and nothing else: the
  manner of queries;
* `exhibit`: also named and numbered escapes for what a reader could not see:
  the manner of error messages.
-/

namespace Sift.Text

/-- A character inside quotes: a quote or a backslash has a backslash before
    it. -/
def escape (c : Char) : List Char :=
  if c = '"' ∨ c = '\\' then ['\\', c] else [c]

/-- A text between quotes. -/
def quote (s : List Char) : List Char := '"' :: s.flatMap escape ++ ['"']

/-- A character inside the quotes of an error message. -/
def reveal (c : Char) : List Char :=
  if c = '\x00' then ['\\', '0']
  else if c = '\t' then ['\\', 't']
  else if c = '\r' then ['\\', 'r']
  else if c = '\n' then ['\\', 'n']
  else if c = '"' ∨ c = '\\' then ['\\', c]
  else if isPrintable c then [c]
  else '\\' :: 'u' :: '\x7b' :: Nat.toDigits 16 c.toNat ++ ['\x7d']

/-- A text between quotes, in an error message. -/
def exhibit (s : String) : String :=
  String.ofList ('"' :: s.toList.flatMap reveal ++ ['"'])

end Sift.Text
