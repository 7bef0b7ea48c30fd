import Sift.Json.Basic
import Sift.Double.Spelling

/-!
# Writing JSON

JSON text, on one line or spread over lines. Strings escape quotes,
backslashes and controls, and nothing else.

* `Json.written`: the text without any blanks;
* `Json.laidOut`: the text with one item a line, indented by two spaces a
  level.
-/

namespace Sift.Json

/-- A character inside a string. -/
def escape (c : Char) : List Char :=
  if c = '"' ∨ c = '\\' then ['\\', c]
  else if c = '\n' then ['\\', 'n']
  else if c = '\r' then ['\\', 'r']
  else if c = '\t' then ['\\', 't']
  else if c = '\x08' then ['\\', 'b']
  else if c = '\x0c' then ['\\', 'f']
  else if c.toNat < 0x20 then
    ['\\', 'u', '0', '0', Nat.digitChar (c.toNat / 16), Nat.digitChar (c.toNat % 16)]
  else [c]

/-- A string with its quotes. -/
def writtenText (s : String) : List Char := '"' :: s.toList.flatMap escape ++ ['"']

/-- A number; an integer has no point, any other number has a point or an
    exponent. -/
def Number.written : Number → List Char
  | .integer i => Text.signedDigits i
  | .double d => d.spelled

mutual

/-- The text of a value, without blanks. -/
def written : Json → List Char
  | .null => "null".toList
  | .boolean b => if b then "true".toList else "false".toList
  | .number n => n.written
  | .text s => writtenText s
  | .list [] => "[]".toList
  | .list (x :: xs) => '[' :: x.written ++ writtenItems xs ++ [']']
  | .object [] => ['\x7b', '\x7d']
  | .object ((k, x) :: xs) =>
    '\x7b' :: writtenText k ++ ':' :: x.written ++ writtenEntries xs ++ ['\x7d']
termination_by structural j => j

/-- The items after the first one. -/
def writtenItems : List Json → List Char
  | [] => []
  | x :: xs => ',' :: x.written ++ writtenItems xs
termination_by structural xs => xs

/-- The entries after the first one. -/
def writtenEntries : List (String × Json) → List Char
  | [] => []
  | (k, x) :: xs => ',' :: writtenText k ++ ':' :: x.written ++ writtenEntries xs
termination_by structural xs => xs

end

/-- A new line, indented to a level. -/
def newLine (level : Nat) : List Char := '\n' :: List.replicate (2 * level) ' '

mutual

/-- The text of a value that starts at a level, over several lines. -/
def laidOutAt : Json → Nat → List Char
  | .null, _ => "null".toList
  | .boolean b, _ => if b then "true".toList else "false".toList
  | .number n, _ => n.written
  | .text s, _ => writtenText s
  | .list [], _ => "[]".toList
  | .list (x :: xs), level =>
    '[' :: newLine (level + 1) ++ x.laidOutAt (level + 1) ++ laidOutItems xs (level + 1) ++
      newLine level ++ [']']
  | .object [], _ => ['\x7b', '\x7d']
  | .object ((k, x) :: xs), level =>
    '\x7b' :: newLine (level + 1) ++ writtenText k ++ ": ".toList ++ x.laidOutAt (level + 1) ++
      laidOutEntries xs (level + 1) ++ newLine level ++ ['\x7d']
termination_by structural j => j

/-- The items after the first one, each on a line of its own. -/
def laidOutItems : List Json → Nat → List Char
  | [], _ => []
  | x :: xs, level => ',' :: newLine level ++ x.laidOutAt level ++ laidOutItems xs level
termination_by structural xs => xs

/-- The entries after the first one, each on a line of its own. -/
def laidOutEntries : List (String × Json) → Nat → List Char
  | [], _ => []
  | (k, x) :: xs, level =>
    ',' :: newLine level ++ writtenText k ++ ": ".toList ++ x.laidOutAt level ++
      laidOutEntries xs level
termination_by structural xs => xs

end

/-- The text of a value over several lines. -/
def laidOut (j : Json) : List Char := j.laidOutAt 0

/-- The text of a value on one line, as a string. -/
def toText (j : Json) : String := String.ofList j.written

end Sift.Json
