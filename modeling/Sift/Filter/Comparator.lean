import Sift.Text.Reader

/-!
# Comparators

The relations between a property's value and an operand.

* `Comparator`: the relations, and one for names that are none of them;
* `Comparator.ofName`, `Comparator.ofWord`: a comparator by its name, exactly
  or in any ASCII letter case.
-/

namespace Sift

/-- A relation between a value and an operand. -/
inductive Comparator where
  | equals
  | notEquals
  | contains
  | notContains
  | isEmpty
  | isNotEmpty
  | greaterThan
  | lessThan
  | greaterThanOrEqualTo
  | lessThanOrEqualTo
  | before
  | after
  | onOrBefore
  | onOrAfter
  /-- The relation of a name that names no relation. -/
  | unknown
deriving DecidableEq

namespace Comparator

/-- The name of a comparator, in queries and in stored filters. -/
def name : Comparator → String
  | equals => "equals"
  | notEquals => "not_equals"
  | contains => "contains"
  | notContains => "not_contains"
  | isEmpty => "is_empty"
  | isNotEmpty => "is_not_empty"
  | greaterThan => "greater_than"
  | lessThan => "less_than"
  | greaterThanOrEqualTo => "greater_than_or_equal_to"
  | lessThanOrEqualTo => "less_than_or_equal_to"
  | before => "before"
  | after => "after"
  | onOrBefore => "on_or_before"
  | onOrAfter => "on_or_after"
  | unknown => "unknown"

/-- All comparators but the unknown one. -/
def all : List Comparator :=
  [equals, notEquals, contains, notContains, isEmpty, isNotEmpty, greaterThan, lessThan,
    greaterThanOrEqualTo, lessThanOrEqualTo, before, after, onOrBefore, onOrAfter]

/-- The comparator of a name. -/
def ofName (s : String) : Comparator := (all.find? fun c => c.name == s).getD unknown

/-- The comparator of a word, in any ASCII letter case. -/
def ofWord (s : List Char) : Comparator := ofName (String.ofList (Text.lowerAscii s))

/-- The name in words: blanks for underscores. -/
def label (c : Comparator) : String :=
  String.ofList (c.name.toList.map fun x => if x = '_' then ' ' else x)

/-- Whether the comparator takes no operand. -/
def isUnary (c : Comparator) : Bool := c = isEmpty || c = isNotEmpty

theorem ofName_name (c : Comparator) : ofName c.name = c := by cases c <;> rfl

end Comparator

end Sift
