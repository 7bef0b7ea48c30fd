import Sift.Filter.Comparator

/-!
# Property types

What a property holds, and which comparators make sense for it.

* `PropertyType`: the types;
* `PropertyType.comparators`: the comparators of a type, in the order in which
  they are offered;
* `PropertyType.ofName?`: a type by its name or one of its other names.
-/

namespace Sift

/-- The type of a property. -/
inductive PropertyType where
  | text
  | boolean
  | number
  | date
  | option
  | optionList
deriving DecidableEq

namespace PropertyType

/-- The name of a type. -/
def name : PropertyType → String
  | text => "text"
  | boolean => "boolean"
  | number => "number"
  | date => "date"
  | option => "option"
  | optionList => "option_list"

/-- All names of a type, its own one first. -/
def names : PropertyType → List String
  | text => ["text", "title", "rich_text"]
  | boolean => ["boolean", "checkbox"]
  | number => ["number"]
  | date => ["date", "timestamp"]
  | option => ["option", "select", "status"]
  | optionList => ["option_list", "option-list", "multi_select"]

/-- All types, in the order in which they are listed. -/
def all : List PropertyType := [text, boolean, number, date, option, optionList]

/-- The type with this name. -/
def ofName? (s : String) : Option PropertyType := all.find? fun t => t.names.contains s

theorem ofName?_name (t : PropertyType) : ofName? t.name = some t := by cases t <;> rfl

/-- The comparators for a type, in the order in which they are offered. -/
def comparators : PropertyType → List Comparator
  | boolean => [.equals, .notEquals]
  | number =>
    [.equals, .notEquals, .isEmpty, .isNotEmpty, .greaterThan, .lessThan, .greaterThanOrEqualTo,
      .lessThanOrEqualTo]
  | text | option => [.equals, .notEquals, .contains, .notContains, .isEmpty, .isNotEmpty]
  | optionList => [.contains, .notContains, .isEmpty, .isNotEmpty]
  | date =>
    [.equals, .notEquals, .isEmpty, .isNotEmpty, .before, .after, .onOrBefore, .onOrAfter]

/-- Whether a comparator makes sense for a type. -/
def allows (t : PropertyType) (c : Comparator) : Bool := t.comparators.contains c

end PropertyType

end Sift
