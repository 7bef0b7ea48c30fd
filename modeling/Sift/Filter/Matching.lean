import Sift.Filter.Basic
import Sift.Record.Value

/-!
# Conditions on a value

When the value of a property satisfies a condition. Every pair of a value and
an operand has an answer: where they do not fit together, an affirmative
comparator fails, and a negative one holds.

* `Value.equals`, `Value.contains`, …: one test for each comparator;
* `Condition.holds`: the test of a condition.
-/

namespace Sift

/-- How the equality comparators treat dates. -/
inductive DateEquality where
  /-- A date equals nothing. -/
  | identity
  /-- A date equals another one in the same millisecond. -/
  | instant
deriving DecidableEq

/-- Whether `needle` stands somewhere in a text. -/
def occursIn (needle : List Char) : List Char → Bool
  | [] => needle.isEmpty
  | c :: s => needle.isPrefixOf (c :: s) || occursIn needle s

namespace Value

/-- Everything but null, the empty text and the empty list of tags. -/
def isNotEmpty : Value → Bool
  | null => false
  | text s => !s.isEmpty
  | optionList ts => !ts.isEmpty
  | _ => true

/-- The equality of a value and an operand: tags count by their names. -/
def equals (mode : DateEquality) (v : Value) (x : Operand) : Bool :=
  match v, x with
  | option t, .text s => t.name = s
  | text a, .text b => a = b
  | boolean a, .boolean b => a = b
  | number a, .number b => a.equals b
  | date a, x =>
    match mode with
    | .identity => false
    | .instant => x.asDate?.any fun b => a.milliseconds = b.milliseconds
  | _, _ => false

/-- A text contains the texts inside it, and a list of tags the names of its
    tags. -/
def contains (v : Value) (needle : String) : Bool :=
  match v with
  | text s => occursIn needle.toList s.toList
  | optionList ts => ts.any fun t => t.name = needle
  | _ => false

/-- A list of tags with all of the names; any value if there are no names. -/
def containsAll (v : Value) (names : List String) : Bool :=
  match v with
  | optionList ts => names.all fun name => ts.any fun t => t.name = name
  | _ => names.isEmpty

/-- A list of tags with one of the names. -/
def containsAny (v : Value) (names : List String) : Bool :=
  match v with
  | optionList ts => ts.any fun t => names.contains t.name
  | _ => false

/-- A number in some relation to another one. -/
def isNumber (relation : Double → Bool) : Value → Bool
  | number d => relation d
  | _ => false

/-- A date whose milliseconds are in some relation to those of another one. -/
def isDate (relation : Int → Bool) : Value → Bool
  | date i => relation i.milliseconds
  | _ => false

/-- A number above a bound. -/
def greaterThan (v : Value) (bound : Double) : Bool := v.isNumber fun d => bound.less d

/-- A number below a bound. -/
def lessThan (v : Value) (bound : Double) : Bool := v.isNumber fun d => d.less bound

/-- A number not below a bound. -/
def greaterThanOrEqualTo (v : Value) (bound : Double) : Bool :=
  v.isNumber fun d => bound.lessOrEqual d

/-- A number not above a bound. -/
def lessThanOrEqualTo (v : Value) (bound : Double) : Bool := v.isNumber fun d => d.lessOrEqual bound

/-- A date before another one. -/
def before (v : Value) (bound : Instant) : Bool := v.isDate fun t => t < bound.milliseconds

/-- A date after another one. -/
def after (v : Value) (bound : Instant) : Bool := v.isDate fun t => bound.milliseconds < t

/-- A date not after another one. -/
def onOrBefore (v : Value) (bound : Instant) : Bool := v.isDate fun t => t ≤ bound.milliseconds

/-- A date not before another one. -/
def onOrAfter (v : Value) (bound : Instant) : Bool := v.isDate fun t => bound.milliseconds ≤ t

end Value

namespace Condition

/-- A test against a number, which fails if the operand is none. -/
def withNumber (operand : Option Operand) (test : Double → Bool) : Bool :=
  (operand.bind Operand.asNumber?).any test

/-- A test against a date, which fails if the operand names none. -/
def withDate (operand : Option Operand) (test : Instant → Bool) : Bool :=
  (operand.bind Operand.asDate?).any test

/-- Whether a value satisfies a condition. -/
def holds (mode : DateEquality) (c : Condition) (v : Value) : Bool :=
  match c.comparator with
  | .equals => c.operand.any fun x => v.equals mode x
  | .notEquals => c.operand.all fun x => !v.equals mode x
  | .contains =>
    match c.operand with
    | some (.text s) => v.contains s
    | some (.list names) => v.containsAll names
    | _ => false
  | .notContains =>
    match c.operand with
    | some (.text s) => !v.contains s
    | some (.list names) => !v.containsAny names
    | _ => true
  | .isEmpty => v.isEmpty
  | .isNotEmpty => v.isNotEmpty
  | .greaterThan => withNumber c.operand v.greaterThan
  | .lessThan => withNumber c.operand v.lessThan
  | .greaterThanOrEqualTo => withNumber c.operand v.greaterThanOrEqualTo
  | .lessThanOrEqualTo => withNumber c.operand v.lessThanOrEqualTo
  | .before => withDate c.operand v.before
  | .after => withDate c.operand v.after
  | .onOrBefore => withDate c.operand v.onOrBefore
  | .onOrAfter => withDate c.operand v.onOrAfter
  | .unknown => true

end Condition

end Sift
