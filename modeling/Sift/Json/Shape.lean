import Sift.Json.Basic
import Sift.Double.Spelling
import Sift.Text.Quoted

/-!
# Shapes of JSON values

What the readers of records, filters and responses share: taking a value as a
text, a number, a list or an object, and the faults of a value that has another
shape.

* `Json.ShapeError`: the faults, worded by `ShapeError.message`;
* `Json.asText`, `Json.asDouble`, …: a value as one of the basic shapes;
* `Json.asName`: one of several names.

Inside a value that is tagged with its kind the rules are slightly laxer and
worded differently; `Place` tells the two apart.
-/

namespace Sift.Json

/-- A fault in the shape of a value. -/
inductive ShapeError where
  | missingField (name : String)
  | duplicateField (name : String)
  | unknownVariant (name : String)
  | unknownIndex (index : Int)
  | wrongType (found expected : String)
  | wrongLength (length : Nat) (expected : String)
  | severalNames
  | noVariant
deriving DecidableEq

/-- The wording of a fault. -/
def ShapeError.message : ShapeError → String
  | missingField name => "missing field `" ++ name ++ "`"
  | duplicateField name => "duplicate field `" ++ name ++ "`"
  | unknownVariant name => "unknown variant `" ++ name ++ "`, expected `condition` or `group`"
  | unknownIndex index =>
    "invalid value: integer `" ++ toString index ++ "`, expected variant index 0 <= i < 2"
  | wrongType found expected => "invalid type: " ++ found ++ ", expected " ++ expected
  | wrongLength length expected =>
    "invalid length " ++ toString length ++ ", expected " ++ expected
  | severalNames => "invalid value: map, expected map with a single key"
  | noVariant => "data did not match any variant of untagged enum FilterValue"

/-- Where a value stands: by itself, or inside a value tagged with its kind. -/
inductive Place where
  | outside
  | inside
deriving DecidableEq

/-- A value as the message about a wrong type names it. -/
def found : Json → String
  | .null => "null"
  | .boolean b => if b then "boolean `true`" else "boolean `false`"
  | .number (.integer i) => "integer `" ++ String.ofList (Text.signedDigits i) ++ "`"
  | .number (.double d) => "floating point `" ++ String.ofList d.spelled ++ "`"
  | .text s => "string " ++ Text.exhibit s
  | .list _ => "sequence"
  | .object _ => "map"

/-- The fault of a value that is not what was expected. -/
def unlike {α : Type} (j : Json) (expected : String) : Except ShapeError α :=
  .error (.wrongType j.found expected)

/-- A value that must be a text. -/
def asText : Json → Except ShapeError String
  | .text s => .ok s
  | j => j.unlike "a string"

/-- A value that must be true or false. -/
def asBoolean : Json → Except ShapeError Bool
  | .boolean b => .ok b
  | j => j.unlike "a boolean"

/-- A value that must be a number. -/
def asDouble : Json → Except ShapeError Double
  | .number n => .ok n.toDouble
  | j => j.unlike "f64"

/-- A value that must be a list. -/
def asList : Json → Except ShapeError (List Json)
  | .list xs => .ok xs
  | j => j.unlike "a sequence"

/-- A value that must be an object. -/
def asEntries : Json → Except ShapeError (List (String × Json))
  | .object entries => .ok entries
  | j => j.unlike "a map"

/-- A value that may be absent: `null` stands for that. -/
def optional {α : Type} (read : Json → Except ShapeError α) : Json → Except ShapeError (Option α)
  | .null => .ok none
  | j => (read j).map some

/-- The list of what `read` makes of the items, or the first fault. -/
def readAll {α : Type} (read : Json → Except ShapeError α) :
    List Json → Except ShapeError (List α)
  | [] => .ok []
  | x :: xs => do
    let y ← read x
    let ys ← readAll read xs
    return y :: ys

/-- The value of a field that may be missing. -/
def field? {α : Type} (entries : List (String × Json)) (name : String)
    (read : Json → Except ShapeError α) : Except ShapeError (Option α) :=
  match get? entries name with
  | none => .ok none
  | some j => (read j).map some

/-- Refuses what stands beside a name that is written as the only key of an
    object. -/
def asUnit (place : Place) : Json → Except ShapeError Unit
  | .null => .ok ()
  | .object [] => if place = .inside then .ok () else (object []).unlike "unit"
  | j => j.unlike "unit"

/-- A name: a text, or the only key of an object that says nothing else. -/
def asName (place : Place) : Json → Except ShapeError String
  | .text s => .ok s
  | .object [(name, value)] => (asUnit place value).map fun _ => name
  | .object _ => .error .severalNames
  | j => j.unlike "string or map"

/-- A number of things in words. -/
def counted (n : Nat) : String := if n = 1 then "1 element" else toString n ++ " elements"

/-- The fault of a list with too few values for the fields of `kind`. -/
def tooShort {α : Type} (length : Nat) (kind : String) (fields : Nat) : Except ShapeError α :=
  .error (.wrongLength length (kind ++ " with " ++ counted fields))

/-- The fault of a list with more values than fields. -/
def tooLong {α : Type} (place : Place) (length fields : Nat) : Except ShapeError α :=
  .error (.wrongLength length
    (if place = .inside then counted fields ++ " in sequence" else "fewer elements in array"))

/-- A finite double as JSON; there is no JSON for any other one. -/
def ofDouble (d : Double) : Json := if d.isFinite then .number (.double d) else .null

end Sift.Json
