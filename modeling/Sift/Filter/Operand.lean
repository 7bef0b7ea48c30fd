import Sift.Instant.Reader
import Sift.Instant.Printer
import Sift.Json.Shape

/-!
# Operands

What a condition compares a property with.

* `Operand`: the operands; a date may also stand as a text that names it
  (`Operand.asDate?`);
* `Operand.ofJson`, `Operand.toJson`: operands in JSON, where a date is a text;
* `Operand.written`: operands in queries.
-/

namespace Sift

/-- What a property is compared with. -/
inductive Operand where
  | boolean (b : Bool)
  | number (d : Double)
  | text (s : String)
  | list (names : List String)
  | date (i : Instant)
deriving DecidableEq

namespace Operand

/-- The name of the kind of an operand. -/
def kind : Operand → String
  | boolean _ => "boolean"
  | number _ => "number"
  | text _ => "text"
  | list _ => "list"
  | date _ => "date"

/-- The number that an operand is. -/
def asNumber? : Operand → Option Double
  | number d => some d
  | _ => none

/-- The instant that an operand is, or that its text names. -/
def asDate? : Operand → Option Instant
  | date i => some i
  | text s => Instant.ofText? s.toList
  | _ => none

/-- The same operand, numbers taken as equal when they compare so. -/
def same : Operand → Operand → Bool
  | number a, number b => a.equals b
  | a, b => a = b

/-- Reads an operand. All texts stay texts. -/
def ofJson : Json → Except Json.ShapeError Operand
  | .boolean b => .ok (boolean b)
  | .number n => .ok (number n.toDouble)
  | .text s => .ok (text s)
  | .list xs =>
    match Json.readAll Json.asText xs with
    | .ok names => .ok (list names)
    | .error _ => .error .noVariant
  | _ => .error .noVariant

/-- How an operand is stored. -/
def toJson : Operand → Json
  | boolean b => .boolean b
  | number d => .ofDouble d
  | text s => .text s
  | list names => .list (names.map .text)
  | date i => .text (String.ofList i.zulu)

/-- The names after the first one, in a query. -/
def writtenMore : List String → List Char
  | [] => []
  | s :: more => ',' :: ' ' :: Text.quote s.toList ++ writtenMore more

/-- How an operand stands in a query. -/
def written : Operand → List Char
  | boolean b => if b then "true".toList else "false".toList
  | number d => d.plain
  | text s => Text.quote s.toList
  | list [] => ['[', ']']
  | list (s :: more) => '[' :: Text.quote s.toList ++ writtenMore more ++ [']']
  | date i => i.displayed

end Operand

end Sift
