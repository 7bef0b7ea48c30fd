import Sift.Instant.Reader
import Sift.Instant.Printer
import Sift.Record.PropertyType
import Sift.Record.Tag

/-!
# Property values

What a record holds under a property.

* `Value`: the values;
* `Value.ofJson?`: a value read as a declared type, or by its shape if no type
  is declared;
* `Value.toJson`: how a value is stored.
-/

namespace Sift

/-- The value of a property. -/
inductive Value where
  | null
  | text (s : String)
  | boolean (b : Bool)
  | number (d : Double)
  | date (i : Instant)
  | option (t : Tag)
  | optionList (ts : List Tag)
deriving DecidableEq

namespace Value

/-- The name of the kind of a value. -/
def kind : Value → String
  | null => "null"
  | text _ => "text"
  | boolean _ => "boolean"
  | number _ => "number"
  | date _ => "date"
  | option _ => "option"
  | optionList _ => "option_list"

/-- Null, the empty text and the empty list of tags. -/
def isEmpty : Value → Bool
  | null => true
  | text s => s.isEmpty
  | optionList ts => ts.isEmpty
  | _ => false

/-- A tag, or the name of one. -/
def tagOf? : Json → Option Tag
  | .text s => some (.plain s)
  | .object entries => (Tag.ofJson .outside (.object entries)).toOption
  | _ => none

/-- A list of tags; one that is not a tag spoils all. -/
def tagsOf? : Json → Option (List Tag)
  | .list xs => xs.mapM tagOf?
  | _ => none

/-- The value of a property whose type is not declared. -/
def ofShape? : Json → Option Value
  | .null => some null
  | .boolean b => some (boolean b)
  | .number n => some (number n.toDouble)
  | .text s => some (text s)
  | .object entries => (tagOf? (.object entries)).map option
  | .list xs => (tagsOf? (.list xs)).map optionList

/-- The value of a property of the type `t`, other than null. -/
def ofTyped? (t : PropertyType) (j : Json) : Option Value :=
  match t, j with
  | .text, .text s => some (text s)
  | .boolean, .boolean b => some (boolean b)
  | .number, .number n => some (number n.toDouble)
  | .date, .text s => (Instant.ofText? s.toList).map date
  | .option, j => (tagOf? j).map option
  | .optionList, j => (tagsOf? j).map optionList
  | _, _ => none

/-- The value of a property, of a declared type or of none. -/
def ofJson? (declared : Option PropertyType) (j : Json) : Option Value :=
  match j, declared with
  | .null, _ => some null
  | j, some t => ofTyped? t j
  | j, none => ofShape? j

/-- How a value is stored. -/
def toJson : Value → Json
  | null => .null
  | text s => .text s
  | boolean b => .boolean b
  | number d => .ofDouble d
  | date i => .text (String.ofList i.zulu)
  | option t => t.toJson
  | optionList ts => .list (ts.map Tag.toJson)

end Value

end Sift
