import Sift.Columns
import Sift.Filter.Basic
import Sift.Json.Writer
import Sift.Record.PropertyType

/-!
# Schemas

The declared types of the properties of a collection of records.

* `Schema`: types by property, in the order of their declaration;
* `Schema.stock`: the schema of the stock table, for records without one;
* `Schema.ofJson`, `Schema.toJson`: stored schemas;
* `Schema.freshCondition`: the condition that a new filter starts from.
-/

namespace Sift

/-- The declared types of properties. -/
abbrev Schema := Columns PropertyType

namespace Schema

/-- Why a document is not a schema. -/
inductive Fault where
  | noProperties
  | unknownType (property : String) (type : Json)

/-- The wording of a fault. -/
def Fault.message : Fault → String
  | noProperties => "schema must be an object with a `properties` map"
  | unknownType property type =>
    "unknown property type '" ++ type.toText ++ "' for '" ++ property ++ "'"

/-- The columns of the stock table. -/
def stock : Schema :=
  .ofList [("title", .text), ("checkbox", .boolean), ("date", .date),
    ("multiSelect", .optionList), ("number", .number), ("richText", .text), ("select", .option),
    ("timestamp", .date), ("status", .option)]

/-- Whether nothing is declared. -/
def isEmpty (schema : Schema) : Bool := schema.entries.isEmpty

/-- The comparators for a property; those for texts if it is not declared. -/
def comparatorsFor (schema : Schema) (property : String) : List Comparator :=
  ((schema.get? property).getD .text).comparators

/-- The condition that a new filter starts from: the first text property, or
    `title`, equals the empty text. -/
def freshCondition (schema : Schema) : Condition :=
  let first := schema.entries.find? fun entry => entry.2 = .text
  ⟨(first.map Prod.fst).getD "title", .equals, some (.text "")⟩

/-- Reads the declaration of a type. -/
def readType (property : String) : Json → Except Fault PropertyType
  | .text s =>
    match PropertyType.ofName? s with
    | some t => .ok t
    | none => .error (.unknownType property (.text s))
  | j => .error (.unknownType property j)

/-- Adds declarations to a schema, in their order. -/
def declareAll (schema : Schema) : List (String × Json) → Except Fault Schema
  | [] => .ok schema
  | (property, type) :: more => do
    let t ← readType property type
    declareAll (schema.set property t) more

/-- Reads a schema: an object with the declarations under `properties`. -/
def ofJson : Json → Except Fault Schema
  | .object entries =>
    match Json.get? entries "properties" with
    | some (.object declarations) => declareAll .empty declarations
    | _ => .error .noProperties
  | _ => .error .noProperties

/-- How a schema is stored. -/
def toJson (schema : Schema) : Json :=
  .object [("properties", .object (schema.entries.map fun entry => (entry.1, .text entry.2.name)))]

end Schema

end Sift
