import Sift.Record.Schema
import Sift.Record.Value

/-!
# Records

Rows of a table: an identity and values by property.

* `Record`: the rows;
* `Record.ofJson`, `Record.toJson`: a stored record, a flat object with its
  identity under `id`;
* `Record.listOfJson`: a stored list of records, or the first fault in it.
-/

namespace Sift

/-- A row of a table. -/
structure Record where
  id : String
  properties : Columns Value
deriving DecidableEq

namespace Record

/-- Why a document is not a list of records. -/
inductive Fault where
  | notList
  | notObject
  | missingId
  | unfit (id property : String) (declared : Option PropertyType)

/-- The wording of a fault. -/
def Fault.message : Fault → String
  | notList => "expected an array of records"
  | notObject => "record is not a JSON object"
  | missingId => "record has no string or numeric `id`"
  | unfit id property declared =>
    "record " ++ id ++ ": property '" ++ property ++ "' is not " ++
      match declared with
      | some t => t.name
      | none => "a known value shape"

/-- A record without properties. -/
def new (id : String) : Record := ⟨id, .empty⟩

/-- The record with a property set. -/
def set (property : String) (value : Value) (r : Record) : Record :=
  { r with properties := r.properties.set property value }

/-- The value of a property; a property that is not there has the value
    null. -/
def value (r : Record) (property : String) : Value := (r.properties.get? property).getD .null

/-- The identity of a stored record: a text, or a number as it is written. -/
def readId (entries : List (String × Json)) : Except Fault String :=
  match Json.get? entries "id" with
  | some (.text s) => .ok s
  | some (.number n) => .ok (String.ofList n.written)
  | _ => .error .missingId

/-- Adds the stored properties to a record, in their order. -/
def setAll (schema : Schema) (r : Record) : List (String × Json) → Except Fault Record
  | [] => .ok r
  | (property, stored) :: more =>
    if property = "id" then setAll schema r more
    else
      let declared := schema.get? property
      match Value.ofJson? declared stored with
      | some v => setAll schema (r.set property v) more
      | none => .error (.unfit r.id property declared)

/-- Reads a record whose properties have the types of a schema. -/
def ofJson (schema : Schema) : Json → Except Fault Record
  | .object entries => do
    let id ← readId entries
    setAll schema (new id) entries
  | _ => .error .notObject

/-- Reads records one after the other. -/
def readAll (schema : Schema) : List Json → Except Fault (List Record)
  | [] => .ok []
  | x :: xs => do
    let r ← ofJson schema x
    let rs ← readAll schema xs
    return r :: rs

/-- Reads a list of records. -/
def listOfJson (schema : Schema) : Json → Except Fault (List Record)
  | .list items => readAll schema items
  | _ => .error .notList

/-- How a record is stored. -/
def toJson (r : Record) : Json :=
  .object (("id", .text r.id) :: r.properties.entries.map fun entry => (entry.1, entry.2.toJson))

/-- How records are stored. -/
def listToJson (rs : List Record) : Json := .list (rs.map toJson)

end Record

end Sift
