import Sift.Error
import Sift.Filter.Stored
import Sift.Yaml.Document

/-!
# Documents

Stored schemas, records and filters, from the text of a document to what it
holds.

* `Document.parse`: the text of a document, in JSON or in YAML;
* `Document.records`: records and their schema, from either kind of document
  that holds records;
* `Document.schema`, `Document.filter`: the other things that documents hold.
-/

namespace Sift

/-- How a document is written. -/
inductive Language where
  | json
  | yaml
deriving DecidableEq

/-- What a document with records is. -/
inductive Layout where
  /-- A list of flat objects. -/
  | records
  /-- A saved response of a database query. -/
  | response
deriving DecidableEq

namespace Document

/-- Reads the text of a document. -/
def parse (language : Language) (text : String) : Except Error Json :=
  match language with
  | .json => (Json.ofText text).mapError .json
  | .yaml =>
    match Yaml.toJson? text with
    | some j => .ok j
    | none => .error .yaml

/-- The records of a document and their schema: the given one, or else the
    stock schema for a list and the derived one for a response. -/
def records (layout : Layout) (schema : Option Schema) (j : Json) :
    Except Error (List Record × Schema) :=
  match layout with
  | .records =>
    let schema := schema.getD .stock
    match Record.listOfJson schema j with
    | .error fault => .error (.record fault)
    | .ok rs => .ok (rs, schema)
  | .response =>
    match Response.records j with
    | .error fault => .error (.ofResponse fault)
    | .ok (rs, derived) => .ok (rs, schema.getD derived)

/-- The schema of a document. -/
def schema (j : Json) : Except Error Schema := (Schema.ofJson j).mapError .schema

/-- The filter of a document. -/
def filter (j : Json) : Except Error Filter := (Filter.ofJson j).mapError .shape

/-- A filter checked against a schema. -/
def checked (schema : Schema) (f : Filter) : Except Error Filter :=
  (f.check schema).mapError .filter

/-- The filter of a query. -/
def query (text : String) : Except Error Filter := (Query.parse text).mapError .query

end Document

end Sift
