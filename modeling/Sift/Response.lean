import Sift.Record.Basic

/-!
# Query responses

The saved response of a database query: pages whose properties are tagged with
their types.

* `Response.Property`: a property of a page, with a value and a type, or of a
  type that records have no value for;
* `Response.ofJson`: the pages of a response;
* `Response.records`: the records of the pages and the schema that their
  properties declare.
-/

namespace Sift.Response

open Json

/-- A property of a page. -/
inductive Property where
  | text (s : String)
  | number (d : Option Double)
  | boolean (b : Bool)
  | option (t : Option Tag)
  | optionList (ts : List Tag)
  | date (raw : Option String)
  | unsupported

/-- A page: its identity, and its properties as they came. -/
structure Page where
  id : String
  properties : List (String × Json)

/-- Why a page is not a record. -/
inductive Cause where
  | shape (property : String) (fault : ShapeError)
  | date (raw : String)
deriving DecidableEq

/-- The wording of a cause. -/
def Cause.message : Cause → String
  | shape property fault => "property '" ++ property ++ "': " ++ fault.message
  | date raw => "invalid date '" ++ raw ++ "'"

/-- Why a response holds no records. -/
inductive Fault where
  | shape (fault : ShapeError)
  | page (id : String) (cause : Cause)
deriving DecidableEq

/-! ### Properties -/

/-- A piece of formatted text: only its plain text counts. -/
def readPiece : Json → Except ShapeError String
  | .object entries => do return (← field? entries "plain_text" asText).getD ""
  | .list [] => .ok ""
  | .list [piece] => asText piece
  | .list (piece :: more) => do
    let _ ← asText piece
    tooLong .inside (1 + more.length) 1
  | j => j.unlike "struct RichText"

/-- Formatted text: the plain texts of its pieces, joined. -/
def readText (j : Json) : Except ShapeError Property := do
  return .text (String.join (← readAll readPiece (← asList j)))

/-- The start of a range of dates. -/
def readStart : Json → Except ShapeError String
  | .object entries => do
    match ← field? entries "start" asText with
    | none => .error (.missingField "start")
    | some start => return start
  | .list [] => tooShort 0 "struct DateRange" 1
  | .list [start] => asText start
  | .list (start :: more) => do
    let _ ← asText start
    tooLong .inside (1 + more.length) 1
  | j => j.unlike "struct DateRange"

/-- How the value of a supported type is read. -/
structure Field where
  /-- The name of the type, which is also the name of the field. -/
  name : String
  /-- The name of the type in messages. -/
  title : String
  read : Json → Except ShapeError Property
  /-- The property without a value, if it may be without one. -/
  absent : Option Property

/-- The supported types. -/
def fields : List Field :=
  [⟨"title", "Title", readText, none⟩,
    ⟨"rich_text", "RichText", readText, none⟩,
    ⟨"number", "Number", fun j => (optional asDouble j).map .number, some (.number none)⟩,
    ⟨"checkbox", "Checkbox", fun j => (asBoolean j).map .boolean, none⟩,
    ⟨"select", "Select", fun j => (optional (Tag.ofJson .inside) j).map .option,
      some (.option none)⟩,
    ⟨"status", "Status", fun j => (optional (Tag.ofJson .inside) j).map .option,
      some (.option none)⟩,
    ⟨"multi_select", "MultiSelect", fun j => do
      return .optionList (← readAll (Tag.ofJson .inside) (← asList j)), none⟩,
    ⟨"date", "Date", fun j => (optional readStart j).map .date, some (.date none)⟩,
    ⟨"created_time", "CreatedTime", fun j => (asText j).map fun s => .date (some s), none⟩,
    ⟨"last_edited_time", "LastEditedTime", fun j => (asText j).map fun s => .date (some s), none⟩]

/-- The name of a property's type. -/
def readTypeName : Json → Except ShapeError String
  | .text s => .ok s
  | j => j.unlike "variant identifier"

/-- A property of the type `type`, from an object. -/
def propertyOfEntries (type : String) (entries : List (String × Json)) :
    Except ShapeError Property :=
  match fields.find? fun field => field.name == type with
  | none => .ok .unsupported
  | some field =>
    match get? entries field.name, field.absent with
    | some j, _ => field.read j
    | none, some absent => .ok absent
    | none, none => .error (.missingField field.name)

/-- A property of the type `type`, from a list of its fields. -/
def propertyOfFields (type : String) (items : List Json) : Except ShapeError Property :=
  match fields.find? fun field => field.name == type, items with
  | none, [] => .ok .unsupported
  | none, items => tooLong .inside items.length 0
  | some field, [] => tooShort 0 ("struct variant PageProperty::" ++ field.title) 1
  | some field, [j] => field.read j
  | some field, j :: more => do
    let _ ← field.read j
    tooLong .inside (1 + more.length) 1

/-- Reads a property. -/
def Property.ofJson : Json → Except ShapeError Property
  | .object entries =>
    match get? entries "type" with
    | none => .error (.missingField "type")
    | some type => do propertyOfEntries (← readTypeName type) entries
  | .list [] => .error (.missingField "type")
  | .list (type :: items) => do propertyOfFields (← readTypeName type) items
  | j => j.unlike "internally tagged enum PageProperty"

/-- The instant that a raw date names. -/
def instantOf (raw : String) : Except Cause Value :=
  match Instant.ofText? raw.toList with
  | some i => .ok (.date i)
  | none => .error (.date raw)

/-- The type and the value of a property, if it is of a supported type. -/
def Property.typed : Property → Except Cause (Option (PropertyType × Value))
  | text s => .ok (some (.text, .text s))
  | number d => .ok (some (.number, (d.map .number).getD .null))
  | boolean b => .ok (some (.boolean, .boolean b))
  | option t => .ok (some (.option, (t.map .option).getD .null))
  | optionList ts => .ok (some (.optionList, .optionList ts))
  | date none => .ok (some (.date, .null))
  | date (some raw) => (instantOf raw).map fun v => some (.date, v)
  | unsupported => .ok none

/-- Reads a property and gives it its type and value. -/
def typedProperty (name : String) (j : Json) : Except Cause (Option (PropertyType × Value)) :=
  match Property.ofJson j with
  | .error fault => .error (.shape name fault)
  | .ok p => p.typed

/-! ### Pages -/

/-- Reads a page. -/
def Page.ofJson : Json → Except ShapeError Page
  | .object entries => do
    let id ← field? entries "id" asText
    let properties ← field? entries "properties" asEntries
    match id with
    | none => .error (.missingField "id")
    | some id => return ⟨id, properties.getD []⟩
  | .list [] => tooShort 0 "struct Page" 2
  | .list [id] => do return ⟨← asText id, []⟩
  | .list [id, properties] => do return ⟨← asText id, ← asEntries properties⟩
  | .list (id :: properties :: more) => do
    let _ ← asText id
    let _ ← asEntries properties
    tooLong .outside (2 + more.length) 2
  | j => j.unlike "struct Page"

/-- Reads a list of pages. -/
def readPages (j : Json) : Except ShapeError (List Page) := do
  readAll Page.ofJson (← asList j)

/-- Reads the pages of a response. Whether there are more pages, and where they
    begin, is only checked for its shape. -/
def ofJson : Json → Except ShapeError (List Page)
  | .object entries => do
    let _ ← field? entries "has_more" asBoolean
    let _ ← field? entries "next_cursor" (optional asText)
    match ← field? entries "results" readPages with
    | none => .error (.missingField "results")
    | some pages => return pages
  | .list [] => tooShort 0 "struct QueryResponse" 3
  | .list [results] => readPages results
  | .list (results :: more :: rest) => do
    let pages ← readPages results
    let _ ← asBoolean more
    match rest with
    | [] => return pages
    | cursor :: rest =>
      let _ ← optional asText cursor
      if rest.isEmpty then return pages else tooLong .outside (3 + rest.length) 3
  | j => j.unlike "struct QueryResponse"

/-! ### Records -/

/-- Adds properties of a page to its record and to the schema. A property that
    the schema has declared before keeps its declaration. -/
def addProperties (schema : Schema) (r : Record) :
    List (String × Json) → Except Cause (Schema × Record)
  | [] => .ok (schema, r)
  | (name, j) :: more => do
    match ← typedProperty name j with
    | none => addProperties schema r more
    | some (type, value) =>
      let schema := if (schema.get? name).isNone then schema.set name type else schema
      addProperties schema (r.set name value) more

/-- The records of pages, and the schema with what they declare. -/
def recordsFrom (schema : Schema) : List Page → Except Fault (Schema × List Record)
  | [] => .ok (schema, [])
  | page :: pages =>
    match addProperties schema (.new page.id) page.properties with
    | .error cause => .error (.page page.id cause)
    | .ok (schema, r) =>
      (recordsFrom schema pages).map fun (schema, rs) => (schema, r :: rs)

/-- The records of a response, and the schema that its properties declare: each
    property as it first has a supported type. -/
def records (j : Json) : Except Fault (List Record × Schema) :=
  match ofJson j with
  | .error fault => .error (.shape fault)
  | .ok pages => (recordsFrom .empty pages).map fun (schema, rs) => (rs, schema)

end Sift.Response
