import Sift.Filter.Basic

/-!
# Stored filters

Filters read from JSON: an object tagged with its kind, or a list of the kind
and the fields in their order.

* `Filter.ofJson`: a filter, or the first fault of its shape.

The faults of an object come in the order of its keys, and the fields that are
missing after all others.
-/

namespace Sift

open Json

/-- The two kinds of filters. -/
inductive Filter.Kind where
  | condition
  | group

/-- The kind of a filter; within another filter it may also be a number. -/
def Filter.Kind.ofJson (place : Place) : Json → Except ShapeError Filter.Kind
  | .text s =>
    if s = "condition" then .ok .condition
    else if s = "group" then .ok .group
    else .error (.unknownVariant s)
  | .number (.integer i) =>
    if place = .outside ∨ i < 0 then (Json.number (.integer i)).unlike "variant identifier"
    else if i = 0 then .ok .condition
    else if i = 1 then .ok .group
    else .error (.unknownIndex i)
  | j => j.unlike "variant identifier"

namespace Condition

/-- Reads a comparator by its name; an unknown name is no fault. -/
def readComparator (j : Json) : Except ShapeError Comparator :=
  (asName .inside j).map Comparator.ofName

/-- A condition from the entries of an object. -/
def ofEntries (entries : List (String × Json)) : Except ShapeError Condition := do
  let comparator ← field? entries "comparator" readComparator
  let property ← field? entries "property" asText
  let operand ← field? entries "value" (optional Operand.ofJson)
  match property, comparator with
  | none, _ => .error (.missingField "property")
  | _, none => .error (.missingField "comparator")
  | some property, some comparator => return ⟨property, comparator, operand.join⟩

/-- A condition from a list of its fields. -/
def ofFields (fields : List Json) : Except ShapeError Condition := do
  match fields with
  | [] => tooShort 0 "struct Condition" 3
  | property :: fields =>
    let property ← asText property
    match fields with
    | [] => tooShort 1 "struct Condition" 3
    | comparator :: fields =>
      let comparator ← readComparator comparator
      match fields with
      | [] => return ⟨property, comparator, none⟩
      | operand :: more =>
        let operand ← optional Operand.ofJson operand
        if more.isEmpty then return ⟨property, comparator, operand⟩
        else tooLong .inside (3 + more.length) 3

end Condition

/-- Reads a connective by its name; an unknown name is no fault. -/
def Connective.ofJson (j : Json) : Except ShapeError Connective :=
  (asName .inside j).map Connective.ofName

namespace Filter

/-- A group from what stands under its connective and its filters, which may
    be called by two names but not by both. -/
def groupOf (connective : Option Json) (filters : List (Except ShapeError (List Filter))) :
    Except ShapeError Filter := do
  let filters ← match filters with
    | [] => pure []
    | [read] => read
    | read :: _ => do
      let _ ← read
      .error (.duplicateField "filters")
  match connective with
  | .none => .error (.missingField "operator")
  | some j => return group (← Connective.ofJson j) filters

mutual

/-- Reads a filter. -/
def ofJsonAt (place : Place) : Json → Except ShapeError Filter
  | .object entries =>
    match get? entries "type" with
    | .none => .error (.missingField "type")
    | some kind => do
      match ← Kind.ofJson place kind with
      | .condition => return condition (← Condition.ofEntries entries)
      | .group => groupOf (get? entries "operator") (filtersOfEntries entries)
  | .list [] => .error (.missingField "type")
  | .list (kind :: fields) => do
    match ← Kind.ofJson place kind with
    | .condition => return condition (← Condition.ofFields fields)
    | .group => groupOfFields fields
  | .null => Json.null.unlike "internally tagged enum FilterExpr"
  | .boolean b => (Json.boolean b).unlike "internally tagged enum FilterExpr"
  | .number n => (Json.number n).unlike "internally tagged enum FilterExpr"
  | .text s => (Json.text s).unlike "internally tagged enum FilterExpr"
termination_by structural j => j

/-- What the entries that hold the filters of a group read as. -/
def filtersOfEntries : List (String × Json) → List (Except ShapeError (List Filter))
  | [] => []
  | (name, value) :: entries =>
    if name = "children" ∨ name = "filters" then filtersOf value :: filtersOfEntries entries
    else filtersOfEntries entries
termination_by structural entries => entries

/-- A group from a list of its fields. -/
def groupOfFields : List Json → Except ShapeError Filter
  | [] => tooShort 0 "struct Group" 2
  | [connective] => return group (← Connective.ofJson connective) []
  | [connective, filters] => do
    return group (← Connective.ofJson connective) (← filtersOf filters)
  | connective :: filters :: more => do
    let _ ← Connective.ofJson connective
    let _ ← filtersOf filters
    tooLong .inside (2 + more.length) 2
termination_by structural fields => fields

/-- The filters of a group. -/
def filtersOf : Json → Except ShapeError (List Filter)
  | .list items => readFilters items
  | .null => Json.null.unlike "a sequence"
  | .boolean b => (Json.boolean b).unlike "a sequence"
  | .number n => (Json.number n).unlike "a sequence"
  | .text s => (Json.text s).unlike "a sequence"
  | .object entries => (Json.object entries).unlike "a sequence"
termination_by structural j => j

/-- Reads filters within another one. -/
def readFilters : List Json → Except ShapeError (List Filter)
  | [] => .ok []
  | x :: xs => do
    let f ← ofJsonAt .inside x
    let fs ← readFilters xs
    return f :: fs
termination_by structural xs => xs

end

/-- Reads a filter. -/
def ofJson (j : Json) : Except ShapeError Filter := ofJsonAt .outside j

end Filter

end Sift
