import Sift.Filter.Basic
import Sift.Record.Schema

/-!
# Checking filters

Whether a filter fits a schema: every property declared, every comparator one
of its type's, every operand of its type. A filter that fits is resolved: texts
that name dates become dates, and operands that nobody looks at go.

* `Condition.check`, `Filter.check`: the resolved condition or filter, or its
  first fault, a group before the filters in it.
-/

namespace Sift

/-- Why a filter does not fit a schema. -/
inductive Filter.Fault where
  | unknownProperty (property : String)
  | comparatorNotAllowed (property : String) (comparator : Comparator) (type : PropertyType)
  | unknownComparator (property : String)
  | unknownConnective
  | missingOperand (property : String) (comparator : Comparator)
  | unfitOperand (property : String) (type : PropertyType) (operand : Operand)
  | invalidDate (property text : String)
deriving DecidableEq

/-- What the operand of a condition on a property of this type must be. -/
def PropertyType.operandName : PropertyType → String
  | boolean => "a boolean"
  | number => "a number"
  | text | option => "text"
  | optionList => "text or a list of names"
  | date => "a date"

/-- The wording of a fault. -/
def Filter.Fault.message : Filter.Fault → String
  | unknownProperty property => "unknown property '" ++ property ++ "'"
  | comparatorNotAllowed property comparator type =>
    "comparator '" ++ comparator.name ++ "' is not valid for " ++ type.name ++ " property '" ++
      property ++ "'"
  | unknownComparator property => "unknown comparator on property '" ++ property ++ "'"
  | unknownConnective => "unknown logical operator"
  | missingOperand property comparator =>
    "comparator '" ++ comparator.name ++ "' on '" ++ property ++ "' requires a value"
  | unfitOperand property type operand =>
    "value for '" ++ property ++ "' must be " ++ type.operandName ++ ", got " ++ operand.kind
  | invalidDate property text => "invalid date '" ++ text ++ "' for '" ++ property ++ "'"

/-- The operand of a condition on a property of the type `t`, resolved. -/
def Operand.resolve (property : String) (t : PropertyType) (x : Operand) :
    Except Filter.Fault Operand :=
  match t, x with
  | .boolean, .boolean b => .ok (.boolean b)
  | .number, .number d => .ok (.number d)
  | .text, .text s => .ok (.text s)
  | .option, .text s => .ok (.text s)
  | .optionList, .text s => .ok (.text s)
  | .optionList, .list names => .ok (.list names)
  | .date, .date i => .ok (.date i)
  | .date, .text s =>
    match Instant.ofText? s.toList with
    | some i => .ok (.date i)
    | none => .error (.invalidDate property s)
  | t, x => .error (.unfitOperand property t x)

/-- The condition, resolved, or its first fault. -/
def Condition.check (schema : Schema) (c : Condition) : Except Filter.Fault Condition :=
  if c.comparator = .unknown then .error (.unknownComparator c.property)
  else match schema.get? c.property with
    | none => .error (.unknownProperty c.property)
    | some t =>
      if !t.allows c.comparator then
        .error (.comparatorNotAllowed c.property c.comparator t)
      else if c.comparator.isUnary then .ok { c with operand := none }
      else match c.operand with
        | none => .error (.missingOperand c.property c.comparator)
        | some x => (x.resolve c.property t).map fun x => { c with operand := some x }

namespace Filter

mutual

/-- The filter, resolved, or its first fault. -/
def check (schema : Schema) : Filter → Except Fault Filter
  | condition c => (c.check schema).map condition
  | group .unknown _ => .error .unknownConnective
  | group .and fs => (checkAll schema fs).map (group .and)
  | group .or fs => (checkAll schema fs).map (group .or)
termination_by structural f => f

/-- The filters, resolved, or the first fault in them. -/
def checkAll (schema : Schema) : List Filter → Except Fault (List Filter)
  | [] => .ok []
  | f :: fs => do
    let f ← check schema f
    let fs ← checkAll schema fs
    return f :: fs
termination_by structural fs => fs

end

end Filter

end Sift
