import Sift.Filter.Basic

/-!
# Writing queries

A filter as the text of a query. Groups stand in parentheses, and property
names stand as they are.

* `Filter.written`: the text of a filter.
-/

namespace Sift

/-- A condition in a query. An operand that the comparator does not take is
    left out. -/
def Condition.written (c : Condition) : List Char :=
  c.property.toList ++ ' ' :: c.comparator.name.toList ++
    match c.operand with
    | some x => if c.comparator.isUnary then [] else ' ' :: x.written
    | none => []

namespace Filter

mutual

/-- A filter in a query. -/
def written : Filter → List Char
  | condition c => c.written
  | group _ [] => ['(', ')']
  | group connective (f :: fs) => '(' :: f.written ++ writtenMore connective fs ++ [')']
termination_by structural f => f

/-- The filters of a group after the first one. -/
def writtenMore (connective : Connective) : List Filter → List Char
  | [] => []
  | f :: fs => ' ' :: connective.keyword ++ ' ' :: f.written ++ writtenMore connective fs
termination_by structural fs => fs

end

/-- The text of a filter. -/
def toText (f : Filter) : String := String.ofList f.written

end Filter

end Sift
