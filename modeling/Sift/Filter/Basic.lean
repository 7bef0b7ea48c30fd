import Sift.Filter.Comparator
import Sift.Filter.Operand

/-!
# Filters

Trees of conditions on the properties of a record.

* `Filter`: a condition, or a group of filters joined by a connective;
* `Filter.induction`: induction over a tree, from the filters of a group to the
  group;
* `Filter.same`: equality of filters, with numbers taken as equal when they
  compare so;
* `Filter.toJson`: how a filter is stored.
-/

namespace Sift

/-- How the filters of a group are joined. -/
inductive Connective where
  | and
  | or
  /-- The connective of a name that names none. -/
  | unknown
deriving DecidableEq

namespace Connective

/-- The name of a connective in a stored filter. -/
def name : Connective → String
  | and => "and"
  | or => "or"
  | unknown => "unknown"

/-- The connective of a name, in lower or in upper case. -/
def ofName (s : String) : Connective :=
  if s = "and" ∨ s = "AND" then and else if s = "or" ∨ s = "OR" then or else unknown

/-- The name of a connective in a query. -/
def keyword : Connective → List Char
  | and => "AND".toList
  | or => "OR".toList
  | unknown => "UNKNOWN".toList

theorem ofName_name (c : Connective) : ofName c.name = c := by cases c <;> rfl

end Connective

/-- A property, a comparator, and what to compare with, if anything. -/
structure Condition where
  property : String
  comparator : Comparator
  operand : Option Operand
deriving DecidableEq

namespace Condition

/-- The same condition, numbers taken as equal when they compare so. -/
def same (a b : Condition) : Bool :=
  a.property = b.property && a.comparator = b.comparator &&
    match a.operand, b.operand with
    | none, none => true
    | some x, some y => x.same y
    | _, _ => false

end Condition

/-- A tree of conditions. -/
inductive Filter where
  | condition (c : Condition)
  | group (connective : Connective) (filters : List Filter)

namespace Filter

mutual

/-- What holds of conditions, and of a group if it holds of its filters, holds
    of all filters. -/
@[elab_as_elim, induction_eliminator]
theorem induction {motive : Filter → Prop} (condition : ∀ c, motive (condition c))
    (group : ∀ connective fs, (∀ f ∈ fs, motive f) → motive (group connective fs)) :
    ∀ f, motive f
  | .condition c => condition c
  | .group connective fs => group connective fs (inductionAll condition group fs)
termination_by structural f => f

/-- The filters of a group, one after the other. -/
theorem inductionAll {motive : Filter → Prop} (condition : ∀ c, motive (.condition c))
    (group : ∀ connective fs, (∀ f ∈ fs, motive f) → motive (.group connective fs)) :
    ∀ fs : List Filter, ∀ f ∈ fs, motive f
  | [], _, h => absurd h List.not_mem_nil
  | f :: fs, _, h => (List.mem_cons.1 h).elim (fun e => e ▸ induction condition group f)
    (inductionAll condition group fs _)
termination_by structural fs => fs

end

/-- The filter that lets everything pass: no condition at all. -/
def none : Filter := group .and []

mutual

/-- The same tree, numbers taken as equal when they compare so. -/
def same : Filter → Filter → Bool
  | condition a, condition b => a.same b
  | group c fs, group d gs => c = d && sameAll fs gs
  | _, _ => false
termination_by structural f => f

/-- The same trees, one after the other. -/
def sameAll : List Filter → List Filter → Bool
  | [], [] => true
  | f :: fs, g :: gs => same f g && sameAll fs gs
  | _, _ => false
termination_by structural fs => fs

end

end Filter

/-- How a condition is stored. -/
def Condition.toJson (c : Condition) : Json :=
  .object ([("type", .text "condition"), ("property", .text c.property),
    ("comparator", .text c.comparator.name)] ++
      match c.operand with
      | none => []
      | some x => [("value", x.toJson)])

namespace Filter

mutual

/-- How a filter is stored. -/
def toJson : Filter → Json
  | condition c => c.toJson
  | group connective fs =>
    .object [("type", .text "group"), ("operator", .text connective.name),
      ("filters", .list (allToJson fs))]
termination_by structural f => f

/-- How filters are stored, one after the other. -/
def allToJson : List Filter → List Json
  | [] => []
  | f :: fs => f.toJson :: allToJson fs
termination_by structural fs => fs

end

end Filter

end Sift
