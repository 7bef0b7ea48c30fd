import Sift.Filter.Matching
import Sift.Record.Basic

/-!
# Selecting rows

What a filter keeps of a list of rows, and in which order.

* `Row`: what can be filtered, with an identity and values by property;
* `Filter.select`: the rows that a filter keeps. A condition keeps the order of
  the rows. In an `and` group every filter narrows what the one before it has
  kept, and in an `or` group every filter sees all rows, and an identity counts
  where it comes first;
* `select_condition`, `select_and`, `select_or`, `select_unknown`: what that is
  for each kind of filter, and `select_and_conditions`: for a group of conditions.
-/

namespace Sift

/-- What can be filtered. -/
class Row (α : Type) where
  id : α → String
  value : α → String → Value

instance : Row Record where
  id := Record.id
  value := Record.value

/-- A row with its position is filtered as the row. -/
instance {α : Type} [Row α] : Row (Nat × α) where
  id row := Row.id row.2
  value row := Row.value row.2

variable {α : Type} [Row α]

/-- The first row of each identity, but for the identities in `seen`. -/
def firstsAfter (seen : List String) : List α → List α
  | [] => []
  | row :: rows =>
    if Row.id row ∈ seen then firstsAfter seen rows
    else row :: firstsAfter (Row.id row :: seen) rows

/-- The first row of each identity. -/
def firsts (rows : List α) : List α := firstsAfter [] rows

/-- The rows with a value that satisfies a condition. -/
def Condition.select (mode : DateEquality) (c : Condition) (rows : List α) : List α :=
  rows.filter fun row => c.holds mode (Row.value row c.property)

namespace Filter

mutual

/-- The rows that a filter keeps. Where there are none to keep, the filter is
    not looked at. -/
def select (mode : DateEquality) (f : Filter) (rows : List α) : List α :=
  if rows.isEmpty then []
  else match f with
    | condition c => c.select mode rows
    | group .and fs => narrow mode fs rows
    | group .or fs => firsts (branches mode fs rows)
    | group .unknown _ => []
termination_by structural f

/-- The rows that all of the filters keep, one after the other. -/
def narrow (mode : DateEquality) : List Filter → List α → List α
  | [], rows => rows
  | f :: fs, rows => narrow mode fs (select mode f rows)
termination_by structural fs => fs

/-- The rows that each of the filters keeps, one filter after the other. -/
def branches (mode : DateEquality) : List Filter → List α → List α
  | [], _ => []
  | f :: fs, rows => select mode f rows ++ branches mode fs rows
termination_by structural fs => fs

end

variable (mode : DateEquality)

theorem select_nil (f : Filter) : f.select mode ([] : List α) = [] := by
  rw [select.eq_def, List.isEmpty_nil, if_pos rfl]

theorem narrow_nil (fs : List Filter) : narrow mode fs ([] : List α) = [] := by
  induction fs with
  | nil => rw [narrow]
  | cons f fs ih => rw [narrow, select_nil, ih]

theorem branches_nil (fs : List Filter) : branches mode fs ([] : List α) = [] := by
  induction fs with
  | nil => rw [branches]
  | cons f fs ih => rw [branches, select_nil, ih, List.append_nil]

/-! What a filter keeps where there are no rows is what it would keep of them
anyway. -/

theorem select_condition (c : Condition) (rows : List α) :
    (condition c).select mode rows = c.select mode rows := by
  cases rows with
  | nil => rw [select_nil, Condition.select, List.filter_nil]
  | cons row rows => simp only [select, List.isEmpty_cons, Bool.false_eq_true, if_false]

theorem select_and (fs : List Filter) (rows : List α) :
    (group .and fs).select mode rows = narrow mode fs rows := by
  cases rows with
  | nil => rw [select_nil, narrow_nil]
  | cons row rows => simp only [select, List.isEmpty_cons, Bool.false_eq_true, if_false]

theorem select_or (fs : List Filter) (rows : List α) :
    (group .or fs).select mode rows = firsts (branches mode fs rows) := by
  cases rows with
  | nil => rw [select_nil, branches_nil, firsts, firstsAfter]
  | cons row rows => simp only [select, List.isEmpty_cons, Bool.false_eq_true, if_false]

theorem select_unknown (fs : List Filter) (rows : List α) :
    (group .unknown fs).select mode rows = [] := by
  rw [select]
  split <;> rfl

/-- Conditions that the same rows satisfy select the same. -/
theorem select_condition_congr {c d : Condition} {rows : List α} (h : ∀ row ∈ rows,
    c.holds mode (Row.value row c.property) = d.holds mode (Row.value row d.property)) :
    (condition c).select mode rows = (condition d).select mode rows := by
  rw [select_condition, select_condition, Condition.select, Condition.select]
  exact List.filter_congr h

/-- A group of conditions keeps the rows that satisfy all of them. -/
theorem select_and_conditions (cs : List Condition) (rows : List α) :
    (group .and (cs.map condition)).select mode rows =
      rows.filter fun row => cs.all fun c => c.holds mode (Row.value row c.property) := by
  rw [select_and]
  induction cs generalizing rows with
  | nil => rw [List.map_nil, narrow, List.filter_eq_self.2 fun _ _ => List.all_nil]
  | cons c cs ih =>
    rw [List.map_cons, narrow, ih, select_condition, Condition.select, List.filter_filter]
    refine List.filter_congr fun row _ => ?_
    rw [List.all_cons, Bool.and_comm]

end Filter

end Sift
