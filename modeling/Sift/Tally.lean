import Sift.Filter.Selection

/-!
# Tallies

The distinct values of a property and how often they occur.

* `tally`: the counts by label, in the order of first occurrence; the tags of a
  list count one by one, and what has no label does not count;
* `Count.compare`: numbers and dates by size, other values by label;
* `listed`, `listedWithCounts`: the lines of a tally, in the order of the
  values or of the counts.
-/

namespace Sift

/-- The text that a value is counted under. -/
def Value.label : Value → String
  | text s => s
  | number d => String.ofList d.plain
  | boolean b => if b then "true" else "false"
  | date i => String.ofList i.labelled
  | option t => t.name
  | null | optionList _ => ""

/-- A value and how many times it was seen. -/
structure Count where
  value : Value
  count : Nat
deriving DecidableEq

/-- The values that count one by one. -/
def Value.occurrences : Value → List Value
  | optionList ts => ts.map option
  | v => [v]

/-- One more occurrence of a value. -/
def Columns.count (counts : Columns Count) (v : Value) : Columns Count :=
  if v.label = "" then counts
  else match counts.get? v.label with
    | none => counts.set v.label ⟨v, 1⟩
    | some c => counts.set v.label { c with count := c.count + 1 }

/-- The counts of the values of a property. -/
def tally {α : Type} [Row α] (rows : List α) (property : String) : List Count :=
  let values := rows.flatMap fun row => (Row.value row property).occurrences
  (values.foldl Columns.count .empty).entries.map Prod.snd

namespace Count

/-- The text that the value is counted under. -/
def label (c : Count) : String := c.value.label

/-- The place of a kind of values among the others. -/
def kindRank : Value → Nat
  | .boolean _ => 0
  | .number _ => 1
  | .date _ => 2
  | .text _ | .option _ => 3
  | .null | .optionList _ => 4

/-- The order of values: numbers and dates by size, no before yes, all others
    by kind and label. -/
def compare (a b : Count) : Ordering :=
  match a.value, b.value with
  | .number x, .number y => Ord.compare x.rank y.rank
  | .date x, .date y => x.compare y
  | .boolean x, .boolean y => Ord.compare x.toNat y.toNat
  | x, y => (Ord.compare (kindRank x) (kindRank y)).then (Ord.compare a.label b.label)

/-- The order by count, the greatest first, and then by value. -/
def compareCounts (a b : Count) : Ordering := (Ord.compare b.count a.count).then (a.compare b)

end Count

/-- The labels of a tally, in the order of the values. -/
def listed (counts : List Count) : List String :=
  (counts.mergeSort fun a b => (a.compare b).isLE).map Count.label

/-- The labels of a tally with their counts, in the order of the counts. -/
def listedWithCounts (counts : List Count) : List String :=
  (counts.mergeSort fun a b => (a.compareCounts b).isLE).map fun c =>
    c.label ++ ": " ++ toString c.count

end Sift
