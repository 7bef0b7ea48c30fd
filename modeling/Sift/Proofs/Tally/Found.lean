import Mathlib.Data.List.Count
import Sift.Proofs.Tally.Entries

/-!
# Listed values that are found

The entries of a tally and the conditions of a filter come to the same values by
different ways: the one by labels, the other by comparing values of one kind. Where
a property holds values of one kind that a condition can look for, an entry counts
the rows that the condition on its value keeps. A list of tags counts once for each
of its tags, so no name may repeat in it.

* `Value.Findable`: the values of such a property;
* `Condition.finding`: the condition on a listed value;
* `Value.countP_occurrences`: a value is counted by an entry once if it meets this
  condition, and else not at all;
* `Filter.count_eq_length_select_and_exists`: what that is for a tally.
-/

namespace Sift

variable {α : Type} [Row α] {mode : DateEquality}

/-- The values of a property whose values can be listed and looked for one by one:
    null, and texts, booleans, tags, or lists of tags in which no name repeats. -/
inductive Value.Findable : Value → PropertyType → Prop
  | null {t : PropertyType} : Findable .null t
  | text (s : String) : Findable (.text s) .text
  | boolean (b : Bool) : Findable (.boolean b) .boolean
  | option (t : Tag) : Findable (.option t) .option
  | optionList {ts : List Tag} : (ts.map Tag.name).Nodup → Findable (.optionList ts) .optionList

/-- What a condition compares with to find a value. -/
def Value.operand? : Value → Option Operand
  | text s => some (.text s)
  | boolean b => some (.boolean b)
  | option t => some (.text t.name)
  | number d => some (.number d)
  | date i => some (.date i)
  | null | optionList _ => none

/-- The condition that looks for a listed value of a property: a name in lists of
    tags, or else an equal value. -/
def Condition.finding (property : String) (t : PropertyType) (v : Value) : Condition :=
  ⟨property, if t = .optionList then .contains else .equals, v.operand?⟩

namespace Value

open Condition (finding)

variable {u v w : Value} {t : PropertyType}

/-- How often a name stands among distinct ones. -/
theorem countP_name_eq {ts : List Tag} (h : (ts.map Tag.name).Nodup) (name : String) :
    (ts.countP fun t => t.name == name) = if ts.any fun t => t.name = name then 1 else 0 := by
  have hcount : (ts.countP fun t => t.name == name) = (ts.map Tag.name).count name := by
    rw [List.count_eq_countP, List.countP_map]
    rfl
  have hmem : name ∈ ts.map Tag.name ↔ ts.any fun t => t.name = name := by simp
  rw [hcount, h.count]
  simp only [hmem]

/-- An entry of a tally counts a value once if the value meets the condition on what
    is listed there, and else not at all. -/
theorem countP_occurrences (property : String) (hu : u.Findable t) (hw : w ∈ u.occurrences)
    (hne : w.label ≠ "") (hv : v.Findable t) :
    (v.occurrences.countP fun x => x.label == w.label) =
      if (finding property t w).holds mode v then 1 else 0 := by
  have hnull : ([null].countP fun x => x.label == w.label) = 0 := by
    rw [List.countP_singleton, if_neg]
    exact fun h => hne (eq_of_beq h).symm
  cases hu with
  | null => exact absurd (List.mem_singleton.1 hw ▸ rfl) hne
  | text s =>
    obtain rfl := List.mem_singleton.1 hw
    cases hv with
    | null => exact hnull
    | text s' => simp [occurrences, finding, operand?, Condition.holds, equals, label]
  | boolean b =>
    obtain rfl := List.mem_singleton.1 hw
    cases hv with
    | null => exact hnull
    | boolean b' => cases b <;> cases b' <;> rfl
  | option t =>
    obtain rfl := List.mem_singleton.1 hw
    cases hv with
    | null => exact hnull
    | option t' => simp [occurrences, finding, operand?, Condition.holds, equals, label]
  | optionList _ =>
    obtain ⟨t, -, rfl⟩ := List.mem_map.1 hw
    cases hv with
    | null => exact hnull
    | optionList hnodup =>
      rw [occurrences, List.countP_map]
      exact countP_name_eq hnodup t.name

end Value

/-- Where each element brings at most one that passes a test, and brings it if it
    passes a test of its own, as many pass the one test as the other. -/
theorem countP_flatMap_of_countP_eq {α β : Type} {l : List α} {f : α → List β} {p : β → Bool}
    {q : α → Bool} (h : ∀ a ∈ l, (f a).countP p = if q a then 1 else 0) :
    (l.flatMap f).countP p = l.countP q := by
  induction l with
  | nil => rfl
  | cons a l ih =>
    rw [List.forall_mem_cons] at h
    rw [List.flatMap_cons, List.countP_append, h.1, ih h.2, List.countP_cons, Nat.add_comm]

namespace Filter

open Condition (finding)

variable {rows : List α} {property : String} {t : PropertyType} {w : Value}

/-- Where a value is listed, a condition finds the rows that are counted with it, and
    each of them is counted once. -/
theorem countP_occurrences_of_mem (hrows : ∀ row ∈ rows, (Row.value row property).Findable t)
    (hw : w ∈ occurring rows property) {row : α} (hrow : row ∈ rows) :
    ((Row.value row property).occurrences.countP fun v => v.label == w.label) =
      if (finding property t w).holds mode (Row.value row property) then 1 else 0 := by
  obtain ⟨hmem, hne⟩ := mem_occurring_iff.1 hw
  obtain ⟨first, hfirst, hw⟩ := List.mem_flatMap.1 hmem
  exact Value.countP_occurrences property (hrows first hfirst) hw hne (hrows row hrow)

theorem select_finding (v : Value) (rows : List α) :
    (condition (finding property t v)).select mode rows =
      rows.filter fun row => (finding property t v).holds mode (Row.value row property) :=
  select_condition mode _ rows

/-- Values without a label do not count. -/
theorem countP_occurring_eq {label : String} (h : label ≠ "") :
    (occurring rows property).countP (fun v => v.label == label) =
      (passing rows property).countP fun v => v.label == label := by
  rw [occurring, List.countP_filter]
  refine List.countP_congr fun v _ => ?_
  simp only [Bool.and_eq_true, beq_iff_eq, decide_eq_true_eq, and_iff_left_iff_imp]
  rintro rfl
  exact h

/-- Where a property holds values of one kind that can be looked for one by one, each
    entry of its tally counts the rows that the condition on the value of the entry
    selects, and each row with a value that has a label is selected by the
    condition of an entry. -/
theorem count_eq_length_select_and_exists (mode : DateEquality)
    (hrows : ∀ row ∈ rows, (Row.value row property).Findable t) :
    (∀ c ∈ tally rows property,
      c.count = ((condition (finding property t c.value)).select mode rows).length) ∧
    ∀ row ∈ rows, ∀ v ∈ (Row.value row property).occurrences, v.label ≠ "" →
      ∃ c ∈ tally rows property,
        row ∈ (condition (finding property t c.value)).select mode rows := by
  simp only [select_finding]
  constructor
  · intro c hc
    have hmem := value_mem_occurring hc
    rw [← List.countP_eq_length_filter, (of_mem_tally hc).2, Count.label,
      countP_occurring_eq (mem_occurring_iff.1 hmem).2, passing]
    exact countP_flatMap_of_countP_eq fun row hrow => countP_occurrences_of_mem hrows hmem hrow
  · intro row hrow v hv hne
    have hpassing : v ∈ passing rows property := List.mem_flatMap.2 ⟨row, hrow, hv⟩
    obtain ⟨c, hc, hlabel⟩ := exists_mem_tally_label_eq (mem_occurring_iff.2 ⟨hpassing, hne⟩)
    refine ⟨c, hc, List.mem_filter.2 ⟨hrow, ?_⟩⟩
    -- The value is counted by this entry, so the row is one that the condition keeps.
    by_contra hnot
    have hzero : ((Row.value row property).occurrences.countP fun w => w.label == c.label) = 0 :=
      (countP_occurrences_of_mem hrows (value_mem_occurring hc) hrow).trans (if_neg hnot)
    exact List.countP_eq_zero.1 hzero v hv (beq_iff_eq.2 hlabel.symm)

/-- Tasks with tags, two of them with the same identity, and one without. -/
def labelledTasks : List Record :=
  [.set "tags" (.optionList [⟨"late", .red⟩, .plain "home"]) (.new "a"),
    .set "tags" (.optionList [.plain "", .plain "late"]) (.new "b"), .new "c",
    Record.set "tags" (.optionList [.plain "home"]) (.new "a")]

theorem count_eq_length_select_and_exists_labelledTasks :
    (∀ row ∈ labelledTasks, (Row.value row "tags").Findable .optionList) ∧
      ⟨.option ⟨"late", .red⟩, 2⟩ ∈ tally labelledTasks "tags" ∧
      2 = ((condition ⟨"tags", .contains, some (.text "late")⟩).select .identity
        labelledTasks).length ∧
      ∃ c ∈ tally labelledTasks "tags",
        Record.set "tags" (.optionList [.plain "", .plain "late"]) (.new "b") ∈
          (condition (finding "tags" .optionList c.value)).select .identity labelledTasks := by
  have hrows : ∀ row ∈ labelledTasks, (Row.value row "tags").Findable .optionList :=
    List.forall_mem_cons.2 ⟨.optionList (by decide), List.forall_mem_cons.2
      ⟨.optionList (by decide), List.forall_mem_cons.2 ⟨.null, List.forall_mem_singleton.2
        (.optionList (by decide))⟩⟩⟩
  have hlate : ⟨.option ⟨"late", .red⟩, 2⟩ ∈ tally labelledTasks "tags" := by decide
  obtain ⟨hcount, hfound⟩ := count_eq_length_select_and_exists .identity hrows
  exact ⟨hrows, hlate, hcount _ hlate, hfound _ (by decide) (.option (.plain "late")) (by decide)
    (by decide)⟩

-- A name that repeats in a list counts each time, but there is one row to be found.
example : tally [Record.set "tags" (.optionList [.plain "late", .plain "late"]) (.new "a")] "tags" =
    [⟨.option (.plain "late"), 2⟩] := by decide

end Filter

end Sift
