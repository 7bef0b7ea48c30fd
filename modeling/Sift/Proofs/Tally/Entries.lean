import Mathlib.Algebra.BigOperators.Group.List.Lemmas
import Mathlib.Algebra.GroupWithZero.Nat
import Sift.Tally

/-!
# The entries of a tally

A tally goes through the values of a property and keeps a count for each label.
Nothing gets lost on the way and nothing is made up: the counts are those of the
values with the label, under the value that came first, in the order in which
the labels came up.

* `passing`, `occurring`: the values that a tally goes through, one by one, and those
  of them that have a label;
* `Columns.Tallies`: counts that are right for the values so far, and
  `Columns.Tallies.count`: that one more value keeps them right;
* `tally_labels_and_entries`: what a tally says of the values of a property.
-/

namespace Sift

/-- The values of a property in the order of the rows, the tags of a list one by one,
    with or without a label. -/
def passing {α : Type} [Row α] (rows : List α) (property : String) : List Value :=
  rows.flatMap fun row => (Row.value row property).occurrences

/-- The values of a property in the order of the rows, the tags of a list one by
    one, without those that have no label. -/
def occurring {α : Type} [Row α] (rows : List α) (property : String) : List Value :=
  (rows.flatMap fun row => (Row.value row property).occurrences).filter fun v => v.label ≠ ""

namespace Columns

/-! ## Counting -/

/-- Counts that are right for some values: under each label in the order of its
    first value, this value, and how many values have the label. -/
structure Tallies (values : List Value) (counts : Columns Count) : Prop where
  names_eq : counts.names = (values.map Value.label).eraseDups
  get?_eq : ∀ label, counts.get? label =
    (values.find? fun v => v.label == label).map fun v =>
      ⟨v, values.countP fun w => w.label == label⟩

variable {values : List Value} {counts : Columns Count}

theorem Tallies.nil : Tallies [] .empty := ⟨rfl, fun _ => rfl⟩

/-- A value with a label counts under it, as the first one if there is no count
    yet. -/
theorem count_eq_set (counts : Columns Count) {v : Value} (hv : v.label ≠ "") :
    counts.count v = counts.set v.label
      (((counts.get? v.label).map fun c => { c with count := c.count + 1 }).getD ⟨v, 1⟩) := by
  rw [count, if_neg hv]
  cases counts.get? v.label <;> rfl

/-- One more value keeps the counts right. -/
theorem Tallies.count (h : counts.Tallies values) {v : Value} (hv : v.label ≠ "") :
    (counts.count v).Tallies (values ++ [v]) := by
  rw [count_eq_set counts hv]
  constructor
  · rw [names_set, List.map_append, List.map_singleton]
    exact (eraseDups_concat_of_names_eq h.names_eq v.label).symm
  · intro label
    rw [get?_set, h.get?_eq, h.get?_eq, List.find?_append, List.countP_append,
      List.countP_singleton, List.find?_singleton]
    by_cases hlabel : label = v.label
    · subst hlabel
      cases hfind : values.find? fun w => w.label == v.label with
      | none =>
        -- The value is the first one with its label.
        have hzero : (values.countP fun w => w.label == v.label) = 0 :=
          List.countP_eq_zero.2 fun w hw => List.find?_eq_none.1 hfind w hw
        simp [hzero]
      | some w => simp
    · have hne : v.label ≠ label := fun he => hlabel he.symm
      simp [hlabel, hne]

/-- Values one after the other keep the counts right. -/
theorem Tallies.foldl_count (h : counts.Tallies values) (more : List Value) :
    (more.foldl Columns.count counts).Tallies (values ++ more.filter fun v => v.label ≠ "") := by
  induction more generalizing values counts with
  | nil => simpa using h
  | cons v more ih =>
    rw [List.foldl_cons]
    by_cases hv : v.label = ""
    · rw [List.filter_cons_of_neg (by simpa using hv), Columns.count, if_pos hv]
      exact ih h
    · rw [List.filter_cons_of_pos (by simpa using hv), ← List.singleton_append, ← List.append_assoc]
      exact ih (h.count hv)

theorem Tallies.of_mem_entries (h : counts.Tallies values) {label : String} {c : Count}
    (hentry : (label, c) ∈ counts.entries) : c.label = label ∧
      (values.find? fun v => v.label == label) = some c.value ∧
      c.count = values.countP fun v => v.label == label := by
  have hget := get?_eq_some_iff.2 hentry
  rw [h.get?_eq, Option.map_eq_some_iff] at hget
  obtain ⟨v, hv, rfl⟩ := hget
  have hlabel := List.find?_some hv
  exact ⟨eq_of_beq hlabel, hv, rfl⟩

end Columns

/-! ## Tallies -/

variable {α : Type} [Row α] {rows : List α} {property : String}

theorem exists_tallies_occurring (rows : List α) (property : String) :
    ∃ counts : Columns Count, counts.Tallies (occurring rows property) ∧
      tally rows property = counts.entries.map Prod.snd :=
  ⟨_, Columns.Tallies.nil.foldl_count _, rfl⟩

/-- Every count of a tally is that of the values with its label, of which it has the
    first. -/
theorem of_mem_tally {c : Count} (hc : c ∈ tally rows property) :
    ((occurring rows property).find? fun v => v.label == c.label) = some c.value ∧
      c.count = (occurring rows property).countP fun v => v.label == c.label := by
  obtain ⟨counts, htallies, htally⟩ := exists_tallies_occurring rows property
  rw [htally] at hc
  obtain ⟨⟨label, c⟩, hentry, rfl⟩ := List.mem_map.1 hc
  obtain ⟨rfl, hcount⟩ := htallies.of_mem_entries hentry
  exact hcount

/-- The labels of a tally are those of the values, each of them once. -/
theorem map_label_tally (rows : List α) (property : String) :
    (tally rows property).map Count.label =
        ((occurring rows property).map Value.label).eraseDups ∧
      ((tally rows property).map Count.label).Nodup := by
  obtain ⟨counts, htallies, htally⟩ := exists_tallies_occurring rows property
  have hnames : (tally rows property).map Count.label = counts.names := by
    rw [htally, List.map_map, Columns.names]
    exact List.map_congr_left fun entry hentry => (htallies.of_mem_entries hentry).1
  exact ⟨hnames.trans htallies.names_eq, hnames ▸ counts.nodup⟩

theorem mem_occurring_iff {v : Value} : v ∈ occurring rows property ↔
    v ∈ passing rows property ∧ v.label ≠ "" := by
  rw [occurring, List.mem_filter, decide_eq_true_eq, passing]

theorem value_mem_occurring {c : Count} (hc : c ∈ tally rows property) :
    c.value ∈ occurring rows property :=
  List.mem_of_find?_eq_some (of_mem_tally hc).1

/-- Every value with a label is counted by an entry. -/
theorem exists_mem_tally_label_eq {v : Value} (h : v ∈ occurring rows property) :
    ∃ c ∈ tally rows property, c.label = v.label := by
  have hmem : v.label ∈ (tally rows property).map Count.label := by
    rw [(map_label_tally rows property).1, List.mem_eraseDups]
    exact List.mem_map_of_mem h
  exact List.mem_map.1 hmem

/-- How often the members of a list occur adds up to its length. -/
theorem sum_map_count_eraseDups {labels : List String} (h : labels.eraseDups.Nodup) :
    (labels.eraseDups.map fun label => labels.count label).sum = labels.length := by
  have hperm : labels.eraseDups.Perm labels.dedup :=
    (List.perm_ext_iff_of_nodup h labels.nodup_dedup).2 fun label => by
      rw [List.mem_eraseDups, List.mem_dedup]
  rw [(hperm.map _).sum_eq, List.sum_map_count_dedup_eq_length]

/-- A tally has an entry for each label of the values of the property, in the order
    in which they first occur, with the first value that has it and the number of
    all that have it; these numbers add up to that of the values. -/
theorem tally_labels_and_entries (rows : List α) (property : String) :
    (tally rows property).map Count.label =
        ((occurring rows property).map Value.label).eraseDups ∧
      ((tally rows property).map Count.label).Nodup ∧
      (∀ c ∈ tally rows property,
        ((occurring rows property).find? fun v => v.label == c.label) = some c.value ∧
          c.count = (occurring rows property).countP fun v => v.label == c.label) ∧
      ((tally rows property).map Count.count).sum = (occurring rows property).length := by
  obtain ⟨hlabels, hnodup⟩ := map_label_tally rows property
  refine ⟨hlabels, hnodup, fun c hc => of_mem_tally hc, ?_⟩
  have hcounts : (tally rows property).map Count.count =
      ((tally rows property).map Count.label).map fun label =>
        ((occurring rows property).map Value.label).count label := by
    rw [List.map_map]
    refine List.map_congr_left fun c hc => ?_
    rw [(of_mem_tally hc).2, Function.comp_apply, List.count_eq_countP, List.countP_map]
    rfl
  rw [hcounts, hlabels, sum_map_count_eraseDups (hlabels ▸ hnodup), List.length_map]

-- A tag counts under the color that it has first, and a tag without a name not at all.
example : tally [.set "tags" (.optionList [⟨"late", .red⟩, ⟨"", .blue⟩]) (.new "a"),
    .set "tags" (.text "home") (.new "b"), .new "c",
    Record.set "tags" (.optionList [⟨"home", .blue⟩, ⟨"late", .blue⟩]) (.new "a")] "tags" =
      [⟨.option ⟨"late", .red⟩, 2⟩, ⟨.text "home", 2⟩] := by decide

end Sift
