import Sift.Proofs.Tally.Entries
import Sift.Proofs.Tally.Labels

/-!
# Values tallied together

A tally takes the values of a property one by one, and each of them makes one entry
count one more. Values that are the same up to the colors of tags go to one entry,
but an entry may also take values of several kinds: a text or a tag goes wherever it
is spelled like, and all numbers that are none go together. Other values never share
an entry.

* `Columns.GoesTo`: the entry that counts one more with a value, and
  `Columns.goesTo_iff`: that it is the one under the label of the value;
* `TalliedTogether`: values of a property that one entry of its tally counts;
* `talliedTogether_iff`: which values these are.
-/

namespace Sift

namespace Columns

variable {counts : Columns Count} {v : Value} {label : String}

/-- How many values the entry under a label counts. -/
def countAt (counts : Columns Count) (label : String) : Nat :=
  ((counts.get? label).map Count.count).getD 0

/-- A value goes to the entry under a label if this entry counts one more with it. -/
def GoesTo (counts : Columns Count) (v : Value) (label : String) : Prop :=
  (counts.count v).countAt label = counts.countAt label + 1

theorem countAt_count_of_label_eq (hv : v.label ≠ "") :
    (counts.count v).countAt v.label = counts.countAt v.label + 1 := by
  rw [count_eq_set counts hv, countAt, get?_set, if_pos rfl, countAt]
  cases counts.get? v.label <;> rfl

/-- The entries under other labels stay as they are. -/
theorem countAt_count_of_label_ne (hlabel : v.label ≠ label) :
    (counts.count v).countAt label = counts.countAt label := by
  by_cases hv : v.label = ""
  · rw [count, if_pos hv]
  · rw [count_eq_set counts hv, countAt, get?_set, if_neg hlabel.symm, countAt]

theorem goesTo_iff : counts.GoesTo v label ↔ v.label ≠ "" ∧ v.label = label := by
  rw [GoesTo]
  constructor
  · intro h
    have hlabel : v.label = label := by
      by_contra hne
      rw [countAt_count_of_label_ne hne] at h
      omega
    refine ⟨fun hv => ?_, hlabel⟩
    rw [count, if_pos hv] at h
    omega
  · rintro ⟨hv, rfl⟩
    exact countAt_count_of_label_eq hv

end Columns

section

variable {α : Type} [Row α]

/-- Whether the value at a place among some values goes to the entry under a label
    when it is its turn. -/
def TalliedUnder (values : List Value) (place : Nat) (label : String) : Prop :=
  ∃ v, values[place]? = some v ∧
    ((values.take place).foldl Columns.count .empty).GoesTo v label

/-- Whether an entry of the tally of a property counts the values at both places. -/
def TalliedTogether (rows : List α) (property : String) (m n : Nat) : Prop :=
  ∃ c ∈ tally rows property, TalliedUnder (passing rows property) m c.label ∧
    TalliedUnder (passing rows property) n c.label

variable {rows : List α} {property : String} {m n : Nat} {v w : Value}

theorem talliedUnder_iff {values : List Value} {label : String} (hv : values[n]? = some v) :
    TalliedUnder values n label ↔ v.label ≠ "" ∧ v.label = label := by
  simp only [TalliedUnder, hv, Option.some_inj, Columns.goesTo_iff, exists_eq_left']

theorem talliedTogether_iff_label_eq (hv : (passing rows property)[m]? = some v)
    (hw : (passing rows property)[n]? = some w) :
    TalliedTogether rows property m n ↔ v.label ≠ "" ∧ v.label = w.label := by
  constructor
  · rintro ⟨c, -, hm, hn⟩
    obtain ⟨hne, hlabel⟩ := (talliedUnder_iff hv).1 hm
    exact ⟨hne, hlabel.trans ((talliedUnder_iff hw).1 hn).2.symm⟩
  · rintro ⟨hne, hlabel⟩
    obtain ⟨c, hc, hcv⟩ := exists_mem_tally_label_eq
      (mem_occurring_iff.2 ⟨List.mem_of_getElem? hv, hne⟩)
    exact ⟨c, hc, (talliedUnder_iff hv).2 ⟨hne, hcv.symm⟩,
      (talliedUnder_iff hw).2 ⟨hlabel ▸ hne, hlabel.symm.trans hcv.symm⟩⟩

theorem proper_of_mem_passing (hrows : ∀ row ∈ rows, (Row.value row property).Proper)
    (hv : v ∈ passing rows property) : v.Proper := by
  obtain ⟨row, hrow, hv⟩ := List.mem_flatMap.1 hv
  exact Value.proper_of_mem_occurrences (hrows row hrow) hv

/-- Which values of a property one entry counts: those that are the same up to the
    colors of tags, numbers that are none, and a text or a tag together with the
    values of other kinds that it is spelled like. -/
theorem talliedTogether_iff (hrows : ∀ row ∈ rows, (Row.value row property).Proper)
    (hv : (passing rows property)[m]? = some v) (hw : (passing rows property)[n]? = some w) :
    TalliedTogether rows property m n ↔ v.label ≠ "" ∧
      (v.uncolored = w.uncolored ∨ v.NoNumbers w ∨ v.Spells w ∨ w.Spells v) := by
  rw [talliedTogether_iff_label_eq hv hw, and_congr_right_iff]
  intro hne
  exact Value.label_eq_iff (proper_of_mem_passing hrows (List.mem_of_getElem? hv))
    (proper_of_mem_passing hrows (List.mem_of_getElem? hw)) hne

/-- Notes of several kinds under one name: a time in a leap second, a text that is
    spelled like it, and two tags of one name, the second of them in a list. -/
def mixed : List Record :=
  [.set "x" (.date Instant.inLeapSecond) (.new "a"),
    .set "x" (.text "2015-06-30T23:59:60.250+00:00") (.new "b"),
    .set "x" (.option ⟨"true", .red⟩) (.new "c"),
    Record.set "x" (.optionList [.plain "", .plain "true"]) (.new "c")]

/-- The text goes with the time, and the tags go together. -/
theorem talliedTogether_mixed :
    (∀ row ∈ mixed, (Row.value row "x").Proper) ∧
      (passing mixed "x")[0]? = some (.date Instant.inLeapSecond) ∧
      (passing mixed "x")[1]? = some (.text "2015-06-30T23:59:60.250+00:00") ∧
      TalliedTogether mixed "x" 1 0 ∧
      (passing mixed "x")[2]? = some (.option ⟨"true", .red⟩) ∧
      (passing mixed "x")[4]? = some (.option (.plain "true")) ∧
      TalliedTogether mixed "x" 2 4 := by
  have hproper : ∀ row ∈ mixed, (Row.value row "x").Proper :=
    List.forall_mem_cons.2 ⟨fun _ => rfl, List.forall_mem_cons.2 ⟨trivial,
      List.forall_mem_cons.2 ⟨trivial, List.forall_mem_singleton.2 trivial⟩⟩⟩
  have hdate : (passing mixed "x")[0]? = some (.date Instant.inLeapSecond) := rfl
  have htext : (passing mixed "x")[1]? = some (.text "2015-06-30T23:59:60.250+00:00") := rfl
  have htag : (passing mixed "x")[2]? = some (.option ⟨"true", .red⟩) := rfl
  have hlisted : (passing mixed "x")[4]? = some (.option (.plain "true")) := rfl
  have hspells : (Value.text "2015-06-30T23:59:60.250+00:00").Spells
      (.date Instant.inLeapSecond) := .text (by decide) (by decide)
  refine ⟨hproper, hdate, htext, ?_, htag, hlisted, ?_⟩
  · exact (talliedTogether_iff hproper htext hdate).2 ⟨by decide, .inr (.inr (.inl hspells))⟩
  · exact (talliedTogether_iff hproper htag hlisted).2 ⟨by decide, .inl rfl⟩

/-- A text and a boolean that is written like it. -/
def spelled : List Record :=
  [.set "x" (.text "true") (.new "a"), .set "x" (.boolean true) (.new "b")]

/-- They are different values, but one entry counts both. -/
theorem not_forall_uncolored_eq_of_talliedTogether :
    ¬∀ (rows : List Record) (property : String) (m n : Nat) (v w : Value),
      (passing rows property)[m]? = some v → (passing rows property)[n]? = some w →
        TalliedTogether rows property m n → v.uncolored = w.uncolored := by
  intro h
  have htogether : TalliedTogether spelled "x" 0 1 :=
    ⟨⟨.text "true", 2⟩, by decide, ⟨_, rfl, rfl⟩, ⟨_, rfl, rfl⟩⟩
  exact absurd (h spelled "x" 0 1 _ _ rfl rfl htogether) (by decide)

end

end Sift
