import Sift.Proofs.Double.Spelling
import Sift.Tally

/-!
# Values that count

A tally leaves out what has no label: null, the empty text, and tags without a
name. All other values have a label, and so a tally is empty only where there is
nothing but the former.

* `Value.Counted`: the values that count, and `Value.counted_iff`: that they are
  those with a label;
* `tally_eq_nil_iff`: when a tally is empty.
-/

namespace Sift

/-! ## Labels -/

/-- The values that count in a tally. A list of tags counts if one of them
    does. -/
inductive Value.Counted : Value → Prop
  | text {s : String} : s ≠ "" → Counted (.text s)
  | boolean (b : Bool) : Counted (.boolean b)
  | number (d : Double) : Counted (.number d)
  | date (i : Instant) : Counted (.date i)
  | option {t : Tag} : t.name ≠ "" → Counted (.option t)
  | optionList {ts : List Tag} {t : Tag} : t ∈ ts → t.name ≠ "" → Counted (.optionList ts)

namespace Value

theorem label_boolean_ne (b : Bool) : (boolean b).label ≠ "" := by cases b <;> decide

theorem label_number_ne (d : Double) : (number d).label ≠ "" := by
  rw [label, Ne, String.ofList_eq_empty_iff]
  by_cases hfinite : d.isFinite
  · exact Double.plain_ne_nil hfinite
  · rw [Double.plain]
    split
    · exact List.cons_ne_nil _ _
    · rw [if_pos (by simpa using hfinite)]
      exact List.append_ne_nil_of_right_ne_nil _ (List.cons_ne_nil _ _)

theorem label_date_ne (i : Instant) : (date i).label ≠ "" := by
  rw [label, Ne, String.ofList_eq_empty_iff]
  exact List.append_ne_nil_of_right_ne_nil _ (List.cons_ne_nil _ _)

/-- The values that count are those of which something has a label. -/
theorem counted_iff {v : Value} : v.Counted ↔ ∃ w ∈ v.occurrences, w.label ≠ "" := by
  constructor
  · rintro (h | b | d | i | h | ⟨ht, h⟩)
    · exact ⟨_, List.mem_singleton_self _, h⟩
    · exact ⟨_, List.mem_singleton_self _, label_boolean_ne b⟩
    · exact ⟨_, List.mem_singleton_self _, label_number_ne d⟩
    · exact ⟨_, List.mem_singleton_self _, label_date_ne i⟩
    · exact ⟨_, List.mem_singleton_self _, h⟩
    · exact ⟨_, List.mem_map_of_mem ht, h⟩
  · rintro ⟨w, hw, h⟩
    cases v with
    | optionList ts =>
      obtain ⟨t, ht, rfl⟩ := List.mem_map.1 hw
      exact .optionList ht h
    | null =>
      obtain rfl := List.mem_singleton.1 hw
      exact absurd rfl h
    | text s =>
      obtain rfl := List.mem_singleton.1 hw
      exact .text h
    | option t =>
      obtain rfl := List.mem_singleton.1 hw
      exact .option h
    | boolean b => exact .boolean b
    | number d => exact .number d
    | date i => exact .date i

end Value

/-! ## Counts -/

namespace Columns

theorem entries_set_ne_nil {α : Type} (name : String) (value : α) (c : Columns α) :
    (c.set name value).entries ≠ [] := by
  intro h
  have hget := get?_set name name value c
  rw [if_pos rfl, get?, h] at hget
  cases hget

/-- There are no counts after one more value if there were none before and the
    value has no label. -/
theorem entries_count_eq_nil_iff {counts : Columns Count} {v : Value} :
    (counts.count v).entries = [] ↔ counts.entries = [] ∧ v.label = "" := by
  rw [count]
  split
  · rename_i hlabel
    exact (and_iff_left hlabel).symm
  · rename_i hlabel
    split <;> exact iff_of_false (entries_set_ne_nil _ _ _) fun h => hlabel h.2

theorem entries_foldl_count_eq_nil_iff {values : List Value} {counts : Columns Count} :
    (values.foldl count counts).entries = [] ↔
      counts.entries = [] ∧ ∀ v ∈ values, v.label = "" := by
  induction values generalizing counts with
  | nil => simp
  | cons v values ih =>
    rw [List.foldl_cons, ih, entries_count_eq_nil_iff, and_assoc, List.forall_mem_cons]

end Columns

/-- A tally is empty if no value of the property counts, and only then. -/
theorem tally_eq_nil_iff {α : Type} [Row α] {rows : List α} {property : String} :
    tally rows property = [] ↔ ∀ row ∈ rows, ¬(Row.value row property).Counted := by
  rw [tally, List.map_eq_nil_iff, Columns.entries_foldl_count_eq_nil_iff]
  simp only [List.forall_mem_flatMap, Value.counted_iff, not_exists, not_and, not_not]
  exact and_iff_right rfl

end Sift
