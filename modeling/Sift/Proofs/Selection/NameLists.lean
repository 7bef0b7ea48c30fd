import Sift.Proofs.Selection.Splits

/-!
# Looking for several names

A condition with a list of names has tests of its own, which go through the tags
of a value once. They come down to looking for one name after the other, so that
the condition selects as the `and` group with a condition for each name. Texts
are the exception, since a single name may stand inside a text but a list of
names never does.

* `Value.containsAll_eq_all`, `Value.containsAny_eq_any`: the tests, name by name;
* `Condition.holds_names_congr`: the order and the repetition of names do not
  matter, not even to texts;
* `Filter.select_names_eq_and`: what that is for selections.
-/

namespace Sift

/-! ## Tests -/

namespace Value

variable {v : Value}

theorem containsAll_eq_all (hv : ∀ s, v ≠ text s) (names : List String) :
    v.containsAll names = names.all v.contains := by
  cases v with
  | text s => exact absurd rfl (hv s)
  | optionList ts => rfl
  | _ => cases names <;> rfl

theorem containsAny_eq_any (hv : ∀ s, v ≠ text s) (names : List String) :
    v.containsAny names = names.any v.contains := by
  rw [Bool.eq_iff_iff, containsAny_iff, List.any_eq_true]
  simp only [contains_iff]
  refine ⟨fun ⟨_, _, h⟩ => h, fun ⟨name, hname, h⟩ => ?_⟩
  -- Only texts and lists of tags contain anything.
  cases h with
  | @text s _ _ => exact absurd rfl (hv s)
  | @optionList ts _ ht => exact ⟨ts, rfl, _, hname, .optionList ht⟩

end Value

namespace Condition

variable {mode : DateEquality} {comparator : Comparator}

/-- But for texts, a value is tested for names one by one. -/
theorem holds_names_eq_all (hc : comparator = .contains ∨ comparator = .notContains)
    (property : String) (names : List String) {v : Value} (hv : ∀ s, v ≠ .text s) :
    holds mode ⟨property, comparator, some (.list names)⟩ v =
      names.all fun name => holds mode ⟨property, comparator, some (.text name)⟩ v := by
  rcases hc with rfl | rfl
  · exact Value.containsAll_eq_all hv names
  · change (!v.containsAny names) = names.all fun name => !v.contains name
    rw [Value.containsAny_eq_any hv, List.not_any_eq_all_not]

/-- It only matters which names are looked for. -/
theorem holds_names_congr (hc : comparator = .contains ∨ comparator = .notContains)
    (property : String) {names others : List String} (h : ∀ name, name ∈ names ↔ name ∈ others)
    (v : Value) : holds mode ⟨property, comparator, some (.list names)⟩ v =
      holds mode ⟨property, comparator, some (.list others)⟩ v := by
  have hnil : names = [] ↔ others = [] := by
    rw [List.eq_nil_iff_forall_not_mem, List.eq_nil_iff_forall_not_mem]
    simp only [h]
  rcases hc with rfl | rfl
  · change v.containsAll names = v.containsAll others
    rw [Bool.eq_iff_iff, Value.containsAll_iff, Value.containsAll_iff, hnil]
    simp only [h]
  · change (!v.containsAny names) = !v.containsAny others
    rw [Bool.not_inj_iff, Bool.eq_iff_iff, Value.containsAny_iff, Value.containsAny_iff]
    simp only [h]

end Condition

/-! ## Selections -/

namespace Filter

variable {α : Type} [Row α]

/-- A condition on a list of names selects as the group of the conditions on each
    of them, and on one name as on its text, among rows that have no texts there.
    Among any rows, lists of the same names select the same. -/
theorem select_names_eq_and (mode : DateEquality) (property : String) (rows : List α)
    {comparator : Comparator} (hc : comparator = .contains ∨ comparator = .notContains) :
    ((∀ row ∈ rows, ∀ s, Row.value row property ≠ .text s) →
      (∀ names, (condition ⟨property, comparator, some (.list names)⟩).select mode rows =
        (group .and (names.map fun name =>
          condition ⟨property, comparator, some (.text name)⟩)).select mode rows) ∧
      ∀ name, (condition ⟨property, comparator, some (.list [name])⟩).select mode rows =
        (condition ⟨property, comparator, some (.text name)⟩).select mode rows) ∧
    ∀ names others, (∀ name, name ∈ names ↔ name ∈ others) →
      (condition ⟨property, comparator, some (.list names)⟩).select mode rows =
        (condition ⟨property, comparator, some (.list others)⟩).select mode rows := by
  refine ⟨fun hrows => ⟨fun names => ?_, fun name => ?_⟩, fun names others h => ?_⟩
  · have hconditions := select_and_conditions mode (names.map fun name =>
      ⟨property, comparator, some (.text name)⟩) rows
    rw [List.map_map] at hconditions
    rw [select_condition, Condition.select]
    refine (List.filter_congr fun row hrow => ?_).trans hconditions.symm
    rw [Condition.holds_names_eq_all hc property names (hrows row hrow), List.all_map]
    rfl
  · refine select_condition_congr mode fun row hrow => ?_
    rw [Condition.holds_names_eq_all hc property [name] (hrows row hrow), List.all_cons,
      List.all_nil, Bool.and_true]
  · exact select_condition_congr mode fun row _ => Condition.holds_names_congr hc property h _

/-- Boxes, two of them with the same identity, with tags, with one tag, and with
    nothing. -/
def boxes : List Record :=
  [.set "tags" (.optionList [.plain "heavy", .plain "blue"]) (.new "a"),
    .set "tags" (.optionList [.plain "blue"]) (.new "b"),
    .set "tags" (.option (.plain "blue")) (.new "b"), .new "c"]

theorem select_names_eq_and_boxes :
    (Comparator.contains = .contains ∨ Comparator.contains = .notContains) ∧
      (∀ row ∈ boxes, ∀ s, Row.value row "tags" ≠ .text s) ∧
      (condition ⟨"tags", .contains, some (.list ["blue", "heavy", "blue"])⟩).select .identity
          boxes =
        (group .and [condition ⟨"tags", .contains, some (.text "blue")⟩,
          condition ⟨"tags", .contains, some (.text "heavy")⟩,
          condition ⟨"tags", .contains, some (.text "blue")⟩]).select .identity boxes ∧
      (∀ name, name ∈ ["blue", "heavy", "blue"] ↔ name ∈ ["heavy", "blue"]) ∧
      (condition ⟨"tags", .contains, some (.list ["blue", "heavy", "blue"])⟩).select .identity
          boxes =
        (condition ⟨"tags", .contains, some (.list ["heavy", "blue"])⟩).select .identity boxes := by
  have hc : Comparator.contains = .contains ∨ Comparator.contains = .notContains := .inl rfl
  have hkinds : ∀ row ∈ boxes, (Row.value row "tags").kind ≠ "text" := by decide
  have htexts : ∀ row ∈ boxes, ∀ s, Row.value row "tags" ≠ .text s :=
    fun row hrow s he => hkinds row hrow (he ▸ rfl)
  have hnames (name : String) : name ∈ ["blue", "heavy", "blue"] ↔ name ∈ ["heavy", "blue"] := by
    simp [or_comm]
  obtain ⟨hand, hcongr⟩ := select_names_eq_and .identity "tags" boxes hc
  exact ⟨hc, htexts, (hand htexts).1 _, hnames, hcongr _ _ hnames⟩

-- A name may stand inside a text, but a list of names does not.
example : (Value.text "blue box").contains "blue" ∧
    ¬(Value.text "blue box").containsAll ["blue"] := by decide

end Filter

end Sift
