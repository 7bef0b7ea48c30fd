import Mathlib.Data.List.FinRange
import Mathlib.Data.List.Forall2
import Sift.Proofs.Query.Divergence
import Sift.Proofs.Selection.Repeated

/-!
# What a filter looks at

A filter looks at the identity of a row and at its values under the properties
that the conditions name, where of a tag only the name counts. Rows that are
alike in this are kept together, so that a selection is a matter of positions:
from two lists with rows that are alike, position by position, a filter takes
the same positions in the same order, whether identities repeat or not.

* `Value.uncolored`: a value without the colors of its tags, and
  `Condition.holds_uncolored`: that no condition looks at them;
* `Filter.Alike`: rows that a filter cannot tell apart, and
  `Filter.alike_of_perm`: that records are such if they have the same columns
  under the properties that it names, in whatever order;
* `Filter.select_map`: rows may be replaced by rows that are alike before a
  selection or after it;
* `Filter.exists_positions_select`: the positions that a selection takes.
-/

namespace Sift

variable {α β : Type} [Row α] [Row β] {mode : DateEquality}

/-! ## Colors -/

/-- The tag without its color. -/
def Tag.uncolored (t : Tag) : Tag := .plain t.name

namespace Value

/-- The value without the colors of its tags. -/
def uncolored : Value → Value
  | option t => option t.uncolored
  | optionList ts => optionList (ts.map Tag.uncolored)
  | v => v

theorem equals_uncolored (v : Value) (x : Operand) :
    v.uncolored.equals mode x = v.equals mode x := by
  cases v with
  | option t => cases x <;> rfl
  | _ => rfl

theorem contains_uncolored (v : Value) (needle : String) :
    v.uncolored.contains needle = v.contains needle := by
  cases v with
  | optionList ts => simp only [uncolored, contains, List.any_map]; rfl
  | _ => rfl

theorem containsAll_uncolored (v : Value) (names : List String) :
    v.uncolored.containsAll names = v.containsAll names := by
  cases v with
  | optionList ts => simp only [uncolored, containsAll, List.any_map]; rfl
  | _ => rfl

theorem containsAny_uncolored (v : Value) (names : List String) :
    v.uncolored.containsAny names = v.containsAny names := by
  cases v with
  | optionList ts => simp only [uncolored, containsAny, List.any_map]; rfl
  | _ => rfl

theorem isEmpty_uncolored (v : Value) : v.uncolored.isEmpty = v.isEmpty := by
  cases v with
  | optionList ts => exact List.isEmpty_map
  | _ => rfl

theorem isNumber_uncolored (relation : Double → Bool) (v : Value) :
    v.uncolored.isNumber relation = v.isNumber relation := by cases v <;> rfl

theorem isDate_uncolored (relation : Int → Bool) (v : Value) :
    v.uncolored.isDate relation = v.isDate relation := by cases v <;> rfl

end Value

/-- No condition looks at colors. -/
theorem Condition.holds_uncolored (c : Condition) (v : Value) :
    c.holds mode v.uncolored = c.holds mode v := by
  unfold holds
  cases c.comparator with
  | equals | notEquals => simp only [Value.equals_uncolored]
  | contains => simp only [Value.contains_uncolored, Value.containsAll_uncolored]
  | notContains => simp only [Value.contains_uncolored, Value.containsAny_uncolored]
  | isEmpty => exact v.isEmpty_uncolored
  | isNotEmpty => simp only [Value.isNotEmpty_eq, Value.isEmpty_uncolored]
  | greaterThan | lessThan | greaterThanOrEqualTo | lessThanOrEqualTo =>
    exact congrArg (withNumber c.operand) (funext fun _ => v.isNumber_uncolored _)
  | before | after | onOrBefore | onOrAfter =>
    exact congrArg (withDate c.operand) (funext fun _ => v.isDate_uncolored _)
  | unknown => rfl

/-! ## Rows that are alike -/

theorem firsts_map {φ : α → β} {rows : List α} (h : ∀ row ∈ rows, Row.id (φ row) = Row.id row) :
    firsts (rows.map φ) = (firsts rows).map φ := by
  suffices ∀ seen, firstsAfter seen (rows.map φ) = (firstsAfter seen rows).map φ from this []
  induction rows with
  | nil => exact fun _ => rfl
  | cons row rows ih =>
    rw [List.forall_mem_cons] at h
    intro seen
    rw [List.map_cons, firstsAfter, firstsAfter, h.1, ih h.2, ih h.2]
    split
    · rfl
    · rw [List.map_cons]

namespace Filter

/-- The properties that the conditions of a filter name, from left to right. -/
def properties (f : Filter) : List String := f.conditions.map Condition.property

theorem mem_properties_group {connective : Connective} {fs : List Filter} {f : Filter}
    {property : String} (hf : f ∈ fs) (h : property ∈ f.properties) :
    property ∈ (group connective fs).properties := by
  obtain ⟨c, hc, rfl⟩ := List.mem_map.1 h
  refine List.mem_map_of_mem ?_
  rw [conditions]
  exact mem_conditionsIn.2 ⟨f, hf, hc⟩

/-- Rows that a filter cannot tell apart: with the same identity and, under each
    property that the filter names, the same value up to colors. -/
structure Alike (f : Filter) (a : α) (b : β) : Prop where
  id : Row.id b = Row.id a
  value : ∀ property ∈ f.properties,
    (Row.value b property).uncolored = (Row.value a property).uncolored

/-- A filter in a group names fewer properties than the group. -/
theorem Alike.of_mem {connective : Connective} {fs : List Filter} {f : Filter} {a : α} {b : β}
    (h : (group connective fs).Alike a b) (hf : f ∈ fs) : f.Alike a b :=
  ⟨h.id, fun property hproperty => h.value property (mem_properties_group hf hproperty)⟩

/-- What a filter can see of a record: its columns under the properties that the
    filter names, without colors. -/
def seenOf (f : Filter) (r : Record) : List (String × Value) :=
  (r.properties.entries.filter fun entry => entry.1 ∈ f.properties).map fun entry =>
    (entry.1, entry.2.uncolored)

theorem mem_seenOf {f : Filter} {r : Record} {property : String}
    (hproperty : property ∈ f.properties) {v : Value} : (property, v) ∈ f.seenOf r ↔
      (r.properties.get? property).map Value.uncolored = some v := by
  rw [Option.map_eq_some_iff]
  simp only [Columns.get?_eq_some_iff]
  constructor
  · intro h
    obtain ⟨⟨name, w⟩, hentry, he⟩ := List.mem_map.1 h
    cases he
    exact ⟨w, (List.mem_filter.1 hentry).1, rfl⟩
  · rintro ⟨w, hentry, rfl⟩
    exact List.mem_map.2 ⟨(property, w), List.mem_filter.2 ⟨hentry, decide_eq_true hproperty⟩, rfl⟩

/-- Records that show a filter the same columns, in whatever order, are alike. -/
theorem alike_of_perm {f : Filter} {r r' : Record} (hid : r'.id = r.id)
    (h : (f.seenOf r').Perm (f.seenOf r)) : f.Alike r r' := by
  refine ⟨hid, fun property hproperty => ?_⟩
  have hvalue (r : Record) : (Row.value r property).uncolored =
      ((r.properties.get? property).map Value.uncolored).getD .null := by
    change (r.value property).uncolored = _
    rw [Record.value]
    cases r.properties.get? property <;> rfl
  have hget : (r'.properties.get? property).map Value.uncolored =
      (r.properties.get? property).map Value.uncolored := by
    refine Option.ext fun v => ?_
    rw [← mem_seenOf hproperty, ← mem_seenOf hproperty]
    exact h.mem_iff
  rw [hvalue, hvalue, hget]

theorem narrow_map {φ : α → β} {fs : List Filter}
    (h : ∀ f ∈ fs, ∀ rows : List α, (∀ row ∈ rows, f.Alike row (φ row)) →
      f.select mode (rows.map φ) = (f.select mode rows).map φ)
    {rows : List α} (hrows : ∀ row ∈ rows, ∀ f ∈ fs, f.Alike row (φ row)) :
    narrow mode fs (rows.map φ) = (narrow mode fs rows).map φ := by
  induction fs generalizing rows with
  | nil => rw [narrow, narrow]
  | cons f fs ih =>
    rw [List.forall_mem_cons] at h
    rw [narrow, narrow, h.1 rows fun row hrow => hrows row hrow f List.mem_cons_self]
    -- The next filter sees fewer rows, which are still alike.
    refine ih h.2 ?_
    intro row hrow g hg
    exact hrows row (mem_and_satisfies_of_mem_select hrow).1 g (List.mem_cons_of_mem _ hg)

theorem branches_map {φ : α → β} {fs : List Filter} {rows : List α}
    (h : ∀ f ∈ fs, f.select mode (rows.map φ) = (f.select mode rows).map φ) :
    branches mode fs (rows.map φ) = (branches mode fs rows).map φ := by
  induction fs with
  | nil => rw [branches, branches, List.map_nil]
  | cons f fs ih =>
    rw [List.forall_mem_cons] at h
    rw [branches, branches, h.1, ih h.2, List.map_append]

/-- A selection from rows that are replaced by rows that are alike takes the
    replacements of what it would have taken. -/
theorem select_map {φ : α → β} {f : Filter} {rows : List α}
    (h : ∀ row ∈ rows, f.Alike row (φ row)) :
    f.select mode (rows.map φ) = (f.select mode rows).map φ := by
  induction f generalizing rows with
  | condition c =>
    have hproperty : c.property ∈ (condition c).properties := by
      rw [properties, conditions]
      exact List.mem_cons_self
    rw [select_condition, select_condition, Condition.select, Condition.select, List.filter_map]
    congr 1
    refine List.filter_congr ?_
    intro row hrow
    rw [Function.comp_apply, ← c.holds_uncolored, (h row hrow).value _ hproperty,
      c.holds_uncolored]
  | group connective fs ih =>
    cases connective with
    | and =>
      rw [select_and, select_and]
      exact narrow_map (fun f hf _ => ih f hf) fun row hrow f hf => (h row hrow).of_mem hf
    | or =>
      have hbranches : branches mode fs (rows.map φ) = (branches mode fs rows).map φ :=
        branches_map fun f hf => ih f hf fun row hrow => (h row hrow).of_mem hf
      rw [select_or, select_or, hbranches, firsts_map]
      intro row hrow
      obtain ⟨f, -, hselect⟩ := mem_branches.1 hrow
      exact (h row (mem_and_satisfies_of_mem_select hselect).1).id
    | unknown => rw [select_unknown, select_unknown, List.map_nil]

/-! ## Positions -/

/-- The positions of a list are filtered as the rows that stand there. -/
@[reducible] def positionRow (rows : List α) : Row (Fin rows.length) where
  id i := Row.id rows[i]
  value i := Row.value rows[i]

/-- The positions that a filter takes from a list, in their order. -/
def positions (mode : DateEquality) (f : Filter) (rows : List α) : List Nat :=
  let _ := positionRow rows
  (f.select mode (List.finRange rows.length)).map Fin.val

theorem nodup_positions (f : Filter) (rows : List α) : (f.positions mode rows).Nodup := by
  let _ := positionRow rows
  have hkept : (f.select mode (List.finRange rows.length)).Nodup := by
    obtain ⟨l, hperm, hsublist⟩ := subperm_select f (List.finRange rows.length)
    exact hperm.nodup_iff.1 ((List.nodup_finRange _).sublist hsublist)
  exact hkept.map Fin.val_injective

/-- What a filter keeps of rows that are alike stands at the positions that it
    takes. -/
theorem map_positions {f : Filter} {rows : List α} {others : List β}
    (h : List.Forall₂ f.Alike rows others) :
    (f.positions mode rows).map (fun i => others[i]?) = (f.select mode others).map some := by
  let _ := positionRow rows
  have hlength : rows.length = others.length := h.length_eq
  let rowAt (i : Fin rows.length) : β := others[i]
  have hothers : others = (List.finRange rows.length).map rowAt :=
    List.ext_getElem (by simpa using hlength.symm) (by simp [rowAt])
  have halike (i : Fin rows.length) : f.Alike i (rowAt i) := by
    obtain ⟨hid, hvalue⟩ := h.get i.isLt (by omega)
    exact ⟨hid, hvalue⟩
  have hselect : f.select mode others =
      (f.select mode (List.finRange rows.length)).map rowAt := by
    rw [← select_map fun i _ => halike i, ← hothers]
  rw [hselect, positions, List.map_map, List.map_map]
  exact List.map_congr_left fun i _ => List.getElem?_eq_getElem (by omega)

/-- From two lists of rows that are alike, position by position, a filter takes
    the same positions in the same order, each of them at most once. -/
theorem exists_positions_select (mode : DateEquality) (f : Filter) {rows : List α}
    {others : List β} (h : List.Forall₂ f.Alike rows others) :
    ∃ positions : List Nat, positions.Nodup ∧
      positions.map (fun i => rows[i]?) = (f.select mode rows).map some ∧
      positions.map (fun i => others[i]?) = (f.select mode others).map some := by
  have hself : List.Forall₂ f.Alike rows rows :=
    List.forall₂_same.2 fun _ _ => ⟨rfl, fun _ _ => rfl⟩
  exact ⟨f.positions mode rows, nodup_positions f rows, map_positions hself, map_positions h⟩

/-- Notes in two versions, of which both have the identity of the first note. -/
def notes : List Record :=
  [.set "state" (.option ⟨"open", .red⟩) (.set "title" (.text "rent") (.new "a")),
    .set "tags" (.optionList [⟨"home", .blue⟩]) (.set "state" (.option ⟨"late", .gray⟩) (.new "b")),
    .set "tags" (.optionList [⟨"home", .green⟩]) (.new "a")]

/-- The same notes in other colors, with columns in another order, and with and
    without columns that they have here and there. -/
def recolored : List Record :=
  [.set "state" (.option (.plain "open")) (.set "owner" (.text "ann") (.new "a")),
    .set "state" (.option ⟨"late", .pink⟩) (.set "tags" (.optionList [.plain "home"]) (.new "b")),
    .set "title" (.text "repair") (.set "tags" (.optionList [⟨"home", .red⟩]) (.new "a"))]

/-- Notes about the home, and then those that are open. -/
def homeOrOpen : Filter :=
  group .or [condition ⟨"tags", .contains, some (.text "home")⟩,
    condition ⟨"state", .equals, some (.text "open")⟩]

theorem exists_positions_select_notes : List.Forall₂ homeOrOpen.Alike notes recolored ∧
    ∃ positions : List Nat, positions.Nodup ∧
      positions.map (fun i => notes[i]?) = (homeOrOpen.select .identity notes).map some ∧
      positions.map (fun i => recolored[i]?) =
        (homeOrOpen.select .identity recolored).map some := by
  have h : List.Forall₂ homeOrOpen.Alike notes recolored :=
    .cons (alike_of_perm rfl (by decide)) (.cons (alike_of_perm rfl (by decide))
      (.cons (alike_of_perm rfl (by decide)) .nil))
  exact ⟨h, exists_positions_select .identity homeOrOpen h⟩

-- The second version of the first note comes first in its stead.
example : homeOrOpen.positions .identity notes = [1, 2] := by decide

end Filter

end Sift
