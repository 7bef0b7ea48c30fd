import Mathlib.Data.List.Perm.Basic
import Sift.Proofs.Selection.Meaning

/-!
# Comparators and their negations

Three comparators come with a negative one, which has a test of its own and its
own answers to operands that are missing or of a wrong kind. It keeps what the
affirmative one leaves all the same, so that the two split any rows between them.
Lists of names are the exception: a list of tags may have some of the names but
not all, and if there are no names at all, both keep everything.

* `Splits`: lists that split a list, and `splits_filter`: that tests of which
  each element passes exactly one do so;
* `Comparator.Negates`: the negative comparators;
* `Condition.holds_of_negates`: a negative comparator answers the opposite;
* `Filter.splits_select_of_negates`: what that is for selections.
-/

namespace Sift

/-! ## Splitting lists -/

section

variable {α : Type}

/-- Lists that split a list: each element goes into them as often as it occurs,
    in the same order, and into one of them only. -/
structure Splits (rows : List α) (parts : List (List α)) : Prop where
  perm : parts.flatten.Perm rows
  sublist : ∀ part ∈ parts, part.Sublist rows
  disjoint : parts.Pairwise List.Disjoint

theorem count_flatten_filter [DecidableEq α] (tests : List (α → Bool)) (rows : List α) (row : α) :
    (tests.map fun test => rows.filter test).flatten.count row =
      (tests.countP fun test => test row) * rows.count row := by
  induction tests with
  | nil => rw [List.map_nil, List.flatten_nil, List.count_nil, List.countP_nil, Nat.zero_mul]
  | cons test tests ih =>
    rw [List.map_cons, List.flatten_cons, List.count_append, ih]
    by_cases h : test row
    · rw [List.count_filter h, List.countP_cons, if_pos h, Nat.succ_mul, Nat.add_comm]
    · have hnot : row ∉ rows.filter test := fun hrow => h (List.mem_filter.1 hrow).2
      rw [List.count_eq_zero_of_not_mem hnot, List.countP_cons, if_neg h, Nat.zero_add,
        Nat.add_zero]

/-- Tests of which each element passes exactly one split a list. -/
theorem splits_filter {tests : List (α → Bool)} {rows : List α}
    (h : ∀ row ∈ rows, (tests.countP fun test => test row) = 1) :
    Splits rows (tests.map fun test => rows.filter test) where
  perm := by
    classical
    refine List.perm_iff_count.2 fun row => ?_
    rw [count_flatten_filter]
    by_cases hrow : row ∈ rows
    · rw [h row hrow, Nat.one_mul]
    · rw [List.count_eq_zero_of_not_mem hrow, Nat.mul_zero]
  sublist := by
    intro part hpart
    obtain ⟨test, -, rfl⟩ := List.mem_map.1 hpart
    exact List.filter_sublist
  disjoint := by
    refine List.pairwise_map.2 (List.pairwise_of_forall_sublist fun {s t} hst row hs ht => ?_)
    -- An element of both parts would pass two tests.
    obtain ⟨hrow, hs⟩ := List.mem_filter.1 hs
    have hle : ([s, t].countP fun test => test row) ≤ 1 := h row hrow ▸ hst.countP_le
    rw [List.countP_cons, List.countP_singleton, if_pos hs, if_pos (List.mem_filter.1 ht).2] at hle
    exact absurd hle (by decide)

/-- A test and its negation split a list. -/
theorem splits_of_not {p q : α → Bool} {rows : List α} (h : ∀ row ∈ rows, q row = !p row) :
    Splits rows [rows.filter p, rows.filter q] := by
  have hone : ∀ row ∈ rows, ([p, q].countP fun test => test row) = 1 := fun row hrow => by
    rw [List.countP_cons, List.countP_singleton, h row hrow]
    cases p row <;> rfl
  exact splits_filter hone

end

/-! ## Negative comparators -/

/-- The negative comparators, with what they negate. -/
inductive Comparator.Negates : Comparator → Comparator → Prop
  | notEquals : Negates .notEquals .equals
  | notContains : Negates .notContains .contains
  | isNotEmpty : Negates .isNotEmpty .isEmpty

namespace Value

/-- A list of tags that has all of some names has one of them. -/
theorem containsAny_of_containsAll {v : Value} {names : List String} (hnames : names ≠ [])
    (h : v.containsAll names) : v.containsAny names := by
  obtain ⟨ts, rfl, hall⟩ := ((containsAll_iff v names).1 h).resolve_left hnames
  obtain ⟨name, hname⟩ := List.exists_mem_of_ne_nil names hnames
  exact (containsAny_iff _ names).2 ⟨ts, rfl, name, hname, hall name hname⟩

theorem containsAll_nil (v : Value) : v.containsAll [] := (containsAll_iff v []).2 (.inl rfl)

theorem containsAny_nil (v : Value) : v.containsAny [] = false := by
  rw [Bool.eq_false_iff, Ne, containsAny_iff]
  rintro ⟨_, _, _, hname, _⟩
  exact absurd hname List.not_mem_nil

end Value

namespace Condition

variable {mode : DateEquality}

/-- A negative comparator answers the opposite of what it negates, whatever the
    operand is, unless it looks for a list of names. -/
theorem holds_of_negates {negative comparator : Comparator} (h : negative.Negates comparator)
    (property : String) {operand : Option Operand}
    (hoperand : comparator = .contains → ∀ names, operand ≠ some (.list names)) (v : Value) :
    holds mode ⟨property, negative, operand⟩ v = !holds mode ⟨property, comparator, operand⟩ v := by
  cases h with
  | notEquals => cases operand <;> rfl
  | notContains =>
    match operand with
    | some (.list names) => exact absurd rfl (hoperand rfl names)
    | none | some (.text _) | some (.boolean _) | some (.number _) | some (.date _) => rfl
  | isNotEmpty => exact v.isNotEmpty_eq

/-- No value has all of some names and none of them. -/
theorem holds_notContains_eq_false (property : String) {names : List String} (hnames : names ≠ [])
    {v : Value} (h : holds mode ⟨property, .contains, some (.list names)⟩ v) :
    holds mode ⟨property, .notContains, some (.list names)⟩ v = false :=
  congrArg (!·) (Value.containsAny_of_containsAll hnames h)

end Condition

/-! ## Selections -/

namespace Filter

variable {α : Type} [Row α]

/-- A comparator and its negation split all rows between them, for any operand
    but a list of names to look for. For such a list they share no row if it
    has a name in it, and both keep all rows if it has none. -/
theorem splits_select_of_negates (mode : DateEquality) (property : String) (rows : List α) :
    (∀ (comparator negative : Comparator) (operand : Option Operand),
      negative.Negates comparator →
      (comparator = .contains → ∀ names, operand ≠ some (.list names)) →
        Splits rows [(condition ⟨property, comparator, operand⟩).select mode rows,
          (condition ⟨property, negative, operand⟩).select mode rows]) ∧
    (∀ names, names ≠ [] →
      List.Disjoint ((condition ⟨property, .contains, some (.list names)⟩).select mode rows)
        ((condition ⟨property, .notContains, some (.list names)⟩).select mode rows)) ∧
    (condition ⟨property, .contains, some (.list [])⟩).select mode rows = rows ∧
    (condition ⟨property, .notContains, some (.list [])⟩).select mode rows = rows := by
  simp only [select_condition, Condition.select]
  refine ⟨?negations, ?names, ?all, ?none⟩
  case negations =>
    intro comparator negative operand hnegates hoperand
    exact splits_of_not fun row _ => Condition.holds_of_negates hnegates property hoperand _
  case names =>
    intro names hnames row hall hnone
    have hfalse := Condition.holds_notContains_eq_false property hnames (List.mem_filter.1 hall).2
    exact Bool.false_ne_true (hfalse.symm.trans (List.mem_filter.1 hnone).2)
  case all => exact List.filter_eq_self.2 fun row _ => (Row.value row property).containsAll_nil
  case none =>
    refine List.filter_eq_self.2 fun row _ => ?_
    exact congrArg (!·) (Row.value row property).containsAny_nil

/-- Chores, one of them in three versions, with tags, with a text in place of
    the tags, and with neither. -/
def chores : List Record :=
  [.set "tags" (.optionList [.plain "home", .plain "late"]) (.new "a"),
    .set "tags" (.optionList [.plain "home"]) (.new "a"), .set "tags" (.text "at home") (.new "b"),
    .set "tags" (.optionList [.plain "home"]) (.new "a"), .new "c"]

theorem splits_select_chores :
    Comparator.Negates .notContains .contains ∧
      (∀ names, some (Operand.text "home") ≠ some (.list names)) ∧
      Splits chores [(condition ⟨"tags", .contains, some (.text "home")⟩).select .identity chores,
        (condition ⟨"tags", .notContains, some (.text "home")⟩).select .identity chores] ∧
      ["late", "home"] ≠ [] ∧
      List.Disjoint
        ((condition ⟨"tags", .contains, some (.list ["late", "home"])⟩).select .identity chores)
        ((condition ⟨"tags", .notContains, some (.list ["late", "home"])⟩).select .identity
          chores) := by
  have hlist (names : List String) : some (Operand.text "home") ≠ some (.list names) := by simp
  have hnames : ["late", "home"] ≠ [] := List.cons_ne_nil _ _
  obtain ⟨hnegations, hdisjoint, _⟩ := splits_select_of_negates .identity "tags" chores
  exact ⟨.notContains, hlist, hnegations _ _ _ .notContains fun _ => hlist, hnames,
    hdisjoint _ hnames⟩

-- The versions with one of two names are in neither part.
example : ((condition ⟨"tags", .contains, some (.list ["late", "home"])⟩).select .identity
      chores).length = 1 ∧
    ((condition ⟨"tags", .notContains, some (.list ["late", "home"])⟩).select .identity
      chores).length = 2 := by decide

end Filter

end Sift
