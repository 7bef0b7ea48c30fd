import Mathlib.Data.List.Infix
import Sift.Filter.Selection

/-!
# The meaning of filters

What it means for a row to satisfy a filter, looking at this row alone.

* `Value.Equals`, `Value.Contains`, `Value.Empty`: the relations behind the
  comparators, only between kinds that fit together;
* `Condition.Meets`: when a value meets a condition, whatever its operand is;
* `Filter.Satisfies`: when a row satisfies a filter;
* `Condition.holds_iff`: the test of a condition decides its meaning.
-/

namespace Sift

variable {α : Type} [Row α] {mode : DateEquality}

/-! ## Values -/

namespace Value

/-- The equality of a value and an operand. Only dates depend on the mode, and
    only they are compared with whatever names a date. -/
inductive Equals (mode : DateEquality) : Value → Operand → Prop
  | text (s : String) : Equals mode (.text s) (.text s)
  | boolean (b : Bool) : Equals mode (.boolean b) (.boolean b)
  | number {a b : Double} : a.equals b → Equals mode (.number a) (.number b)
  | option (t : Tag) : Equals mode (.option t) (.text t.name)
  | date {i j : Instant} {x : Operand} : mode = .instant → x.asDate? = some j →
    i.milliseconds = j.milliseconds → Equals mode (.date i) x

/-- A text contains the texts inside it, and a list of tags their names. -/
inductive Contains : Value → String → Prop
  | text {s needle : String} : needle.toList <:+: s.toList → Contains (.text s) needle
  | optionList {ts : List Tag} {t : Tag} : t ∈ ts → Contains (.optionList ts) t.name

/-- The values that hold nothing. -/
inductive Empty : Value → Prop
  | null : Empty .null
  | text : Empty (.text "")
  | optionList : Empty (.optionList [])

/-- A number in a relation to the number that the operand is. -/
def NumberIs (r : Double → Double → Bool) (v : Value) (operand : Option Operand) : Prop :=
  ∃ a b, v = .number a ∧ operand = some (.number b) ∧ r a b

/-- A date whose milliseconds are in a relation to those of the date that the
    operand is or names. -/
def DateIs (r : Int → Int → Prop) (v : Value) (operand : Option Operand) : Prop :=
  ∃ i j, v = .date i ∧ operand.bind Operand.asDate? = some j ∧ r i.milliseconds j.milliseconds

end Value

/-- When a value meets a condition. An operand that is missing or of a wrong
    kind fails an affirmative comparator and passes a negative one, and an empty
    list of names passes both. -/
def Condition.Meets (mode : DateEquality) (c : Condition) (v : Value) : Prop :=
  match c.comparator with
  | .equals => ∃ x, c.operand = some x ∧ v.Equals mode x
  | .notEquals => ∀ x, c.operand = some x → ¬v.Equals mode x
  | .contains =>
    (∃ s, c.operand = some (.text s) ∧ v.Contains s) ∨
      ∃ names, c.operand = some (.list names) ∧
        (names = [] ∨ ∃ ts, v = .optionList ts ∧ ∀ name ∈ names, v.Contains name)
  | .notContains =>
    (∀ s, c.operand = some (.text s) → ¬v.Contains s) ∧
      ∀ names ts, c.operand = some (.list names) → v = .optionList ts →
        ∀ name ∈ names, ¬v.Contains name
  | .isEmpty => v.Empty
  | .isNotEmpty => ¬v.Empty
  | .greaterThan => v.NumberIs (fun a b => b.less a) c.operand
  | .lessThan => v.NumberIs (fun a b => a.less b) c.operand
  | .greaterThanOrEqualTo => v.NumberIs (fun a b => b.lessOrEqual a) c.operand
  | .lessThanOrEqualTo => v.NumberIs (fun a b => a.lessOrEqual b) c.operand
  | .before => v.DateIs (· < ·) c.operand
  | .after => v.DateIs (· > ·) c.operand
  | .onOrBefore => v.DateIs (· ≤ ·) c.operand
  | .onOrAfter => v.DateIs (· ≥ ·) c.operand
  | .unknown => True

/-- When a row satisfies a filter. Nothing satisfies a group whose connective
    is unknown. -/
inductive Filter.Satisfies (mode : DateEquality) (row : α) : Filter → Prop
  | condition {c : Condition} : c.Meets mode (Row.value row c.property) →
    Satisfies mode row (.condition c)
  | and {fs : List Filter} : (∀ f ∈ fs, Satisfies mode row f) → Satisfies mode row (.group .and fs)
  | or {fs : List Filter} {f : Filter} : f ∈ fs → Satisfies mode row f →
    Satisfies mode row (.group .or fs)

/-! ## Tests -/

theorem occursIn_iff (needle s : List Char) : occursIn needle s ↔ needle <:+: s := by
  induction s with
  | nil => rw [occursIn, List.isEmpty_iff, List.infix_nil]
  | cons c s ih =>
    rw [occursIn, Bool.or_eq_true, List.isPrefixOf_iff_prefix, ih, List.infix_cons_iff]

namespace Value

theorem equals_iff (v : Value) (x : Operand) : v.equals mode x ↔ v.Equals mode x := by
  constructor
  · intro h
    unfold equals at h
    split at h
    · exact of_decide_eq_true h ▸ .option _
    · exact of_decide_eq_true h ▸ .text _
    · exact of_decide_eq_true h ▸ .boolean _
    · exact .number h
    · cases mode with
      | identity => exact absurd h Bool.false_ne_true
      | instant =>
        obtain ⟨j, hj, hm⟩ := (Option.any_eq_true _ _).1 h
        exact .date rfl hj (of_decide_eq_true hm)
    · exact absurd h Bool.false_ne_true
  · intro h
    cases h with
    | text s => exact decide_eq_true rfl
    | boolean b => exact decide_eq_true rfl
    | number h => exact h
    | option t => exact decide_eq_true rfl
    | date hm hx hj =>
      subst hm
      simp only [equals, hx, Option.any_some, decide_eq_true_eq]
      exact hj

theorem contains_iff (v : Value) (needle : String) : v.contains needle ↔ v.Contains needle := by
  constructor
  · intro h
    unfold contains at h
    split at h
    · exact .text ((occursIn_iff _ _).1 h)
    · obtain ⟨t, ht, hname⟩ := List.any_eq_true.1 h
      exact of_decide_eq_true hname ▸ .optionList ht
    · exact absurd h Bool.false_ne_true
  · intro h
    cases h with
    | text h => exact (occursIn_iff _ _).2 h
    | optionList ht => exact List.any_eq_true.2 ⟨_, ht, decide_eq_true rfl⟩

theorem containsAll_iff (v : Value) (names : List String) : v.containsAll names ↔
    names = [] ∨ ∃ ts, v = .optionList ts ∧ ∀ name ∈ names, v.Contains name := by
  cases v with
  | optionList ts =>
    -- Nothing to find among the tags is the first case, too.
    have h : (optionList ts).containsAll names ↔ ∀ name ∈ names, (optionList ts).Contains name := by
      simp only [← contains_iff]
      exact List.all_eq_true
    rw [h]
    constructor
    · exact fun h => .inr ⟨ts, rfl, h⟩
    · rintro (rfl | ⟨_, _, h⟩)
      · exact fun _ hname => absurd hname List.not_mem_nil
      · exact h
  | _ => simp [containsAll]

theorem containsAny_iff (v : Value) (names : List String) : v.containsAny names ↔
    ∃ ts, v = .optionList ts ∧ ∃ name ∈ names, v.Contains name := by
  cases v with
  | optionList ts =>
    constructor
    · intro h
      obtain ⟨t, ht, hname⟩ := List.any_eq_true.1 h
      exact ⟨ts, rfl, t.name, List.contains_iff_mem.1 hname, .optionList ht⟩
    · rintro ⟨_, _, name, hname, ht⟩
      cases ht with
      | optionList ht => exact List.any_eq_true.2 ⟨_, ht, List.contains_iff_mem.2 hname⟩
  | _ => simp [containsAny]

theorem isEmpty_iff (v : Value) : v.isEmpty ↔ v.Empty := by
  constructor
  · intro h
    cases v with
    | null => exact .null
    | text s => exact String.isEmpty_iff.1 h ▸ .text
    | optionList ts => exact List.isEmpty_iff.1 h ▸ .optionList
    | _ => exact absurd h Bool.false_ne_true
  · rintro (_ | _ | _) <;> rfl

/-- The two tests for emptiness are each other's negation. -/
theorem isNotEmpty_eq (v : Value) : v.isNotEmpty = !v.isEmpty := by cases v <;> rfl

end Value

namespace Condition

theorem withNumber_iff (r : Double → Double → Bool) (v : Value) (operand : Option Operand) :
    withNumber operand (fun bound => v.isNumber fun d => r d bound) ↔ v.NumberIs r operand := by
  constructor
  · intro h
    obtain ⟨b, hb, hr⟩ := (Option.any_eq_true _ _).1 h
    obtain ⟨x, rfl, hx⟩ := Option.bind_eq_some_iff.1 hb
    cases x with
    | number d =>
      cases v with
      | number a => exact ⟨a, b, rfl, congrArg _ (congrArg _ (Option.some.inj hx)), hr⟩
      | _ => exact absurd hr Bool.false_ne_true
    | _ => exact absurd hx (by simp [Operand.asNumber?])
  · rintro ⟨a, b, rfl, rfl, h⟩
    exact h

theorem withDate_iff (r : Int → Int → Prop) [DecidableRel r] (v : Value)
    (operand : Option Operand) :
    withDate operand (fun bound => v.isDate fun t => r t bound.milliseconds) ↔
      v.DateIs r operand := by
  constructor
  · intro h
    obtain ⟨j, hj, h⟩ := (Option.any_eq_true _ _).1 h
    cases v with
    | date i => exact ⟨i, j, rfl, hj, of_decide_eq_true h⟩
    | _ => exact absurd h Bool.false_ne_true
  · rintro ⟨i, j, rfl, hj, h⟩
    rw [withDate, hj]
    exact decide_eq_true h

/-- The test of a condition decides its meaning. -/
theorem holds_iff (c : Condition) (v : Value) : c.holds mode v ↔ c.Meets mode v := by
  obtain ⟨property, comparator, operand⟩ := c
  cases comparator with
  | equals => simp only [holds, Meets, Option.any_eq_true, Value.equals_iff]
  | notEquals => simp only [holds, Meets, Option.all_eq_true, Bool.not_eq_true', ←
      Bool.not_eq_true, Value.equals_iff]
  | contains =>
    match operand with
    | some (.text s) => simp [holds, Meets, Value.contains_iff]
    | some (.list names) => simp [holds, Meets, Value.containsAll_iff]
    | none | some (.boolean _) | some (.number _) | some (.date _) => simp [holds, Meets]
  | notContains =>
    match operand with
    | some (.text s) => simp [holds, Meets, ← Bool.not_eq_true, Value.contains_iff]
    | some (.list names) =>
      simp only [holds, Meets, Bool.not_eq_true', ← Bool.not_eq_true, Value.containsAny_iff]
      constructor
      · intro h
        refine ⟨fun _ e => absurd e (by simp), fun _ ts e hv name hname hcontains => ?_⟩
        cases e
        exact h ⟨ts, hv, name, hname, hcontains⟩
      · rintro ⟨_, h⟩ ⟨ts, hv, name, hname, hcontains⟩
        exact h names ts rfl hv name hname hcontains
    | none | some (.boolean _) | some (.number _) | some (.date _) => simp [holds, Meets]
  | isEmpty => exact v.isEmpty_iff
  | isNotEmpty => simp only [holds, Meets, Value.isNotEmpty_eq, Bool.not_eq_true',
      ← Bool.not_eq_true, Value.isEmpty_iff]
  | greaterThan => exact withNumber_iff (fun a b => b.less a) v operand
  | lessThan => exact withNumber_iff (fun a b => a.less b) v operand
  | greaterThanOrEqualTo => exact withNumber_iff (fun a b => b.lessOrEqual a) v operand
  | lessThanOrEqualTo => exact withNumber_iff (fun a b => a.lessOrEqual b) v operand
  | before => exact withDate_iff (· < ·) v operand
  | after => exact withDate_iff (· > ·) v operand
  | onOrBefore => exact withDate_iff (· ≤ ·) v operand
  | onOrAfter => exact withDate_iff (· ≥ ·) v operand
  | unknown => exact iff_of_true rfl trivial

end Condition

end Sift
