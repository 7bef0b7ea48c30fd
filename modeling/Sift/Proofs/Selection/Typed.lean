import Sift.Proofs.Selection.Checked

/-!
# Typed filters

A selection answers every filter, also one that makes no sense: a comparator
without an operand that it can use, an unknown comparator and an unknown
connective have fixed answers of their own. A checked filter is typed, and a
typed filter has no use for these answers.

* `Condition.OfType`, `Filter.WellTyped`: conditions on a property of a type, and
  filters of such conditions;
* `Condition.ofType_of_check`, `Condition.check_of_ofType`: a check types a
  condition and leaves a typed one as it is;
* `Filter.strictSelect?`: a selection without fixed answers, which has no result
  where one would be needed, and `Filter.select_of_strictSelect?`: that its
  results are those of a selection;
* `Filter.wellTyped_of_check`: what a check makes of a filter.
-/

namespace Sift

variable {α : Type} [Row α] {mode : DateEquality} {schema : Schema}

/-! ## Types -/

/-- The operands for properties of a type. -/
inductive Operand.Suits : Operand → PropertyType → Prop
  | boolean (b : Bool) : Suits (.boolean b) .boolean
  | number (d : Double) : Suits (.number d) .number
  | text (s : String) : Suits (.text s) .text
  | option (name : String) : Suits (.text name) .option
  | name (name : String) : Suits (.text name) .optionList
  | names (names : List String) : Suits (.list names) .optionList
  | date (i : Instant) : Suits (.date i) .date

/-- A condition on a property of the type `t`: with a comparator for this type,
    and with an operand for it unless the comparator takes none. -/
structure Condition.OfType (schema : Schema) (t : PropertyType) (c : Condition) : Prop where
  declared : schema.get? c.property = some t
  known : c.comparator ≠ .unknown
  offered : c.comparator ∈ t.comparators
  isSome_operand : c.operand.isSome ↔ ¬c.comparator.isUnary
  suits : ∀ x, c.operand = some x → x.Suits t

/-- The filters whose connectives are known and whose conditions have types. -/
inductive Filter.WellTyped (schema : Schema) : Filter → Prop
  | condition {c : Condition} {t : PropertyType} : c.OfType schema t →
    WellTyped schema (.condition c)
  | group {connective : Connective} {fs : List Filter} : connective ≠ .unknown →
    (∀ f ∈ fs, WellTyped schema f) → WellTyped schema (.group connective fs)

/-- The condition without its operand. -/
def Condition.bare (c : Condition) : Condition := { c with operand := none }

namespace Filter

mutual

/-- The filter without its operands: its shape with its connectives, properties
    and comparators. -/
def bare : Filter → Filter
  | condition c => condition c.bare
  | group connective fs => group connective (bareIn fs)
termination_by structural f => f

/-- The filters of a group without their operands. -/
def bareIn : List Filter → List Filter
  | [] => []
  | f :: fs => f.bare :: bareIn fs
termination_by structural fs => fs

end

end Filter

/-! ## Checked conditions -/

theorem Operand.suits_of_resolve {property : String} {t : PropertyType} {x y : Operand}
    (h : x.resolve property t = .ok y) : y.Suits t := by
  unfold resolve at h
  split at h
  · exact Except.ok.inj h ▸ .boolean _
  · exact Except.ok.inj h ▸ .number _
  · exact Except.ok.inj h ▸ .text _
  · exact Except.ok.inj h ▸ .option _
  · exact Except.ok.inj h ▸ .name _
  · exact Except.ok.inj h ▸ .names _
  · exact Except.ok.inj h ▸ .date _
  · split at h
    · exact Except.ok.inj h ▸ .date _
    · exact absurd h (by simp)
  · exact absurd h (by simp)

theorem Operand.resolve_of_suits {t : PropertyType} {x : Operand} (h : x.Suits t)
    (property : String) : x.resolve property t = .ok x := by cases h <;> rfl

namespace Condition

/-- A check types a condition, and changes nothing but its operand. -/
theorem ofType_of_check {c d : Condition} (h : c.check schema = .ok d) :
    d.bare = c.bare ∧ ∃ t, d.OfType schema t := by
  obtain ⟨property, comparator, operand⟩ := c
  unfold check at h
  split at h
  · exact absurd h (by simp)
  rename_i hknown
  split at h
  · exact absurd h (by simp)
  rename_i t ht
  split at h
  · exact absurd h (by simp)
  rename_i hallows
  have hoffered : comparator ∈ t.comparators := by
    simpa [PropertyType.allows] using hallows
  split at h
  · rename_i hunary
    cases h
    exact ⟨rfl, t, ht, hknown, hoffered, by simpa using hunary, fun _ hx => absurd hx (by simp)⟩
  rename_i hbinary
  split at h
  · exact absurd h (by simp)
  obtain ⟨y, hy, rfl⟩ := Except.map_eq_ok.1 h
  refine ⟨rfl, t, ht, hknown, hoffered, by simpa using hbinary, ?_⟩
  intro x hx
  cases hx
  exact Operand.suits_of_resolve hy

/-- A check leaves a condition with a type as it is. -/
theorem check_of_ofType {c : Condition} {t : PropertyType} (h : c.OfType schema t) :
    c.check schema = .ok c := by
  obtain ⟨property, comparator, operand⟩ := c
  obtain ⟨ht, hknown, hoffered, hsome, hsuits⟩ := h
  have hallows : t.allows comparator := List.contains_iff_mem.2 hoffered
  rw [check, if_neg hknown, ht]
  simp only [hallows, Bool.not_true, Bool.false_eq_true, if_false]
  cases operand with
  | none =>
    have hunary : comparator.isUnary := by simpa using hsome
    rw [if_pos hunary]
  | some x =>
    have hbinary : ¬comparator.isUnary := hsome.1 rfl
    rw [if_neg hbinary]
    dsimp only
    rw [Operand.resolve_of_suits (hsuits x rfl)]
    rfl

/-! ## Strict selections -/

/-- The test that the comparator of a condition makes, if there is an operand
    that it can use. -/
def strictTest? (mode : DateEquality) (c : Condition) : Option (Value → Bool) :=
  match c.comparator with
  | .equals => c.operand.map fun x v => v.equals mode x
  | .notEquals => c.operand.map fun x v => !v.equals mode x
  | .contains =>
    match c.operand with
    | some (.text s) => some fun v => v.contains s
    | some (.list names) => some fun v => v.containsAll names
    | _ => none
  | .notContains =>
    match c.operand with
    | some (.text s) => some fun v => !v.contains s
    | some (.list names) => some fun v => !v.containsAny names
    | _ => none
  | .isEmpty => some Value.isEmpty
  | .isNotEmpty => some Value.isNotEmpty
  | .greaterThan => (c.operand.bind Operand.asNumber?).map fun bound v => v.greaterThan bound
  | .lessThan => (c.operand.bind Operand.asNumber?).map fun bound v => v.lessThan bound
  | .greaterThanOrEqualTo =>
    (c.operand.bind Operand.asNumber?).map fun bound v => v.greaterThanOrEqualTo bound
  | .lessThanOrEqualTo =>
    (c.operand.bind Operand.asNumber?).map fun bound v => v.lessThanOrEqualTo bound
  | .before => (c.operand.bind Operand.asDate?).map fun bound v => v.before bound
  | .after => (c.operand.bind Operand.asDate?).map fun bound v => v.after bound
  | .onOrBefore => (c.operand.bind Operand.asDate?).map fun bound v => v.onOrBefore bound
  | .onOrAfter => (c.operand.bind Operand.asDate?).map fun bound v => v.onOrAfter bound
  | .unknown => none

theorem withNumber_of_bind {operand : Option Operand} {bound : Double}
    (h : operand.bind Operand.asNumber? = some bound) (test : Double → Bool) :
    withNumber operand test = test bound := by rw [withNumber, h, Option.any_some]

theorem withDate_of_bind {operand : Option Operand} {bound : Instant}
    (h : operand.bind Operand.asDate? = some bound) (test : Instant → Bool) :
    withDate operand test = test bound := by rw [withDate, h, Option.any_some]

/-- Where the comparator makes a test, the condition is this test. -/
theorem holds_of_strictTest? {c : Condition} {test : Value → Bool}
    (h : c.strictTest? mode = some test) (v : Value) : c.holds mode v = test v := by
  obtain ⟨property, comparator, operand⟩ := c
  cases comparator with
  | isEmpty | isNotEmpty =>
    cases h
    rfl
  | unknown => exact absurd h (by simp [strictTest?])
  | equals | notEquals =>
    obtain ⟨x, rfl, rfl⟩ := Option.map_eq_some_iff.1 h
    rfl
  | contains | notContains =>
    unfold strictTest? at h
    dsimp only at h
    split at h
    · cases h
      rfl
    · cases h
      rfl
    · exact absurd h (by simp)
  | greaterThan | lessThan | greaterThanOrEqualTo | lessThanOrEqualTo =>
    obtain ⟨bound, hbound, rfl⟩ := Option.map_eq_some_iff.1 h
    exact withNumber_of_bind hbound _
  | before | after | onOrBefore | onOrAfter =>
    obtain ⟨bound, hbound, rfl⟩ := Option.map_eq_some_iff.1 h
    exact withDate_of_bind hbound _

/-- The comparator of a typed condition makes a test. -/
theorem isSome_strictTest? {c : Condition} {t : PropertyType} (h : c.OfType schema t)
    (mode : DateEquality) : (c.strictTest? mode).isSome := by
  obtain ⟨property, comparator, operand⟩ := c
  obtain ⟨-, hknown, hoffered, hsome, hsuits⟩ := h
  cases operand with
  | none =>
    have hunary : comparator.isUnary := by simpa using hsome
    rw [Comparator.isUnary, Bool.or_eq_true, decide_eq_true_eq, decide_eq_true_eq] at hunary
    rcases hunary with rfl | rfl <;> rfl
  | some x =>
    -- Each type has operands of few kinds, and few comparators that take them.
    have hx := hsuits x rfl
    dsimp only at hoffered
    cases hx <;>
      simp only [PropertyType.comparators, List.mem_cons, List.not_mem_nil, or_false] at hoffered
    all_goals
      rcases hoffered with rfl | rfl | rfl | rfl | rfl | rfl | rfl | rfl <;> rfl

end Condition

namespace Filter

mutual

/-- The rows that a filter keeps, if every condition that comes to a test makes
    one and every connective that rows come to is known. -/
def strictSelect? (mode : DateEquality) (f : Filter) (rows : List α) : Option (List α) :=
  if rows.isEmpty then some []
  else match f with
    | condition c =>
      (c.strictTest? mode).map fun test => rows.filter fun row => test (Row.value row c.property)
    | group .and fs => strictNarrow? mode fs rows
    | group .or fs => (strictBranches? mode fs rows).map firsts
    | group .unknown _ => .none
termination_by structural f

/-- The rows that all of the filters keep, one after the other. -/
def strictNarrow? (mode : DateEquality) : List Filter → List α → Option (List α)
  | [], rows => some rows
  | f :: fs, rows => (strictSelect? mode f rows).bind (strictNarrow? mode fs)
termination_by structural fs => fs

/-- The rows that each of the filters keeps, one filter after the other. -/
def strictBranches? (mode : DateEquality) : List Filter → List α → Option (List α)
  | [], _ => some []
  | f :: fs, rows =>
    (strictSelect? mode f rows).bind fun kept => (strictBranches? mode fs rows).map (kept ++ ·)
termination_by structural fs => fs

end

theorem narrow_of_strictNarrow? {fs : List Filter}
    (h : ∀ f ∈ fs, ∀ rows kept : List α, f.strictSelect? mode rows = some kept →
      f.select mode rows = kept)
    {rows kept : List α} (hkept : strictNarrow? mode fs rows = some kept) :
    narrow mode fs rows = kept := by
  induction fs generalizing rows with
  | nil =>
    rw [strictNarrow?] at hkept
    rw [narrow]
    exact Option.some.inj hkept
  | cons f fs ih =>
    rw [List.forall_mem_cons] at h
    rw [strictNarrow?] at hkept
    obtain ⟨between, hbetween, hkept⟩ := Option.bind_eq_some_iff.1 hkept
    rw [narrow, h.1 rows between hbetween]
    exact ih h.2 hkept

theorem branches_of_strictBranches? {fs : List Filter} {rows : List α}
    (h : ∀ f ∈ fs, ∀ kept : List α, f.strictSelect? mode rows = some kept →
      f.select mode rows = kept)
    {kept : List α} (hkept : strictBranches? mode fs rows = some kept) :
    branches mode fs rows = kept := by
  induction fs generalizing kept with
  | nil =>
    rw [strictBranches?] at hkept
    rw [branches]
    exact Option.some.inj hkept
  | cons f fs ih =>
    rw [List.forall_mem_cons] at h
    rw [strictBranches?] at hkept
    obtain ⟨first, hfirst, hkept⟩ := Option.bind_eq_some_iff.1 hkept
    obtain ⟨others, hothers, rfl⟩ := Option.map_eq_some_iff.1 hkept
    rw [branches, h.1 first hfirst, ih h.2 hothers]

/-- What is selected without fixed answers is what is selected. -/
theorem select_of_strictSelect? {f : Filter} {rows kept : List α}
    (h : f.strictSelect? mode rows = some kept) : f.select mode rows = kept := by
  induction f generalizing rows kept with
  | condition c =>
    rw [strictSelect?] at h
    rw [select]
    split at h
    · rename_i hempty
      rw [if_pos hempty]
      exact Option.some.inj h
    · rename_i hempty
      obtain ⟨test, htest, rfl⟩ := Option.map_eq_some_iff.1 h
      rw [if_neg hempty, Condition.select]
      exact List.filter_congr fun row _ => Condition.holds_of_strictTest? htest _
  | group connective fs ih =>
    rw [strictSelect?.eq_def] at h
    rw [select.eq_def]
    split at h
    · rename_i hempty
      rw [if_pos hempty]
      exact Option.some.inj h
    · rename_i hempty
      rw [if_neg hempty]
      cases connective with
      | and => exact narrow_of_strictNarrow? (fun f hf _ _ => ih f hf) h
      | or =>
        obtain ⟨all, hall, rfl⟩ := Option.map_eq_some_iff.1 h
        exact congrArg firsts (branches_of_strictBranches? (fun f hf _ => ih f hf) hall)
      | unknown => exact absurd h (by simp)

theorem isSome_strictNarrow? {fs : List Filter}
    (h : ∀ f ∈ fs, ∀ rows : List α, (f.strictSelect? mode rows).isSome) (rows : List α) :
    (strictNarrow? mode fs rows).isSome := by
  induction fs generalizing rows with
  | nil =>
    rw [strictNarrow?]
    rfl
  | cons f fs ih =>
    rw [List.forall_mem_cons] at h
    obtain ⟨between, hbetween⟩ := Option.isSome_iff_exists.1 (h.1 rows)
    rw [strictNarrow?, hbetween, Option.bind_some]
    exact ih h.2 between

theorem isSome_strictBranches? {fs : List Filter} {rows : List α}
    (h : ∀ f ∈ fs, (f.strictSelect? mode rows).isSome) :
    (strictBranches? mode fs rows).isSome := by
  induction fs with
  | nil =>
    rw [strictBranches?]
    rfl
  | cons f fs ih =>
    rw [List.forall_mem_cons] at h
    obtain ⟨first, hfirst⟩ := Option.isSome_iff_exists.1 h.1
    rw [strictBranches?, hfirst, Option.bind_some, Option.isSome_map]
    exact ih h.2

/-- A typed filter needs no fixed answers. -/
theorem isSome_strictSelect? {f : Filter} (h : f.WellTyped schema) (mode : DateEquality)
    (rows : List α) : (f.strictSelect? mode rows).isSome := by
  induction h generalizing rows with
  | condition hc =>
    rw [strictSelect?]
    split
    · rfl
    · rw [Option.isSome_map]
      exact Condition.isSome_strictTest? hc mode
  | @group connective fs hconnective _ ih =>
    rw [strictSelect?.eq_def]
    split
    · rfl
    · cases connective with
      | and => exact isSome_strictNarrow? ih rows
      | or =>
        dsimp only
        rw [Option.isSome_map]
        exact isSome_strictBranches? fun f hf => ih f hf rows
      | unknown => exact absurd rfl hconnective

/-! ## Checked filters -/

theorem check_of_wellTyped {f : Filter} (h : f.WellTyped schema) : f.check schema = .ok f := by
  induction h with
  | condition hc =>
    rw [check, Condition.check_of_ofType hc]
    rfl
  | @group connective fs hconnective _ ih =>
    have hfs : checkAll schema (fs.map id) = .ok fs := checkAll_map ih
    rw [List.map_id] at hfs
    exact check_group_eq_ok.2 ⟨hconnective, fs, hfs, rfl⟩

theorem wellTyped_of_checkAll {fs gs : List Filter}
    (hfs : ∀ f ∈ fs, ∀ g, f.check schema = .ok g → g.bare = f.bare ∧ g.WellTyped schema)
    (h : checkAll schema fs = .ok gs) :
    bareIn gs = bareIn fs ∧ ∀ g ∈ gs, g.WellTyped schema := by
  induction fs generalizing gs with
  | nil =>
    rw [checkAll_eq_ok_nil.1 h]
    exact ⟨rfl, fun _ hg => absurd hg List.not_mem_nil⟩
  | cons f fs ih =>
    obtain ⟨g, gs', hg, hgs, rfl⟩ := checkAll_eq_ok_cons.1 h
    rw [List.forall_mem_cons] at hfs
    obtain ⟨hbare, htyped⟩ := hfs.1 g hg
    obtain ⟨hbares, htypeds⟩ := ih hfs.2 hgs
    rw [bareIn, bareIn, hbare, hbares]
    exact ⟨rfl, List.forall_mem_cons.2 ⟨htyped, htypeds⟩⟩

theorem bare_eq_and_wellTyped_of_check {f g : Filter} (h : f.check schema = .ok g) :
    g.bare = f.bare ∧ g.WellTyped schema := by
  induction f generalizing g with
  | condition c =>
    rw [check] at h
    obtain ⟨d, hd, rfl⟩ := Except.map_eq_ok.1 h
    obtain ⟨hbare, t, ht⟩ := Condition.ofType_of_check hd
    rw [bare, bare, hbare]
    exact ⟨rfl, .condition ht⟩
  | group connective fs ih =>
    obtain ⟨hconnective, gs, hgs, rfl⟩ := check_group_eq_ok.1 h
    obtain ⟨hbare, htyped⟩ := wellTyped_of_checkAll (fun f hf _ => ih f hf) hgs
    rw [bare, bare, hbare]
    exact ⟨rfl, .group hconnective htyped⟩

/-- What a check makes of a filter: the same filter but for the operands, which
    has types now. The check leaves it as it is, and selecting with it takes no
    fixed answer, whatever the rows are. -/
theorem wellTyped_of_check {f g : Filter} (h : f.check schema = .ok g) :
    g.bare = f.bare ∧ g.WellTyped schema ∧ g.check schema = .ok g ∧
      ∀ (mode : DateEquality) (rows : List α),
        g.strictSelect? mode rows = some (g.select mode rows) := by
  obtain ⟨hbare, htyped⟩ := bare_eq_and_wellTyped_of_check h
  refine ⟨hbare, htyped, check_of_wellTyped htyped, fun mode rows => ?_⟩
  obtain ⟨kept, hkept⟩ := Option.isSome_iff_exists.1 (isSome_strictSelect? htyped mode rows)
  rw [hkept, select_of_strictSelect? hkept]

/-- Conditions with operands of each kind: one date is a text, and one operand is
    of no use. -/
def ofEachKind : Filter :=
  group .and [condition ⟨"checkbox", .equals, some (.boolean true)⟩,
    group .or [condition ⟨"number", .lessThan, some (.number (.ofInt 3))⟩,
      condition ⟨"title", .contains, some (.text "rent")⟩,
      condition ⟨"status", .notEquals, some (.text "done")⟩],
    condition ⟨"multiSelect", .notContains, some (.list ["late", "lost"])⟩,
    condition ⟨"date", .before, some (.text "2024-01-02")⟩,
    condition ⟨"timestamp", .isEmpty, some (.text "never")⟩]

/-- What a check makes of them. -/
def typedOfEachKind : Filter :=
  group .and [condition ⟨"checkbox", .equals, some (.boolean true)⟩,
    group .or [condition ⟨"number", .lessThan, some (.number (.ofInt 3))⟩,
      condition ⟨"title", .contains, some (.text "rent")⟩,
      condition ⟨"status", .notEquals, some (.text "done")⟩],
    condition ⟨"multiSelect", .notContains, some (.list ["late", "lost"])⟩,
    condition ⟨"date", .before, some (.date (.midnight ⟨2024, 1, 2, by decide, by decide⟩))⟩,
    condition ⟨"timestamp", .isEmpty, .none⟩]

theorem wellTyped_typedOfEachKind : ofEachKind.check .stock = .ok typedOfEachKind ∧
    typedOfEachKind.bare = ofEachKind.bare ∧ typedOfEachKind.WellTyped .stock ∧
    typedOfEachKind.check .stock = .ok typedOfEachKind ∧
    ∀ (mode : DateEquality) (rows : List Record),
      typedOfEachKind.strictSelect? mode rows = some (typedOfEachKind.select mode rows) := by
  have hcheck : ofEachKind.check .stock = .ok typedOfEachKind := rfl
  exact ⟨hcheck, wellTyped_of_check hcheck⟩

-- What has a fixed answer has no strict one, unless no row comes to it.
example : (condition ⟨"state", .before, some (.text "soon")⟩).strictSelect? .instant tasks = .none ∧
    (group .and [condition ⟨"state", .equals, some (.text "lost")⟩,
      group .unknown []]).strictSelect? .instant tasks = some [] := by decide

end Filter

end Sift
