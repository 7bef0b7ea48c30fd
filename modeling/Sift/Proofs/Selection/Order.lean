import Sift.Proofs.Selection.Pointwise

/-!
# The order of a selection

An `or` group puts the rows of its first filter first, and an `and` group hands
rows that an `or` group has put in a new order to the next filter. What comes
out is an order by *branch paths*: which branches of the `or` groups a row came
through, those of the last filter of an `and` group first (`Filter.path?`). Rows
with the same path stay in the order they had.

* `isSome_path?_iff`: the rows with a path are those that satisfy the filter;
* `eq_of_path?_prefix`: no path starts with another path in the same filter, so
  that paths put one after the other still compare part by part;
* `select_eq_filter`: without `or` groups, the order does not change;
* `perm_and_pairwise_select`: the order of a selection.
-/

namespace Sift

variable {α : Type} [Row α] {mode : DateEquality}

/-! ## Paths -/

namespace Filter

mutual

/-- The branch path of a row, if it satisfies the filter: through an `or` group
    the number of its first branch that the row satisfies, and the path in
    there; through an `and` group the paths in its filters, the last one
    first. -/
def path? (mode : DateEquality) : Filter → α → Option (List Nat)
  | condition c, row => if c.holds mode (Row.value row c.property) then some [] else .none
  | group .and fs, row => pathAll? mode fs row
  | group .or fs, row => pathAny? mode 0 fs row
  | group .unknown _, _ => .none
termination_by structural f => f

/-- The paths in all of the filters, the last one first. -/
def pathAll? (mode : DateEquality) : List Filter → α → Option (List Nat)
  | [], _ => some []
  | f :: fs, row =>
    match pathAll? mode fs row, path? mode f row with
    | some later, some p => some (later ++ p)
    | _, _ => .none
termination_by structural fs => fs

/-- The number of the first of the filters that the row satisfies, counted from
    `i`, and the path in it. -/
def pathAny? (mode : DateEquality) : Nat → List Filter → α → Option (List Nat)
  | _, [], _ => .none
  | i, f :: fs, row =>
    match path? mode f row with
    | some p => some (i :: p)
    | .none => pathAny? mode (i + 1) fs row
termination_by structural _ fs => fs

end

theorem pathAll?_cons_eq_some {f : Filter} {fs : List Filter} {row : α} {p : List Nat} :
    pathAll? mode (f :: fs) row = some p ↔
      ∃ later q, pathAll? mode fs row = some later ∧ f.path? mode row = some q ∧
        p = later ++ q := by
  rw [pathAll?]
  constructor
  · intro h
    split at h
    · rename_i later q hlater hq
      exact ⟨later, q, hlater, hq, (Option.some.inj h).symm⟩
    · exact absurd h (by simp)
  · rintro ⟨later, q, hlater, hq, rfl⟩
    rw [hlater, hq]

theorem pathAny?_cons_of_some {i : Nat} {f : Filter} {fs : List Filter} {row : α} {p : List Nat}
    (h : f.path? mode row = some p) : pathAny? mode i (f :: fs) row = some (i :: p) := by
  rw [pathAny?, h]

theorem pathAny?_cons_of_none {i : Nat} {f : Filter} {fs : List Filter} {row : α}
    (h : f.path? mode row = .none) :
    pathAny? mode i (f :: fs) row = pathAny? mode (i + 1) fs row := by
  rw [pathAny?, h]

/-- Branches are counted upwards. -/
theorem exists_cons_of_pathAny? {i : Nat} {fs : List Filter} {row : α} {p : List Nat}
    (h : pathAny? mode i fs row = some p) : ∃ j q, p = j :: q ∧ i ≤ j := by
  induction fs generalizing i with
  | nil => exact absurd h (by simp [pathAny?])
  | cons f fs ih =>
    cases hf : f.path? mode row with
    | none =>
      rw [pathAny?_cons_of_none hf] at h
      obtain ⟨j, q, hp, hj⟩ := ih h
      exact ⟨j, q, hp, Nat.le_of_succ_le hj⟩
    | some q =>
      rw [pathAny?_cons_of_some hf] at h
      exact ⟨i, q, (Option.some.inj h).symm, le_rfl⟩

theorem isSome_pathAll?_iff {fs : List Filter} {row : α}
    (h : ∀ f ∈ fs, (f.path? mode row).isSome ↔ f.Satisfies mode row) :
    (pathAll? mode fs row).isSome ↔ ∀ f ∈ fs, f.Satisfies mode row := by
  induction fs with
  | nil => simp [pathAll?]
  | cons f fs ih =>
    rw [List.forall_mem_cons] at h
    rw [List.forall_mem_cons, ← h.1, ← ih h.2, Option.isSome_iff_exists, Option.isSome_iff_exists,
      Option.isSome_iff_exists]
    simp only [pathAll?_cons_eq_some]
    constructor
    · rintro ⟨_, later, q, hlater, hq, rfl⟩
      exact ⟨⟨q, hq⟩, later, hlater⟩
    · rintro ⟨⟨q, hq⟩, later, hlater⟩
      exact ⟨_, later, q, hlater, hq, rfl⟩

theorem isSome_pathAny?_iff {i : Nat} {fs : List Filter} {row : α}
    (h : ∀ f ∈ fs, (f.path? mode row).isSome ↔ f.Satisfies mode row) :
    (pathAny? mode i fs row).isSome ↔ ∃ f ∈ fs, f.Satisfies mode row := by
  induction fs generalizing i with
  | nil => simp [pathAny?]
  | cons f fs ih =>
    rw [List.forall_mem_cons] at h
    rw [List.exists_mem_cons_iff, ← h.1]
    cases hf : f.path? mode row with
    | none => rw [pathAny?_cons_of_none hf, ih h.2]; simp
    | some p => rw [pathAny?_cons_of_some hf]; simp

/-- The rows with a path are those that satisfy the filter. -/
theorem isSome_path?_iff {f : Filter} {row : α} :
    (f.path? mode row).isSome ↔ f.Satisfies mode row := by
  induction f with
  | condition c =>
    rw [path?]
    constructor
    · intro h
      split at h
      · rename_i hc
        exact .condition ((Condition.holds_iff c _).1 hc)
      · exact absurd h Bool.false_ne_true
    · rintro (hc | _ | _)
      rw [if_pos ((Condition.holds_iff c _).2 hc), Option.isSome_some]
  | group connective fs ih =>
    cases connective with
    | and =>
      rw [path?, isSome_pathAll?_iff ih]
      exact ⟨.and, fun | .and h => h⟩
    | or =>
      rw [path?, isSome_pathAny?_iff ih]
      exact ⟨fun ⟨_, hf, h⟩ => .or hf h, fun | .or hf h => ⟨_, hf, h⟩⟩
    | unknown =>
      rw [path?]
      exact ⟨fun h => absurd h Bool.false_ne_true, fun h => nomatch h⟩

instance (f : Filter) (row : α) : Decidable (f.Satisfies mode row) :=
  decidable_of_iff _ isSome_path?_iff

/-! ### Comparing paths -/

theorem eq_of_pathAll?_prefix {fs : List Filter}
    (h : ∀ f ∈ fs, ∀ (a b : α) (p q : List Nat), f.path? mode a = some p →
      f.path? mode b = some q → p <+: q → p = q)
    {a b : α} {p q : List Nat} (hp : pathAll? mode fs a = some p)
    (hq : pathAll? mode fs b = some q) (hpq : p <+: q) : p = q := by
  induction fs generalizing a b p q with
  | nil =>
    rw [pathAll?, Option.some_inj] at hp hq
    rw [← hp, ← hq]
  | cons f fs ih =>
    rw [List.forall_mem_cons] at h
    obtain ⟨p₁, p₂, hp₁, hp₂, rfl⟩ := pathAll?_cons_eq_some.1 hp
    obtain ⟨q₁, q₂, hq₁, hq₂, rfl⟩ := pathAll?_cons_eq_some.1 hq
    -- The first parts start the same list, so one of them starts the other.
    have he : p₁ = q₁ := by
      rcases List.prefix_or_prefix_of_prefix ((List.prefix_append p₁ p₂).trans hpq)
        (List.prefix_append q₁ q₂) with hpre | hpre
      · exact ih h.2 hp₁ hq₁ hpre
      · exact (ih h.2 hq₁ hp₁ hpre).symm
    subst he
    rw [h.1 a b p₂ q₂ hp₂ hq₂ ((List.prefix_append_right_inj p₁).1 hpq)]

theorem eq_of_pathAny?_prefix {fs : List Filter}
    (h : ∀ f ∈ fs, ∀ (a b : α) (p q : List Nat), f.path? mode a = some p →
      f.path? mode b = some q → p <+: q → p = q)
    {i : Nat} {a b : α} {p q : List Nat} (hp : pathAny? mode i fs a = some p)
    (hq : pathAny? mode i fs b = some q) (hpq : p <+: q) : p = q := by
  induction fs generalizing i with
  | nil => exact absurd hp (by simp [pathAny?])
  | cons f fs ih =>
    rw [List.forall_mem_cons] at h
    cases ha : f.path? mode a with
    | none =>
      rw [pathAny?_cons_of_none ha] at hp
      cases hb : f.path? mode b with
      | none =>
        rw [pathAny?_cons_of_none hb] at hq
        exact ih h.2 hp hq
      | some q' =>
        rw [pathAny?_cons_of_some hb, Option.some_inj] at hq
        obtain ⟨j, p', rfl, hj⟩ := exists_cons_of_pathAny? hp
        rw [← hq, List.cons_prefix_cons] at hpq
        exact absurd hpq.1 (Nat.ne_of_gt hj)
    | some p' =>
      rw [pathAny?_cons_of_some ha, Option.some_inj] at hp
      cases hb : f.path? mode b with
      | none =>
        rw [pathAny?_cons_of_none hb] at hq
        obtain ⟨j, q', rfl, hj⟩ := exists_cons_of_pathAny? hq
        rw [← hp, List.cons_prefix_cons] at hpq
        exact absurd hpq.1 (Nat.ne_of_lt hj)
      | some q' =>
        rw [pathAny?_cons_of_some hb, Option.some_inj] at hq
        rw [← hp, ← hq, List.cons_prefix_cons] at hpq
        rw [← hp, ← hq, h.1 a b p' q' ha hb hpq.2]

/-- No path in a filter starts with another one. -/
theorem eq_of_path?_prefix {f : Filter} {a b : α} {p q : List Nat} (hp : f.path? mode a = some p)
    (hq : f.path? mode b = some q) (hpq : p <+: q) : p = q := by
  induction f generalizing a b p q with
  | condition c =>
    rw [path?, Option.ite_none_right_eq_some] at hp hq
    rw [← Option.some.inj hp.2, ← Option.some.inj hq.2]
  | group connective fs ih =>
    cases connective with
    | and => exact eq_of_pathAll?_prefix (fun f hf _ _ _ _ => ih f hf) hp hq hpq
    | or => exact eq_of_pathAny?_prefix (fun f hf _ _ _ _ => ih f hf) hp hq hpq
    | unknown => exact absurd hp (by simp [path?])

end Filter

/-- What follows two lists does not change which of them is less, unless one
    starts the other. -/
theorem append_lt_append {p q : List Nat} (h : p < q) (hpq : ¬p <+: q) (r s : List Nat) :
    p ++ r < q ++ s := by
  induction h with
  | nil => exact absurd List.nil_prefix hpq
  | cons _ ih =>
    rw [List.cons_prefix_cons] at hpq
    exact .cons (ih fun h => hpq ⟨rfl, h⟩)
  | rel h => exact .rel h

/-! ## Order -/

/-- Whether `a` comes before `b` when rows are ordered by their paths, and rows
    with the same path as they are in `rows`. -/
def ByPath (path : α → Option (List Nat)) (rows : List α) (a b : α) : Prop :=
  ∃ p q, path a = some p ∧ path b = some q ∧ (p < q ∨ p = q ∧ [a, b].Sublist rows)

namespace Filter

theorem pairwise_narrow {fs : List Filter}
    (h : ∀ f ∈ fs, ∀ rows : List α, (rows.map Row.id).Nodup →
      (f.select mode rows).Pairwise (ByPath (f.path? mode) rows))
    {rows : List α} (hrows : (rows.map Row.id).Nodup) :
    (narrow mode fs rows).Pairwise (ByPath (pathAll? mode fs) rows) := by
  induction fs generalizing rows with
  | nil =>
    rw [narrow]
    exact List.pairwise_of_forall_sublist fun hab =>
      ⟨[], [], by rw [pathAll?], by rw [pathAll?], .inr ⟨rfl, hab⟩⟩
  | cons f fs ih =>
    rw [List.forall_mem_cons] at h
    rw [narrow]
    refine (ih h.2 (nodup_select f hrows)).imp_of_mem fun {a b} ha hb => ?_
    rintro ⟨p, q, hp, hq, hpq⟩
    rcases hpq with hlt | ⟨rfl, hab⟩
    · -- Later filters tell the two rows apart, whatever their paths in `f` are.
      have hpath {row : α} (hrow : row ∈ narrow mode fs (f.select mode rows)) :
          ∃ r, f.path? mode row = some r := by
        have hmem := (mem_and_satisfies_of_mem_narrow
          (fun g _ _ => mem_and_satisfies_of_mem_select) hrow).1
        exact Option.isSome_iff_exists.1
          (isSome_path?_iff.2 (mem_and_satisfies_of_mem_select hmem).2)
      obtain ⟨r, hr⟩ := hpath ha
      obtain ⟨s, hs⟩ := hpath hb
      have hpre : ¬p <+: q := fun hpre => by
        have he := eq_of_pathAll?_prefix (fun f _ _ _ _ _ => eq_of_path?_prefix) hp hq hpre
        exact List.lt_irrefl _ (he ▸ hlt)
      exact ⟨p ++ r, q ++ s, pathAll?_cons_eq_some.2 ⟨p, r, hp, hr, rfl⟩,
        pathAll?_cons_eq_some.2 ⟨q, s, hq, hs, rfl⟩, .inl (append_lt_append hlt hpre r s)⟩
    · -- They do not, and the order in which `f` has left the rows decides.
      obtain ⟨r, s, hr, hs, hrs⟩ := (h.1 rows hrows).forall_sublist hab
      refine ⟨p ++ r, p ++ s, pathAll?_cons_eq_some.2 ⟨p, r, hp, hr, rfl⟩,
        pathAll?_cons_eq_some.2 ⟨p, s, hq, hs, rfl⟩, ?_⟩
      rcases hrs with hlt | ⟨rfl, hab⟩
      · exact .inl (List.append_left_lt hlt)
      · exact .inr ⟨rfl, hab⟩

/-- The branches of an `or` group, after the first row of each identity is
    taken, by the number of the branch and the path in it. -/
theorem pairwise_firsts_branches {fs : List Filter} {rows : List α}
    (h : ∀ f ∈ fs, (f.select mode rows).Pairwise (ByPath (f.path? mode) rows))
    (hrows : (rows.map Row.id).Nodup) (i : Nat) :
    (firsts (branches mode fs rows)).Pairwise (ByPath (pathAny? mode i fs) rows) := by
  induction fs generalizing i with
  | nil =>
    rw [branches, firsts, firstsAfter]
    exact .nil
  | cons f fs ih =>
    rw [List.forall_mem_cons] at h
    rw [branches, firsts_append, firsts_eq_self (nodup_select f hrows)]
    -- Rows that are left of the later branches do not satisfy the first one.
    have hnone {row : α} (hrow : row ∈ (firsts (branches mode fs rows)).filter fun row =>
        Row.id row ∉ (f.select mode rows).map Row.id) :
        f.path? mode row = .none ∧ ∃ p, pathAny? mode (i + 1) fs row = some p := by
      rw [List.mem_filter, decide_eq_true_eq] at hrow
      obtain ⟨g, hg, hrowg⟩ := mem_branches.1 ((firsts_sublist _).subset hrow.1)
      obtain ⟨hmem, hsat⟩ := mem_and_satisfies_of_mem_select hrowg
      refine ⟨Option.not_isSome_iff_eq_none.1 fun hf => hrow.2 (List.mem_map_of_mem
        (mem_select_of_satisfies hrows hmem (isSome_path?_iff.1 hf))), ?_⟩
      exact Option.isSome_iff_exists.1
        ((isSome_pathAny?_iff fun _ _ => isSome_path?_iff).2 ⟨g, hg, hsat⟩)
    refine List.pairwise_append.2 ⟨?_, ?_, fun a ha b hb => ?_⟩
    · refine h.1.imp fun {a b} => ?_
      rintro ⟨p, q, hp, hq, hpq⟩
      refine ⟨i :: p, i :: q, pathAny?_cons_of_some hp, pathAny?_cons_of_some hq, ?_⟩
      rcases hpq with hlt | ⟨rfl, hab⟩
      · exact .inl (.cons hlt)
      · exact .inr ⟨rfl, hab⟩
    · refine ((ih h.2 (i + 1)).sublist List.filter_sublist).imp_of_mem fun {a b} ha hb => ?_
      rw [ByPath, ByPath, pathAny?_cons_of_none (hnone ha).1, pathAny?_cons_of_none (hnone hb).1]
      exact fun hab => hab
    · obtain ⟨p, hp⟩ := Option.isSome_iff_exists.1
        (isSome_path?_iff.2 (mem_and_satisfies_of_mem_select ha).2)
      obtain ⟨hb, q, hq⟩ := hnone hb
      obtain ⟨j, r, rfl, hj⟩ := exists_cons_of_pathAny? hq
      exact ⟨i :: p, j :: r, pathAny?_cons_of_some hp, by rw [pathAny?_cons_of_none hb, hq],
        .inl (.rel hj)⟩

/-- A selection is ordered by paths, and rows with the same path stay in the
    order they had. -/
theorem pairwise_select {f : Filter} {rows : List α} (h : (rows.map Row.id).Nodup) :
    (f.select mode rows).Pairwise (ByPath (f.path? mode) rows) := by
  induction f generalizing rows with
  | condition c =>
    rw [select_condition, Condition.select, List.pairwise_filter]
    refine List.pairwise_of_forall_sublist fun hab ha hb => ⟨[], [], ?_, ?_, .inr ⟨rfl, hab⟩⟩
    · rw [path?, if_pos ha]
    · rw [path?, if_pos hb]
  | group connective fs ih =>
    cases connective with
    | and =>
      rw [select_and]
      exact pairwise_narrow (fun f hf _ => ih f hf) h
    | or =>
      rw [select_or]
      exact pairwise_firsts_branches (fun f hf => ih f hf h) h 0
    | unknown =>
      rw [select_unknown]
      exact .nil

/-! ### Filters without alternatives -/

/-- Whether there is an `or` group in a filter, at any depth. -/
inductive HasOr : Filter → Prop
  | here {fs : List Filter} : HasOr (group .or fs)
  | inside {connective : Connective} {fs : List Filter} {f : Filter} : f ∈ fs → HasOr f →
    HasOr (group connective fs)

theorem narrow_eq_filter {fs : List Filter}
    (h : ∀ f ∈ fs, ∀ rows : List α,
      f.select mode rows = rows.filter fun row => f.Satisfies mode row)
    (rows : List α) :
    narrow mode fs rows = rows.filter fun row => (group .and fs).Satisfies mode row := by
  induction fs generalizing rows with
  | nil =>
    rw [narrow, List.filter_eq_self.2]
    exact fun row _ => decide_eq_true (.and fun _ hf => absurd hf List.not_mem_nil)
  | cons f fs ih =>
    rw [List.forall_mem_cons] at h
    rw [narrow, ih h.2, h.1, List.filter_filter]
    refine List.filter_congr fun row _ => ?_
    rw [← Bool.decide_and, decide_eq_decide]
    constructor
    · rintro ⟨_ | hfs, hf⟩
      exact .and (List.forall_mem_cons.2 ⟨hf, hfs⟩)
    · rintro (_ | h)
      rw [List.forall_mem_cons] at h
      exact ⟨.and h.2, h.1⟩

/-- Without `or` groups, a selection is a plain filtering of the rows, even if
    identities repeat. -/
theorem select_eq_filter {f : Filter} (h : ¬f.HasOr) (rows : List α) :
    f.select mode rows = rows.filter fun row => f.Satisfies mode row := by
  induction f generalizing rows with
  | condition c =>
    rw [select_condition, Condition.select]
    refine List.filter_congr fun row _ => ?_
    rw [Bool.eq_iff_iff, decide_eq_true_eq, Condition.holds_iff]
    constructor
    · exact .condition
    · rintro (hc | _ | _)
      exact hc
  | group connective fs ih =>
    cases connective with
    | and =>
      rw [select_and]
      exact narrow_eq_filter (fun f hf => ih f hf fun hor => h (.inside hf hor)) rows
    | or => exact absurd .here h
    | unknown =>
      rw [select_unknown, List.filter_eq_nil_iff.2]
      intro row _ hsat
      cases of_decide_eq_true hsat

/-- What a filter keeps of rows with distinct identities, in which order: the
    rows that satisfy it, by their branch paths and then as they were. Without
    `or` groups they just stay as they were. -/
theorem perm_and_pairwise_select (mode : DateEquality) (f : Filter) {rows : List α}
    (h : (rows.map Row.id).Nodup) :
    (f.select mode rows).Perm (rows.filter fun row => f.Satisfies mode row) ∧
      (f.select mode rows).Pairwise (ByPath (f.path? mode) rows) ∧
      (¬f.HasOr → (f.select mode rows).Sublist rows) := by
  refine ⟨?_, pairwise_select h, fun hor => ?_⟩
  · refine (List.perm_ext_iff_of_nodup (nodup_select f h).of_map (h.of_map.filter _)).2 ?_
    intro row
    rw [List.mem_filter, decide_eq_true_eq]
    exact ⟨mem_and_satisfies_of_mem_select, fun ⟨hrow, hf⟩ => mem_select_of_satisfies h hrow hf⟩
  · rw [select_eq_filter hor]
    exact List.filter_sublist

/-- Tasks that are done before others, and then those with a state before
    others. -/
def doneAndStated : Filter :=
  group .and [doneOrNot,
    group .or [condition ⟨"state", .isNotEmpty, .none⟩, condition ⟨"state", .isEmpty, .none⟩]]

theorem perm_and_pairwise_select_doneAndStated :
    (tasks.map Row.id).Nodup ∧
      (doneAndStated.select .instant tasks).Perm
        (tasks.filter fun row => doneAndStated.Satisfies .instant row) ∧
      (doneAndStated.select .instant tasks).Pairwise
        (ByPath (doneAndStated.path? .instant) tasks) ∧
      (¬doneAndStated.HasOr → (doneAndStated.select .instant tasks).Sublist tasks) := by
  have h : (tasks.map Row.id).Nodup := by decide
  exact ⟨h, perm_and_pairwise_select .instant doneAndStated h⟩

-- The later group has the last word.
example : (doneAndStated.select .instant tasks.reverse).map Row.id = ["b", "a", "c"] := by decide

end Filter

end Sift
