import Mathlib.Data.List.Perm.Subperm
import Sift.Proofs.Selection.Order

/-!
# Rows with repeated identities

Nothing keeps the rows of a list from having the same identity. What a filter
keeps of such rows depends on its `or` groups: wherever there is one, each
identity is kept at most once, and which of its rows that is depends on the
other rows; without any, no row is lost that satisfies the filter.

* `subperm_select`: no row is kept more often than it occurs;
* `nodup_select_of_hasOr`: a filter with an `or` group, however deep, keeps no
  identity twice;
* `subperm_select_and_repeated`: what is kept of rows with any identities;
* `select_select_eq_and_perm`: what is kept is kept again, in the same order if
  the identities were distinct.
-/

namespace Sift.Filter

variable {α : Type} [Row α] {mode : DateEquality}

/-! ## How often rows are kept -/

theorem subperm_narrow {fs : List Filter}
    (h : ∀ f ∈ fs, ∀ rows : List α, (f.select mode rows).Subperm rows) (rows : List α) :
    (narrow mode fs rows).Subperm rows := by
  induction fs generalizing rows with
  | nil =>
    rw [narrow]
  | cons f fs ih =>
    rw [List.forall_mem_cons] at h
    rw [narrow]
    exact (ih h.2 _).trans (h.1 rows)

/-- No row is kept more often than it occurs. -/
theorem subperm_select (f : Filter) (rows : List α) : (f.select mode rows).Subperm rows := by
  induction f generalizing rows with
  | condition c =>
    rw [select_condition]
    exact List.filter_sublist.subperm
  | group connective fs ih =>
    cases connective with
    | and =>
      rw [select_and]
      exact subperm_narrow ih rows
    | or =>
      -- Rows of different identities are different, and each of them is one of `rows`.
      rw [select_or]
      refine List.subperm_of_subset (nodup_firsts _).of_map fun row hrow => ?_
      obtain ⟨f, _, hselect⟩ := mem_branches.1 ((firsts_sublist _).subset hrow)
      exact (mem_and_satisfies_of_mem_select hselect).1
    | unknown =>
      rw [select_unknown]
      exact List.nil_subperm

/-! ## Identities -/

/-- Once a filter has left every identity at most once, the filters after it
    keep it so. -/
theorem nodup_narrow_of_mem {fs : List Filter} {f : Filter} (hf : f ∈ fs)
    (h : ∀ rows : List α, ((f.select mode rows).map Row.id).Nodup) (rows : List α) :
    ((narrow mode fs rows).map Row.id).Nodup := by
  induction fs generalizing rows with
  | nil => exact absurd hf List.not_mem_nil
  | cons g fs ih =>
    rw [narrow]
    rcases List.mem_cons.1 hf with rfl | hf
    · exact nodup_narrow (fun g _ _ => nodup_select g) (h rows)
    · exact ih hf _

/-- A filter with an `or` group keeps no identity twice. -/
theorem nodup_select_of_hasOr {f : Filter} (h : f.HasOr) (rows : List α) :
    ((f.select mode rows).map Row.id).Nodup := by
  induction h generalizing rows with
  | here =>
    rw [select_or]
    exact nodup_firsts _
  | @inside connective fs f hf _ ih =>
    cases connective with
    | and =>
      rw [select_and]
      exact nodup_narrow_of_mem hf ih rows
    | or =>
      rw [select_or]
      exact nodup_firsts _
    | unknown =>
      rw [select_unknown]
      exact .nil

/-- What a filter keeps of rows with any identities: no row more often than it
    occurs, and only rows that satisfy it. With an `or` group somewhere, these
    have distinct identities, and without any, they are all rows that satisfy
    it, as they were. -/
theorem subperm_select_and_repeated (mode : DateEquality) (f : Filter) (rows : List α) :
    (f.select mode rows).Subperm rows ∧
      (∀ row ∈ f.select mode rows, f.Satisfies mode row) ∧
      (f.HasOr → ((f.select mode rows).map Row.id).Nodup) ∧
      (¬f.HasOr → f.select mode rows = rows.filter fun row => f.Satisfies mode row) :=
  ⟨subperm_select f rows, fun _ hrow => (mem_and_satisfies_of_mem_select hrow).2,
    fun h => nodup_select_of_hasOr h rows, fun h => select_eq_filter h rows⟩

/-- Two tasks with the identity of another one, of which one even is the same
    task. -/
def revisions : List Record :=
  tasks ++ [.set "state" (.text "open") (.new "b"), .set "state" (.text "open") (.new "a")]

/-- Tasks that are open. -/
def isOpen : Filter := condition ⟨"state", .equals, some (.text "open")⟩

theorem subperm_select_and_repeated_revisions :
    (doneAndStated.select .instant revisions).Subperm revisions ∧
      doneAndStated.HasOr ∧ ((doneAndStated.select .instant revisions).map Row.id).Nodup ∧
      ¬isOpen.HasOr ∧ isOpen.select .instant revisions =
        revisions.filter fun row => isOpen.Satisfies .instant row := by
  have hor : doneAndStated.HasOr := .inside List.mem_cons_self .here
  have hopen : ¬isOpen.HasOr := fun h => nomatch h
  obtain ⟨hsubperm, _, hnodup, _⟩ := subperm_select_and_repeated .instant doneAndStated revisions
  obtain ⟨_, _, _, hfilter⟩ := subperm_select_and_repeated .instant isOpen revisions
  exact ⟨hsubperm, hor, hnodup hor, hopen, hfilter hopen⟩

/-! ## Selecting again -/

/-- Of rows with distinct identities that all satisfy the filter, none is lost. -/
theorem perm_select_of_satisfies {f : Filter} {rows : List α} (h : (rows.map Row.id).Nodup)
    (hrows : ∀ row ∈ rows, f.Satisfies mode row) : (f.select mode rows).Perm rows :=
  (List.perm_ext_iff_of_nodup (nodup_select f h).of_map h.of_map).2 fun row =>
    ⟨fun hrow => (mem_and_satisfies_of_mem_select hrow).1,
      fun hrow => mem_select_of_satisfies h hrow (hrows row hrow)⟩

/-- In a list without repetitions, two rows stand in one order only. -/
theorem eq_of_pair_sublist {β : Type} {a b : β} {rows : List β} (h : rows.Nodup)
    (hab : [a, b].Sublist rows) (hba : [b, a].Sublist rows) : a = b := by
  induction rows with
  | nil => exact absurd (List.sublist_nil.1 hab) (List.cons_ne_nil _ _)
  | cons row rows ih =>
    obtain ⟨hrow, hrows⟩ := List.nodup_cons.1 h
    rcases List.sublist_cons_iff.1 hab with hab' | ⟨_, ha, _⟩
    · rcases List.sublist_cons_iff.1 hba with hba' | ⟨_, hb, _⟩
      · exact ih hrows hab' hba'
      · obtain ⟨rfl, rfl⟩ := List.cons.inj hb
        exact absurd (hab'.subset (List.mem_cons_of_mem _ List.mem_cons_self)) hrow
    · obtain ⟨rfl, rfl⟩ := List.cons.inj ha
      rcases List.sublist_cons_iff.1 hba with hba' | ⟨_, hb, _⟩
      · exact absurd (hba'.subset (List.mem_cons_of_mem _ List.mem_cons_self)) hrow
      · exact (List.cons.inj hb).1.symm

/-- Of two rows, only one comes before the other. -/
theorem eq_of_byPath {β : Type} {path : β → Option (List Nat)} {rows : List β} (h : rows.Nodup)
    {a b : β} (hab : ByPath path rows a b) (hba : ByPath path rows b a) : a = b := by
  obtain ⟨p, q, hp, hq, hpq⟩ := hab
  obtain ⟨q', p', hq', hp', hqp⟩ := hba
  obtain rfl : p = p' := Option.some.inj (hp.symm.trans hp')
  obtain rfl : q = q' := Option.some.inj (hq.symm.trans hq')
  rcases hpq with hlt | ⟨rfl, hab⟩
  · rcases hqp with hgt | ⟨rfl, _⟩
    · exact absurd (List.lt_trans hlt hgt) (List.lt_irrefl p)
    · exact absurd hlt (List.lt_irrefl _)
  · rcases hqp with hgt | ⟨_, hba⟩
    · exact absurd hgt (List.lt_irrefl p)
    · exact eq_of_pair_sublist h hab hba

/-- What is kept of rows with distinct identities stays as it is. -/
theorem select_select_of_nodup {f : Filter} {rows : List α} (h : (rows.map Row.id).Nodup) :
    f.select mode (f.select mode rows) = f.select mode rows := by
  have hkept : ((f.select mode rows).map Row.id).Nodup := nodup_select f h
  have hperm : (f.select mode (f.select mode rows)).Perm (f.select mode rows) :=
    perm_select_of_satisfies hkept fun _ hrow => (mem_and_satisfies_of_mem_select hrow).2
  -- The rows that are kept are ordered by their paths as they stand, too.
  have hordered : (f.select mode rows).Pairwise (ByPath (f.path? mode) (f.select mode rows)) := by
    refine List.pairwise_of_forall_sublist fun hab => ?_
    obtain ⟨p, q, hp, hq, hpq⟩ := (pairwise_select h).forall_sublist hab
    exact ⟨p, q, hp, hq, hpq.imp_right fun ⟨he, _⟩ => ⟨he, hab⟩⟩
  exact hperm.eq_of_pairwise (fun _ _ _ _ => eq_of_byPath hkept.of_map) (pairwise_select hkept)
    hordered

/-- What is kept of any rows is all kept again. -/
theorem perm_select_select (f : Filter) (rows : List α) :
    (f.select mode (f.select mode rows)).Perm (f.select mode rows) := by
  by_cases hor : f.HasOr
  · exact perm_select_of_satisfies (nodup_select_of_hasOr hor rows) fun _ hrow =>
      (mem_and_satisfies_of_mem_select hrow).2
  · rw [select_eq_filter hor, select_eq_filter hor, List.filter_filter]
    simp only [Bool.and_self]
    exact .refl _

/-- A selection keeps all that it has kept. Of rows with distinct identities, it
    also keeps their order. -/
theorem select_select_eq_and_perm (mode : DateEquality) (f : Filter) (rows : List α) :
    ((rows.map Row.id).Nodup → f.select mode (f.select mode rows) = f.select mode rows) ∧
      (f.select mode (f.select mode rows)).Perm (f.select mode rows) :=
  ⟨select_select_of_nodup, perm_select_select f rows⟩

theorem select_select_tasks : (tasks.map Row.id).Nodup ∧
    doneAndStated.select .instant (doneAndStated.select .instant tasks) =
      doneAndStated.select .instant tasks ∧
    (doneAndStated.select .instant (doneAndStated.select .instant revisions)).Perm
      (doneAndStated.select .instant revisions) := by
  have h : (tasks.map Row.id).Nodup := by decide
  exact ⟨h, (select_select_eq_and_perm .instant doneAndStated tasks).1 h,
    (select_select_eq_and_perm .instant doneAndStated revisions).2⟩

/-- Tasks with a state among those that have none or have an owner, and then
    those that are late. -/
def ownedOrLate : Filter :=
  group .or
    [group .and
      [group .or [condition ⟨"state", .isEmpty, .none⟩, condition ⟨"owner", .isNotEmpty, .none⟩],
        condition ⟨"state", .isNotEmpty, .none⟩],
      condition ⟨"state", .equals, some (.text "late")⟩]

/-- A late task, and one in two versions, of which only the first one has a
    state. -/
def versions : List Record :=
  [.set "state" (.text "late") (.new "b"),
    .set "owner" (.text "ann") (.set "state" (.text "late") (.new "a")), .new "a"]

-- The version without a state hides the other one in the first branch, and only once.
example : (ownedOrLate.select .instant versions).map Row.id = ["b", "a"] ∧
    (ownedOrLate.select .instant (ownedOrLate.select .instant versions)).map Row.id =
      ["a", "b"] := by decide

end Sift.Filter
