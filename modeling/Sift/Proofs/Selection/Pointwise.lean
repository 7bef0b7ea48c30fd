import Sift.Proofs.Selection.Firsts
import Sift.Proofs.Selection.Meaning

/-!
# Selection row by row

A filter works on whole lists: an `and` group hands a shrinking list from one
filter to the next, and an `or` group runs its filters on all rows and keeps the
first row of each identity. Where identities tell the rows apart, all this
comes down to the meaning of the filter for each row by itself
(`nodup_select_and_mem_iff`).

* `mem_and_satisfies_of_mem_select`: what is kept satisfies the filter, even if
  identities repeat;
* `nodup_select`: distinct identities stay distinct, so that every step of a
  selection works on such rows again;
* `mem_select_of_satisfies`: what satisfies the filter is kept.
-/

namespace Sift.Filter

variable {α : Type} [Row α] {mode : DateEquality}

theorem mem_branches {fs : List Filter} {rows : List α} {row : α} :
    row ∈ branches mode fs rows ↔ ∃ f ∈ fs, row ∈ f.select mode rows := by
  induction fs with
  | nil => simp [branches]
  | cons f fs ih => rw [branches, List.mem_append, ih, List.exists_mem_cons_iff]

/-! ## What is kept -/

theorem mem_and_satisfies_of_mem_narrow {fs : List Filter} {row : α}
    (h : ∀ f ∈ fs, ∀ rows : List α, row ∈ f.select mode rows → row ∈ rows ∧ f.Satisfies mode row)
    {rows : List α} (hrow : row ∈ narrow mode fs rows) :
    row ∈ rows ∧ ∀ f ∈ fs, f.Satisfies mode row := by
  induction fs generalizing rows with
  | nil => exact ⟨by rwa [narrow] at hrow, fun _ hf => absurd hf List.not_mem_nil⟩
  | cons f fs ih =>
    rw [narrow] at hrow
    rw [List.forall_mem_cons] at h
    obtain ⟨hselect, hfs⟩ := ih h.2 hrow
    obtain ⟨hrows, hf⟩ := h.1 rows hselect
    exact ⟨hrows, List.forall_mem_cons.2 ⟨hf, hfs⟩⟩

/-- A row that is kept is one of the rows, and it satisfies the filter. -/
theorem mem_and_satisfies_of_mem_select {f : Filter} {rows : List α} {row : α}
    (h : row ∈ f.select mode rows) : row ∈ rows ∧ f.Satisfies mode row := by
  induction f generalizing rows with
  | condition c =>
    rw [select_condition, Condition.select, List.mem_filter] at h
    exact ⟨h.1, .condition ((Condition.holds_iff c _).1 h.2)⟩
  | group connective fs ih =>
    cases connective with
    | and =>
      rw [select_and] at h
      obtain ⟨hrow, hfs⟩ := mem_and_satisfies_of_mem_narrow (fun f hf _ => ih f hf) h
      exact ⟨hrow, .and hfs⟩
    | or =>
      rw [select_or] at h
      obtain ⟨f, hf, hrow⟩ := mem_branches.1 ((firsts_sublist _).subset h)
      exact ⟨(ih f hf hrow).1, .or hf (ih f hf hrow).2⟩
    | unknown =>
      rw [select_unknown] at h
      exact absurd h List.not_mem_nil

/-! ## Identities -/

theorem nodup_narrow {fs : List Filter}
    (h : ∀ f ∈ fs, ∀ rows : List α, (rows.map Row.id).Nodup →
      ((f.select mode rows).map Row.id).Nodup)
    {rows : List α} (hrows : (rows.map Row.id).Nodup) :
    ((narrow mode fs rows).map Row.id).Nodup := by
  induction fs generalizing rows with
  | nil => rwa [narrow]
  | cons f fs ih =>
    rw [List.forall_mem_cons] at h
    rw [narrow]
    exact ih h.2 (h.1 rows hrows)

/-- Rows of distinct identities are kept at most once. -/
theorem nodup_select (f : Filter) {rows : List α} (h : (rows.map Row.id).Nodup) :
    ((f.select mode rows).map Row.id).Nodup := by
  induction f generalizing rows with
  | condition c =>
    rw [select_condition]
    exact h.sublist (List.filter_sublist.map _)
  | group connective fs ih =>
    cases connective with
    | and =>
      rw [select_and]
      exact nodup_narrow (fun f hf _ => ih f hf) h
    | or =>
      rw [select_or]
      exact nodup_firsts _
    | unknown =>
      rw [select_unknown]
      exact List.nodup_nil

/-! ## What satisfies a filter -/

theorem mem_narrow_of_satisfies {fs : List Filter} {row : α}
    (h : ∀ f ∈ fs, ∀ rows : List α, (rows.map Row.id).Nodup → row ∈ rows → f.Satisfies mode row →
      row ∈ f.select mode rows)
    {rows : List α} (hrows : (rows.map Row.id).Nodup) (hrow : row ∈ rows)
    (hfs : ∀ f ∈ fs, f.Satisfies mode row) : row ∈ narrow mode fs rows := by
  induction fs generalizing rows with
  | nil => rwa [narrow]
  | cons f fs ih =>
    rw [List.forall_mem_cons] at h hfs
    rw [narrow]
    exact ih h.2 (nodup_select f hrows) (h.1 rows hrows hrow hfs.1) hfs.2

/-- A row that satisfies the filter is kept, if no other row has its
    identity. -/
theorem mem_select_of_satisfies {f : Filter} {rows : List α} {row : α}
    (h : (rows.map Row.id).Nodup) (hrow : row ∈ rows) (hf : f.Satisfies mode row) :
    row ∈ f.select mode rows := by
  induction f generalizing rows with
  | condition c =>
    cases hf with
    | condition hc =>
      rw [select_condition]
      exact List.mem_filter.2 ⟨hrow, (Condition.holds_iff c _).2 hc⟩
  | group connective fs ih =>
    cases hf with
    | and hfs =>
      rw [select_and]
      exact mem_narrow_of_satisfies (fun f hf _ h hrow => ih f hf h hrow) h hrow hfs
    | or hf hrowf =>
      -- The first row of this identity among the branches is the row itself,
      -- since all branches hold rows of `rows` only.
      rw [select_or]
      refine (mem_firsts fun a ha b hb => ?_).2 (mem_branches.2 ⟨_, hf, ih _ hf h hrow hrowf⟩)
      obtain ⟨_, _, ha⟩ := mem_branches.1 ha
      obtain ⟨_, _, hb⟩ := mem_branches.1 hb
      exact List.inj_on_of_nodup_map h (mem_and_satisfies_of_mem_select ha).1
        (mem_and_satisfies_of_mem_select hb).1

/-- Of rows with distinct identities, a filter keeps those that satisfy it, each
    of them once, whatever the other rows are. -/
theorem nodup_select_and_mem_iff (mode : DateEquality) (f : Filter) {rows : List α}
    (h : (rows.map Row.id).Nodup) :
    ((f.select mode rows).map Row.id).Nodup ∧
      (∀ row, row ∈ f.select mode rows ↔ row ∈ rows ∧ f.Satisfies mode row) ∧
      ∀ others : List α, (others.map Row.id).Nodup → ∀ row ∈ rows, row ∈ others →
        (row ∈ f.select mode rows ↔ row ∈ f.select mode others) := by
  have hmem (rows : List α) (h : (rows.map Row.id).Nodup) (row : α) :
      row ∈ f.select mode rows ↔ row ∈ rows ∧ f.Satisfies mode row :=
    ⟨mem_and_satisfies_of_mem_select, fun ⟨hrow, hf⟩ => mem_select_of_satisfies h hrow hf⟩
  refine ⟨nodup_select f h, hmem rows h, fun others hothers row hrow hother => ?_⟩
  rw [hmem rows h, hmem others hothers, and_iff_right hrow, and_iff_right hother]

/-- Three tasks; the last one has no state. -/
def tasks : List Record :=
  [.set "state" (.text "open") (.new "a"), .set "state" (.text "done") (.new "b"), .new "c"]

/-- Tasks that are done, and those that are not. -/
def doneOrNot : Filter :=
  group .or [condition ⟨"state", .equals, some (.text "done")⟩,
    condition ⟨"state", .notEquals, some (.text "done")⟩]

theorem nodup_select_doneOrNot_and_mem_iff :
    (tasks.map Row.id).Nodup ∧ ((doneOrNot.select .instant tasks).map Row.id).Nodup ∧
      (∀ row, row ∈ doneOrNot.select .instant tasks ↔
        row ∈ tasks ∧ doneOrNot.Satisfies .instant row) ∧
      ∀ others : List Record, (others.map Row.id).Nodup → ∀ row ∈ tasks, row ∈ others →
        (row ∈ doneOrNot.select .instant tasks ↔ row ∈ doneOrNot.select .instant others) := by
  have h : (tasks.map Row.id).Nodup := by decide
  exact ⟨h, nodup_select_and_mem_iff .instant doneOrNot h⟩

end Sift.Filter
