import Sift.Proofs.Selection.Repeated
import Sift.Query.Reader

/-!
# Groups in groups

A group in a group of the same connective has the filters in it do what they
would do in the outer group themselves: an `and` group hands its rows from
filter to filter in any case, and of the rows that an `or` group in the middle of
branches leaves out, each one has an identity that comes up earlier.

* `firsts_firsts_append`: the first rows of each identity stay the same if only
  these are left of some rows in between;
* `Filter.select_group_splice`: a group selects as the group in which a group of
  the same connective is dissolved;
* `Filter.Context`, `Filter.select_fill`: the same anywhere inside a filter;
* `Filter.select_join_and_select_fill_splice`: joined filters select as their
  group, and dissolving a group anywhere changes no selection.
-/

namespace Sift

variable {α : Type} [Row α]

/-! ## First rows -/

theorem firsts_firsts (rows : List α) : firsts (firsts rows) = firsts rows :=
  firsts_eq_self (nodup_firsts rows)

/-- The first rows have all identities. -/
theorem mem_map_id_firsts {rows : List α} {id : String} :
    id ∈ (firsts rows).map Row.id ↔ id ∈ rows.map Row.id := by
  refine ⟨fun h => ((firsts_sublist rows).map Row.id).subset h, fun h => ?_⟩
  obtain ⟨row, hrow, rfl⟩ := List.mem_map.1 h
  obtain ⟨first, hfirst, he⟩ := exists_mem_firsts hrow
  exact he ▸ List.mem_map_of_mem hfirst

/-- Which identities come up before other rows does not change with the rows
    that repeat them. -/
theorem firsts_firsts_append (l r : List α) : firsts (firsts l ++ r) = firsts (l ++ r) := by
  rw [firsts_append, firsts_append, firsts_firsts]
  simp only [mem_map_id_firsts]

theorem firsts_append_right {l r s : List α} (h : firsts r = firsts s) :
    firsts (l ++ r) = firsts (l ++ s) := by rw [firsts_append, firsts_append, h]

namespace Filter

variable {mode : DateEquality}

/-! ## Lists of filters -/

theorem narrow_append (fs gs : List Filter) (rows : List α) :
    narrow mode (fs ++ gs) rows = narrow mode gs (narrow mode fs rows) := by
  induction fs generalizing rows with
  | nil => rw [List.nil_append, narrow]
  | cons f fs ih => rw [List.cons_append, narrow, narrow, ih]

theorem branches_append (fs gs : List Filter) (rows : List α) :
    branches mode (fs ++ gs) rows = branches mode fs rows ++ branches mode gs rows := by
  induction fs with
  | nil => rw [List.nil_append, branches, List.nil_append]
  | cons f fs ih => rw [List.cons_append, branches, branches, ih, List.append_assoc]

/-- A group selects as the group in which a group of the same connective among
    its filters is dissolved. -/
theorem select_group_splice (connective : Connective) (before inner after : List Filter)
    (rows : List α) :
    (group connective (before ++ group connective inner :: after)).select mode rows =
      (group connective (before ++ (inner ++ after))).select mode rows := by
  cases connective with
  | and => rw [select_and, select_and, narrow_append, narrow_append, narrow, select_and,
      narrow_append]
  | or =>
    rw [select_or, select_or, branches_append, branches_append, branches, select_or,
      branches_append]
    exact firsts_append_right (firsts_firsts_append _ _)
  | unknown => rw [select_unknown, select_unknown]

/-- All groups of the same connective among the filters of a group can be
    dissolved at once. -/
theorem select_group_spliced (connective : Connective) (before fs : List Filter) (rows : List α) :
    (group connective (before ++ Query.spliced connective fs)).select mode rows =
      (group connective (before ++ fs)).select mode rows := by
  -- What has been looked at joins the filters before.
  induction fs generalizing before with
  | nil => rw [Query.spliced]
  | cons f fs ih =>
    have hkept (g : Filter) : (group connective (before ++ g :: Query.spliced connective fs)).select
        mode rows = (group connective (before ++ g :: fs)).select mode rows := by
      have happend := ih (before ++ [g])
      rwa [List.append_assoc, List.append_assoc] at happend
    cases f with
    | condition c =>
      rw [Query.spliced, hkept]
      exact fun _ _ => Filter.noConfusion
    | group k gs =>
      rw [Query.spliced]
      split
      · rename_i hk
        subst hk
        rw [← List.append_assoc, ih, List.append_assoc, select_group_splice]
      · rw [hkept]

theorem select_join {connective : Connective} {fs : List Filter} (h : 2 ≤ fs.length)
    (rows : List α) :
    (Query.join connective fs).select mode rows = (group connective fs).select mode rows := by
  obtain ⟨f, g, fs, rfl⟩ : ∃ f g gs, fs = f :: g :: gs := by
    match fs, h with
    | f :: g :: gs, _ => exact ⟨f, g, gs, rfl⟩
  exact select_group_spliced connective [] (f :: g :: fs) rows

/-! ## Contexts -/

/-- A filter with a hole in the place of one of its nodes. -/
inductive Context where
  | hole
  | inside (connective : Connective) (before : List Filter) (context : Context)
    (after : List Filter)

/-- The filter with another filter in the place of the hole. -/
def Context.fill : Context → Filter → Filter
  | hole, f => f
  | inside connective before context after, f =>
    group connective (before ++ context.fill f :: after)

/-- Filters that select the same select the same in any context. -/
theorem select_fill {f g : Filter}
    (h : ∀ rows : List α, f.select mode rows = g.select mode rows) (context : Context)
    (rows : List α) : (context.fill f).select mode rows = (context.fill g).select mode rows := by
  induction context generalizing rows with
  | hole => exact h rows
  | inside connective before context after ih =>
    rw [Context.fill, Context.fill]
    cases connective with
    | and => rw [select_and, select_and, narrow_append, narrow_append, narrow, narrow, ih]
    | or => rw [select_or, select_or, branches_append, branches_append, branches, branches, ih]
    | unknown => rw [select_unknown, select_unknown]

/-- Two filters or more select joined as in their group, whatever the rows are,
    and a group anywhere in a filter can be dissolved in a group of the same
    connective around it. -/
theorem select_join_and_select_fill_splice (mode : DateEquality) (connective : Connective)
    (rows : List α) :
    (∀ fs : List Filter, 2 ≤ fs.length →
      (Query.join connective fs).select mode rows = (group connective fs).select mode rows) ∧
    ∀ (context : Context) (before inner after : List Filter),
      (context.fill (group connective (before ++ (inner ++ after)))).select mode rows =
        (context.fill (group connective (before ++ group connective inner :: after))).select mode
          rows :=
  ⟨fun _ h => select_join h rows, fun context before inner after =>
    select_fill (fun rows => (select_group_splice connective before inner after rows).symm) context
      rows⟩

/-- Tasks that are open, have no owner or are late. -/
def openOrUnowned : Filter :=
  group .or [isOpen, group .or [condition ⟨"owner", .isEmpty, .none⟩,
    condition ⟨"state", .equals, some (.text "late")⟩]]

theorem select_join_openOrUnowned :
    2 ≤ [openOrUnowned, doneAndStated].length ∧
      (Query.join .or [openOrUnowned, doneAndStated]).select .instant revisions =
        (group .or [openOrUnowned, doneAndStated]).select .instant revisions ∧
      (group .and [group .or [isOpen, condition ⟨"owner", .isEmpty, .none⟩,
          condition ⟨"state", .equals, some (.text "late")⟩], doneAndStated]).select .instant
            revisions =
        (group .and [openOrUnowned, doneAndStated]).select .instant revisions := by
  have hlength : 2 ≤ [openOrUnowned, doneAndStated].length := by decide
  obtain ⟨hjoin, hsplice⟩ := select_join_and_select_fill_splice .instant .or revisions
  exact ⟨hlength, hjoin _ hlength, hsplice (.inside .and [] .hole [doneAndStated]) [isOpen]
    [condition ⟨"owner", .isEmpty, .none⟩, condition ⟨"state", .equals, some (.text "late")⟩] []⟩

-- A single filter is joined to itself, and does not lose rows with the same identity.
example : ((Query.join .or [isOpen]).select .instant revisions).map Row.id ≠
    ((group .or [isOpen]).select .instant revisions).map Row.id := by decide

end Filter

end Sift
