import Mathlib.Data.List.Nodup
import Sift.Filter.Selection

/-!
# First rows

What is left of a list of rows when each identity counts where it comes first
(`firsts`).

* `nodup_firsts`, `exists_mem_firsts`: every identity is left, and only once;
* `mem_firsts`: no row is lost among rows that their identities tell apart;
* `firsts_append`: of what follows, only rows of new identities are left.

The identities `seen` before the rows only take rows away
(`firstsAfter_eq_filter`), so that all else is about `firsts`.
-/

namespace Sift

variable {α : Type} [Row α]

theorem firstsAfter_sublist (seen : List String) (rows : List α) :
    (firstsAfter seen rows).Sublist rows := by
  induction rows generalizing seen with
  | nil => exact .slnil
  | cons row rows ih =>
    rw [firstsAfter]
    split
    · exact (ih seen).cons _
    · exact (ih _).cons_cons _

theorem firsts_sublist (rows : List α) : (firsts rows).Sublist rows := firstsAfter_sublist [] rows

theorem id_notMem_of_mem_firstsAfter {seen : List String} {rows : List α} {row : α}
    (h : row ∈ firstsAfter seen rows) : Row.id row ∉ seen := by
  induction rows generalizing seen with
  | nil => exact absurd h List.not_mem_nil
  | cons first rows ih =>
    rw [firstsAfter] at h
    split at h
    · exact ih h
    · rename_i hfirst
      rcases List.mem_cons.1 h with rfl | h
      · exact hfirst
      · exact fun hseen => ih h (List.mem_cons_of_mem _ hseen)

theorem nodup_firstsAfter (seen : List String) (rows : List α) :
    ((firstsAfter seen rows).map Row.id).Nodup := by
  induction rows generalizing seen with
  | nil => exact .nil
  | cons row rows ih =>
    rw [firstsAfter]
    split
    · exact ih seen
    · refine List.nodup_cons.2 ⟨fun h => ?_, ih _⟩
      obtain ⟨later, hlater, he⟩ := List.mem_map.1 h
      exact id_notMem_of_mem_firstsAfter hlater (he ▸ List.mem_cons_self)

/-- No identity is left twice. -/
theorem nodup_firsts (rows : List α) : ((firsts rows).map Row.id).Nodup := nodup_firstsAfter [] rows

theorem exists_mem_firstsAfter {seen : List String} {rows : List α} {row : α} (h : row ∈ rows)
    (hseen : Row.id row ∉ seen) : ∃ first ∈ firstsAfter seen rows, Row.id first = Row.id row := by
  induction rows generalizing seen with
  | nil => exact absurd h List.not_mem_nil
  | cons first rows ih =>
    rw [firstsAfter]
    by_cases he : Row.id first = Row.id row
    · rw [he, if_neg hseen]
      exact ⟨first, List.mem_cons_self, he⟩
    · have hrow : row ∈ rows := (List.mem_cons.1 h).resolve_left fun e => he (e ▸ rfl)
      split
      · exact ih hrow hseen
      · have hnew : Row.id row ∉ Row.id first :: seen := fun hmem =>
          (List.mem_cons.1 hmem).elim (fun e => he e.symm) hseen
        obtain ⟨r, hr, hid⟩ := ih hrow hnew
        exact ⟨r, List.mem_cons_of_mem _ hr, hid⟩

/-- Every identity is left. -/
theorem exists_mem_firsts {rows : List α} {row : α} (h : row ∈ rows) :
    ∃ first ∈ firsts rows, Row.id first = Row.id row :=
  exists_mem_firstsAfter h List.not_mem_nil

/-- Among rows that their identities tell apart, no row is lost. -/
theorem mem_firsts {rows : List α} (h : ∀ a ∈ rows, ∀ b ∈ rows, Row.id a = Row.id b → a = b)
    {row : α} : row ∈ firsts rows ↔ row ∈ rows := by
  refine ⟨fun hrow => (firsts_sublist rows).subset hrow, fun hrow => ?_⟩
  obtain ⟨first, hfirst, he⟩ := exists_mem_firsts hrow
  exact h first ((firsts_sublist rows).subset hfirst) row hrow he ▸ hfirst

theorem firstsAfter_congr {s t : List String} (h : ∀ id, id ∈ s ↔ id ∈ t) (rows : List α) :
    firstsAfter s rows = firstsAfter t rows := by
  induction rows generalizing s t with
  | nil => rfl
  | cons row rows ih =>
    have hcons : ∀ id, id ∈ Row.id row :: s ↔ id ∈ Row.id row :: t := fun id => by
      rw [List.mem_cons, List.mem_cons, h]
    rw [firstsAfter, firstsAfter, ih h, ih hcons]
    simp only [h]

theorem firstsAfter_cons_of_mem {id : String} {seen : List String} (h : id ∈ seen)
    (rows : List α) : firstsAfter (id :: seen) rows = firstsAfter seen rows :=
  firstsAfter_congr (fun _ => ⟨fun hmem => (List.mem_cons.1 hmem).elim (fun e => e ▸ h) fun h => h,
    List.mem_cons_of_mem _⟩) rows

theorem firstsAfter_append_cons (extra seen : List String) (id : String) (rows : List α) :
    firstsAfter (extra ++ id :: seen) rows = firstsAfter (id :: (extra ++ seen)) rows :=
  firstsAfter_congr (fun _ => List.perm_middle.mem_iff) rows

theorem firstsAfter_append_seen (extra seen : List String) (rows : List α) :
    firstsAfter (extra ++ seen) rows =
      (firstsAfter seen rows).filter fun row => Row.id row ∉ extra := by
  induction rows generalizing seen with
  | nil => rfl
  | cons row rows ih =>
    rw [firstsAfter, firstsAfter]
    by_cases hseen : Row.id row ∈ seen
    · rw [if_pos (List.mem_append_right _ hseen), if_pos hseen, ih]
    · rw [if_neg hseen]
      by_cases hextra : Row.id row ∈ extra
      · have hmem : Row.id row ∈ extra ++ seen := List.mem_append_left _ hextra
        rw [if_pos hmem, List.filter_cons_of_neg (by simpa using hextra), ← ih,
          firstsAfter_append_cons, firstsAfter_cons_of_mem hmem]
      · rw [if_neg fun h => (List.mem_append.1 h).elim hextra hseen,
          List.filter_cons_of_pos (by simpa using hextra), ← ih, firstsAfter_append_cons]

/-- What was seen before only takes rows away. -/
theorem firstsAfter_eq_filter (seen : List String) (rows : List α) :
    firstsAfter seen rows = (firsts rows).filter fun row => Row.id row ∉ seen := by
  rw [firsts, ← firstsAfter_append_seen, List.append_nil]

theorem firstsAfter_append (seen : List String) (l r : List α) :
    firstsAfter seen (l ++ r) = firstsAfter seen l ++ firstsAfter (l.map Row.id ++ seen) r := by
  induction l generalizing seen with
  | nil => rfl
  | cons row l ih =>
    rw [List.cons_append, firstsAfter, firstsAfter, List.map_cons, List.cons_append]
    split
    · rename_i hseen
      rw [ih, firstsAfter_cons_of_mem (List.mem_append_right _ hseen)]
    · rw [ih, List.cons_append, firstsAfter_append_cons]

/-- Of the rows that follow others, only those of new identities are left. -/
theorem firsts_append (l r : List α) :
    firsts (l ++ r) = firsts l ++ (firsts r).filter fun row => Row.id row ∉ l.map Row.id := by
  rw [firsts, firstsAfter_append, List.append_nil, firstsAfter_eq_filter (l.map Row.id)]
  rfl

/-- Rows of distinct identities are all left. -/
theorem firsts_eq_self {rows : List α} (h : (rows.map Row.id).Nodup) : firsts rows = rows := by
  induction rows with
  | nil => rfl
  | cons row rows ih =>
    obtain ⟨hrow, hrows⟩ := List.nodup_cons.1 h
    rw [firsts, firstsAfter, if_neg List.not_mem_nil, firstsAfter_eq_filter, ih hrows,
      List.filter_eq_self.2]
    intro later hlater
    simp only [List.mem_singleton, decide_eq_true_eq]
    exact fun he => hrow (he ▸ List.mem_map_of_mem hlater)

end Sift
