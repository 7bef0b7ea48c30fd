import Mathlib.Data.List.Sort

/-!
# Sorted lists

Lists that are sorted by a comparison. Where only elements with the same key compare
as equal and no key repeats, a sorted list is strictly so, and there is one such list
of some elements, in whatever order they come.

* `pairwise_lt_mergeSort`: sorting gives a strictly sorted list;
* `eq_of_perm_of_pairwise_lt`: there is one strictly sorted list of some elements.
-/

namespace Sift

open Std (TransCmp OrientedCmp)

variable {α : Type} {cmp : α → α → Ordering} [TransCmp cmp] {l l' : List α}

theorem pairwise_isLE_mergeSort (l : List α) :
    (l.mergeSort fun a b => (cmp a b).isLE).Pairwise fun a b => (cmp a b).isLE :=
  List.pairwise_mergeSort (fun _ _ _ => TransCmp.isLE_trans) (fun a b => by
    have hswap : cmp b a = (cmp a b).swap := OrientedCmp.eq_swap
    rw [hswap]
    cases cmp a b <;> rfl) l

/-- Where only elements with the same key compare as equal, distinct keys are sorted
    strictly. -/
theorem pairwise_lt_mergeSort {key : α → String} (hkey : ∀ a b, cmp a b = .eq → key a = key b)
    (h : (l.map key).Nodup) :
    (l.mergeSort fun a b => (cmp a b).isLE).Pairwise fun a b => cmp a b = .lt := by
  have hne : (l.mergeSort fun a b => (cmp a b).isLE).Pairwise fun a b => key a ≠ key b :=
    List.pairwise_map.1 (((List.mergeSort_perm l _).map key).nodup_iff.2 h)
  refine ((pairwise_isLE_mergeSort l).and hne).imp ?_
  rintro a b ⟨hle, hne⟩
  cases hab : cmp a b with
  | lt => rfl
  | eq => exact absurd (hkey a b hab) hne
  | gt => simp [hab] at hle

/-- There is one strictly sorted list of some elements. -/
theorem eq_of_perm_of_pairwise_lt (hperm : l.Perm l') (h : l.Pairwise fun a b => cmp a b = .lt)
    (h' : l'.Pairwise fun a b => cmp a b = .lt) : l = l' :=
  hperm.eq_of_pairwise (fun a b _ _ hab hba => by
    have hswap : cmp b a = (cmp a b).swap := OrientedCmp.eq_swap
    rw [hab, hba] at hswap
    cases hswap) h h'

end Sift
