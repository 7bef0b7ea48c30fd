import Mathlib.Data.Set.Function
import Mathlib.Order.Defs.Unbundled
import Sift.Proofs.Sorted
import Sift.Tally

/-!
# The order of a listing

The values of a tally are listed by kind, and values of one kind by what they
compare by: their size, their time or their label. Only values with one label
compare as equal, so it is a strict total order on values with distinct labels, of
whatever kinds, and they are listed in it.

* `Value.Precedes`: the order in which values are listed, and
  `Count.compare_eq_lt_iff`: that `Count.compare` decides it;
* `Count.isStrictTotalOrder_compare`: that it is a strict total order on values
  with distinct labels;
* `listedBy_listed`, `listedBy_listedWithCounts`: that values are listed in it.
-/

namespace Sift

open Std (TransCmp TransOrd LawfulEqOrd OrientedCmp)

/-! ## Dates and instants -/

instance : Ord Date := ⟨Date.compare⟩

instance : TransOrd Date :=
  inferInstanceAs (TransCmp (compareLex (compareOn Date.year)
    (compareLex (compareOn Date.month) (compareOn Date.day))))

instance : LawfulEqOrd Date where
  eq_of_compare {a b} h := by
    obtain ⟨hyear, h⟩ := Ordering.then_eq_eq.1 h
    obtain ⟨hmonth, hday⟩ := Ordering.then_eq_eq.1 h
    obtain ⟨year, month, day, _, _⟩ := a
    obtain ⟨year', month', day', _, _⟩ := b
    obtain rfl := Std.compare_eq_iff_eq.1 hyear
    obtain rfl := Std.compare_eq_iff_eq.1 hmonth
    obtain rfl := Std.compare_eq_iff_eq.1 hday
    rfl

instance : Ord Instant := ⟨Instant.compare⟩

instance : TransOrd Instant :=
  inferInstanceAs (TransCmp (compareLex (compareOn Instant.date)
    (compareLex (compareOn fun i => i.second.val) (compareOn fun i => i.nanosecond.val))))

instance : LawfulEqOrd Instant where
  eq_of_compare {a b} h := by
    obtain ⟨hdate, h⟩ := Ordering.then_eq_eq.1 h
    obtain ⟨hsecond, hnanosecond⟩ := Ordering.then_eq_eq.1 h
    obtain ⟨date, second, nanosecond⟩ := a
    obtain ⟨date', second', nanosecond'⟩ := b
    obtain rfl : date = date' := Std.compare_eq_iff_eq.1 hdate
    obtain rfl := Fin.ext (Std.compare_eq_iff_eq.1 hsecond)
    obtain rfl := Fin.ext (Std.compare_eq_iff_eq.1 hnanosecond)
    rfl

/-! ## Values -/

namespace Value

/-- What booleans and numbers compare by. -/
def size : Value → Int
  | boolean b => b.toNat
  | number d => d.rank
  | _ => 0

/-- What dates compare by. -/
def time? : Value → Option Instant
  | date i => some i
  | _ => none

/-- What texts and tags compare by. -/
def word : Value → String
  | text s => s
  | option t => t.name
  | _ => ""

/-- The order in which values are listed: by kind, texts and tags as one kind, and
    within a kind by size, by time or, if it has neither, by label. -/
inductive Precedes : Value → Value → Prop
  | kind {v w : Value} : Count.kindRank v < Count.kindRank w → Precedes v w
  | boolean : Precedes (.boolean false) (.boolean true)
  | number {x y : Double} : x.rank < y.rank → Precedes (.number x) (.number y)
  | date {i j : Instant} : i.compare j = .lt → Precedes (.date i) (.date j)
  | label {v w : Value} : Count.kindRank v = Count.kindRank w → 3 ≤ Count.kindRank v →
    v.label < w.label → Precedes v w

end Value

namespace Count

variable {a b : Count}

theorem then_eq_left {o o' : Ordering} (h : o ≠ .eq) : o.then o' = o := by
  cases o with
  | eq => exact absurd rfl h
  | _ => rfl

/-- How two values compare: by kind if their kinds differ, and else by what values of
    this kind compare by. -/
inductive Compares : Value → Value → Ordering → Prop
  | kind {v w : Value} : kindRank v ≠ kindRank w →
    Compares v w (Ord.compare (kindRank v) (kindRank w))
  | boolean (x y : Bool) : Compares (.boolean x) (.boolean y) (Ord.compare x.toNat y.toNat)
  | number (x y : Double) : Compares (.number x) (.number y) (Ord.compare x.rank y.rank)
  | date (i j : Instant) : Compares (.date i) (.date j) (i.compare j)
  | label {v w : Value} : kindRank v = kindRank w → 3 ≤ kindRank v →
    Compares v w (Ord.compare v.label w.label)

theorem compares (a b : Count) : Compares a.value b.value (a.compare b) := by
  unfold compare
  split
  · rename_i x y ha hb
    rw [ha, hb]
    exact .number x y
  · rename_i i j ha hb
    rw [ha, hb]
    exact .date i j
  · rename_i x y ha hb
    rw [ha, hb]
    exact .boolean x y
  · rename_i hnumber hdate hboolean
    by_cases hkind : kindRank a.value = kindRank b.value
    · rw [Std.compare_eq_iff_eq.2 hkind]
      refine .label hkind ?_
      -- The first three kinds are those of the cases before, one constructor each.
      revert hnumber hdate hboolean hkind
      cases a.value <;> cases b.value <;> simp [kindRank]
    · rw [then_eq_left fun he => hkind (Std.compare_eq_iff_eq.1 he)]
      exact .kind hkind

variable {v w : Value} {o : Ordering}

theorem of_three_le_kindRank (h : 3 ≤ kindRank v) :
    v.size = 0 ∧ v.time? = none ∧ v.word = v.label := by
  cases v with
  | boolean _ | number _ | date _ => simp [kindRank] at h
  | _ => exact ⟨rfl, rfl, rfl⟩

/-- Values compare by four parts, one after the other: where they have one kind, by
    the part that is not the same for all values of this kind. -/
theorem Compares.eq_then (h : Compares v w o) : o =
    (Ord.compare (kindRank v) (kindRank w)).then ((Ord.compare v.size w.size).then
      ((Ord.compare v.time? w.time?).then (Ord.compare v.word w.word))) := by
  cases h with
  | kind hne => exact (then_eq_left fun he => hne (Std.compare_eq_iff_eq.1 he)).symm
  | boolean x y => cases x <;> cases y <;> rfl
  | number x y => exact Ordering.then_eq.symm
  | date i j => exact Ordering.then_eq.symm
  | label hkind hle =>
    obtain ⟨hsize, htime, hword⟩ := of_three_le_kindRank hle
    obtain ⟨hsize', htime', hword'⟩ := of_three_le_kindRank (hkind ▸ hle)
    rw [hkind, hsize, hsize', htime, htime', hword, hword']
    simp

instance : TransCmp compare := by
  have hlex : compare = compareLex (compareOn fun c => kindRank c.value)
      (compareLex (compareOn fun c => c.value.size) (compareLex (compareOn fun c => c.value.time?)
        (compareOn fun c => c.value.word))) :=
    funext fun a => funext fun b => (compares a b).eq_then
  rw [hlex]
  infer_instance

/-- Only values with one label compare as equal. -/
theorem Compares.label_eq (h : Compares v w .eq) : v.label = w.label := by
  generalize ho : Ordering.eq = o at h
  cases h with
  | kind hne => exact absurd (Std.compare_eq_iff_eq.1 ho.symm) hne
  | boolean x y =>
    revert ho
    cases x <;> cases y <;> decide
  | number x y => rw [Double.rank_injective (Std.compare_eq_iff_eq.1 ho.symm)]
  | date i j =>
    obtain rfl : i = j := Std.compare_eq_iff_eq.1 ho.symm
    rfl
  | label _ _ => exact Std.compare_eq_iff_eq.1 ho.symm

theorem Compares.eq_lt_iff (h : Compares v w o) : o = .lt ↔ v.Precedes w := by
  constructor
  · intro ho
    cases h with
    | kind _ => exact .kind (Nat.compare_eq_lt.1 ho)
    | boolean x y =>
      cases x <;> cases y
      case false.true => exact .boolean
      all_goals exact absurd ho (by decide)
    | number x y => exact .number (Std.compare_eq_lt.1 ho)
    | date i j => exact .date ho
    | label hkind hle => exact .label hkind hle (compareOfLessAndEq_eq_lt.1 ho)
  · intro hprecedes
    cases h with
    | kind hne =>
      cases hprecedes with
      | kind h => exact Nat.compare_eq_lt.2 h
      | label h _ _ => exact absurd h hne
      | _ => exact absurd rfl hne
    | boolean x y =>
      cases hprecedes with
      | kind h => exact absurd h (Nat.lt_irrefl 0)
      | boolean => rfl
      | label _ h _ => simp [kindRank] at h
    | number x y =>
      cases hprecedes with
      | kind h => exact absurd h (Nat.lt_irrefl 1)
      | number h => exact Std.compare_eq_lt.2 h
      | label _ h _ => simp [kindRank] at h
    | date i j =>
      cases hprecedes with
      | kind h => exact absurd h (Nat.lt_irrefl 2)
      | date h => exact h
      | label _ h _ => simp [kindRank] at h
    | label hkind hle =>
      cases hprecedes with
      | kind h => exact absurd hkind h.ne
      | label _ _ h => exact compareOfLessAndEq_eq_lt.2 h
      | _ => simp [kindRank] at hle

/-- The comparison decides the order. -/
theorem compare_eq_lt_iff (a b : Count) : a.compare b = .lt ↔ a.value.Precedes b.value :=
  (compares a b).eq_lt_iff

theorem label_eq_of_compare_eq (a b : Count) (h : a.compare b = .eq) : a.label = b.label :=
  (h ▸ compares a b).label_eq

/-- The order of values is a strict total one on values with distinct labels, of
    whatever kinds they are. -/
theorem isStrictTotalOrder_compare {s : Set Count} (hs : s.InjOn label) :
    IsStrictTotalOrder s fun a b => a.1.compare b.1 = .lt where
  trichotomous a b hab hba := by
    refine Subtype.ext (hs a.2 b.2 (label_eq_of_compare_eq _ _ ?_))
    cases h : a.1.compare b.1 with
    | lt => exact absurd h hab
    | eq => rfl
    | gt => exact absurd (OrientedCmp.lt_of_gt h) hba
  irrefl a h := absurd (h.symm.trans Std.ReflCmp.compare_self) Ordering.noConfusion
  trans a b c hab hbc := Std.TransCmp.lt_trans hab hbc

/-! ### The order by count -/

instance : TransCmp compareCounts :=
  inferInstanceAs (TransCmp (compareLex (fun a b => compareOn Count.count b a) compare))

theorem compareCounts_eq_lt_iff (a b : Count) : a.compareCounts b = .lt ↔
    b.count < a.count ∨ a.count = b.count ∧ a.value.Precedes b.value := by
  rw [compareCounts, Ordering.then_eq_lt, compare_eq_lt_iff, Nat.compare_eq_lt,
    Nat.compare_eq_eq, eq_comm (a := b.count)]

theorem label_eq_of_compareCounts_eq (a b : Count) (h : a.compareCounts b = .eq) :
    a.label = b.label :=
  label_eq_of_compare_eq a b (Ordering.then_eq_eq.1 h).2

end Count

/-! ## Listings -/

/-- Lines that show some counts, each of them once, in an order. -/
def ListedBy (order : Count → Count → Prop) (line : Count → String) (counts : List Count)
    (lines : List String) : Prop :=
  ∃ sorted : List Count, sorted.Perm counts ∧ sorted.Pairwise order ∧ lines = sorted.map line

section

variable {counts : List Count}

/-- Labels are listed in the order of values. -/
theorem listedBy_listed (h : (counts.map Count.label).Nodup) :
    ListedBy (fun a b => a.value.Precedes b.value) Count.label counts (listed counts) := by
  refine ⟨_, List.mergeSort_perm counts _, ?_, rfl⟩
  exact (pairwise_lt_mergeSort Count.label_eq_of_compare_eq h).imp
    (Count.compare_eq_lt_iff _ _).1

/-- Labels with their counts are listed in the order of the counts, the greatest
    first, and those with the same count in the order of values. -/
theorem listedBy_listedWithCounts (h : (counts.map Count.label).Nodup) :
    ListedBy (fun a b => b.count < a.count ∨ a.count = b.count ∧ a.value.Precedes b.value)
      (fun c => c.label ++ ": " ++ toString c.count) counts (listedWithCounts counts) := by
  refine ⟨_, List.mergeSort_perm counts _, ?_, rfl⟩
  exact (pairwise_lt_mergeSort Count.label_eq_of_compareCounts_eq h).imp
    (Count.compareCounts_eq_lt_iff _ _).1

end

end Sift
