import Mathlib.Data.List.Forall2
import Sift.Proofs.Query.Grammar
import Sift.Proofs.Query.RoundTrip

/-!
# Conditions in order

The conditions of a filter, from left to right. They are what is left of it when
its groups are forgotten, and in which filters that are not the same can differ
early or late.

* `Filter.conditions`: the conditions, and `Filter.conditions_flattened`: that
  flattening keeps them;
* `Filter.normal_of_flat`: a flat filter is in its normal form if its conditions
  are;
* `Diverge`: two lists of conditions with a difference at some place, as the
  same filters cannot have it (`forall₂_conditions_of_same`).
-/

namespace Sift

open Text

/-! ## Conditions -/

namespace Filter

mutual

/-- The conditions of a filter, from left to right. -/
def conditions : Filter → List Condition
  | condition c => [c]
  | group _ fs => conditionsIn fs
termination_by structural f => f

/-- The conditions of the filters of a group. -/
def conditionsIn : List Filter → List Condition
  | [] => []
  | f :: fs => f.conditions ++ conditionsIn fs
termination_by structural fs => fs

end

theorem conditionsIn_append (fs gs : List Filter) :
    conditionsIn (fs ++ gs) = conditionsIn fs ++ conditionsIn gs := by
  induction fs with
  | nil => rw [conditionsIn, List.nil_append, List.nil_append]
  | cons f fs ih => rw [List.cons_append, conditionsIn, conditionsIn, ih, List.append_assoc]

theorem conditionsIn_singleton (f : Filter) : conditionsIn [f] = f.conditions := by
  rw [conditionsIn, conditionsIn, List.append_nil]

theorem conditionsIn_within (connective : Connective) (f : Filter) :
    conditionsIn (f.within connective) = f.conditions := by
  cases f with
  | condition c => rw [within, conditionsIn_singleton]
  | group k fs =>
    rw [within]
    split
    · rw [conditions]
    · rw [conditionsIn_singleton]

theorem conditions_grouped (connective : Connective) (fs : List Filter) :
    (grouped connective fs).conditions = conditionsIn fs := by
  unfold grouped
  split
  · rw [conditionsIn_singleton]
  · rw [conditions]

/-- Flattening keeps all conditions, in their order. -/
theorem conditions_flattened (f : Filter) : f.flattened.conditions = f.conditions := by
  induction f with
  | condition c => rw [flattened]
  | group connective fs ih =>
    rw [flattened, conditions_grouped, conditions]
    induction fs with
    | nil => rw [flattenedIn]
    | cons f fs ihs =>
      rw [List.forall_mem_cons] at ih
      rw [flattenedIn, conditionsIn_append, conditionsIn_within, ih.1, ihs ih.2, conditionsIn]

theorem mem_conditionsIn {c : Condition} {fs : List Filter} :
    c ∈ conditionsIn fs ↔ ∃ f ∈ fs, c ∈ f.conditions := by
  induction fs with
  | nil => simp [conditionsIn]
  | cons f fs ih => simp [conditionsIn, ih]

/-- Flat filters stand in a query as they are if their conditions do. -/
theorem normal_of_flat {f : Filter} (hf : f.Flat) (h : ∀ c ∈ f.conditions, c.Normal) :
    f.Normal := by
  induction hf with
  | @condition c =>
    rw [conditions] at h
    exact .condition (h c List.mem_cons_self)
  | group hconnective hlength _ hown ih =>
    rw [conditions] at h
    refine .group hconnective hlength (fun f hf => ih f hf fun c hc => h c ?_) hown
    exact mem_conditionsIn.2 ⟨f, hf, hc⟩

theorem normal_of_mem_conditions {f : Filter} (hf : f.Normal) : ∀ c ∈ f.conditions, c.Normal := by
  induction hf with
  | condition hc =>
    rw [conditions, List.forall_mem_singleton]
    exact hc
  | group _ _ _ _ ih =>
    intro c hc
    rw [conditions] at hc
    obtain ⟨f, hf, hc⟩ := mem_conditionsIn.1 hc
    exact ih f hf c hc

end Filter

namespace Query

theorem conditionsIn_spliced (connective : Connective) (fs : List Filter) :
    Filter.conditionsIn (spliced connective fs) = Filter.conditionsIn fs := by
  induction fs with
  | nil => rw [spliced]
  | cons f fs ih =>
    rw [Filter.conditionsIn]
    cases f with
    | condition c =>
      rw [spliced, Filter.conditionsIn, ih]
      exact fun _ _ => Filter.noConfusion
    | group k gs =>
      rw [spliced, Filter.conditions]
      split
      · rw [Filter.conditionsIn_append, ih]
      · rw [Filter.conditionsIn, Filter.conditions, ih]

theorem conditions_join (connective : Connective) (fs : List Filter) :
    (join connective fs).conditions = Filter.conditionsIn fs := by
  unfold join
  split
  · rw [Filter.conditionsIn_singleton]
  · rw [Filter.conditions, conditionsIn_spliced]

/-! ## Divergence -/

/-- Two lists of conditions with a difference at some place. -/
inductive Diverge : List Condition → List Condition → Prop
  | here {c d : Condition} {cs ds : List Condition} : c.same d = false →
    Diverge (c :: cs) (d :: ds)
  | there {c d : Condition} {cs ds : List Condition} : Diverge cs ds → Diverge (c :: cs) (d :: ds)

namespace Diverge

variable {cs ds : List Condition}

theorem append_right (h : Diverge cs ds) (xs ys : List Condition) :
    Diverge (cs ++ xs) (ds ++ ys) := by
  induction h with
  | here h => exact .here h
  | there _ ih => exact .there ih

theorem extend (h : Diverge cs ds) (xs : List Condition) : Diverge (cs ++ xs) ds := by
  have happend := h.append_right xs []
  rwa [List.append_nil] at happend

theorem append_left (h : Diverge cs ds) (us : List Condition) : Diverge (us ++ cs) (us ++ ds) := by
  induction us with
  | nil => exact h
  | cons u us ih => exact .there ih

theorem not_forall₂ (h : Diverge cs ds) : ¬List.Forall₂ (fun c d => c.same d) cs ds := by
  induction h with
  | here h =>
    intro hall
    cases hall with
    | cons hsame _ => exact absurd hsame (by rw [h]; exact Bool.false_ne_true)
  | there _ ih =>
    intro hall
    cases hall with
    | cons _ hall => exact ih hall

end Diverge

theorem property_eq_of_same {c d : Condition} (h : c.same d) : c.property = d.property := by
  rw [Condition.same, Bool.and_eq_true, Bool.and_eq_true, decide_eq_true_eq] at h
  exact h.1.1

theorem forall₂_conditionsIn {fs gs : List Filter}
    (h : ∀ f ∈ fs, ∀ g : Filter, f.same g →
      List.Forall₂ (fun c d : Condition => c.same d) f.conditions g.conditions)
    (hsame : Filter.sameAll fs gs) : List.Forall₂ (fun c d : Condition => c.same d)
      (Filter.conditionsIn fs) (Filter.conditionsIn gs) := by
  induction fs generalizing gs with
  | nil =>
    cases gs with
    | nil => exact .nil
    | cons => exact absurd hsame (by simp [Filter.sameAll])
  | cons f fs ih =>
    rw [List.forall_mem_cons] at h
    cases gs with
    | nil => exact absurd hsame (by simp [Filter.sameAll])
    | cons g gs =>
      rw [Filter.sameAll, Bool.and_eq_true] at hsame
      rw [Filter.conditionsIn, Filter.conditionsIn]
      exact List.rel_append (h.1 g hsame.1) (ih h.2 hsame.2)

/-- The conditions of the same filters are the same, one after the other. -/
theorem forall₂_conditions_of_same {f g : Filter} (h : f.same g) :
    List.Forall₂ (fun c d : Condition => c.same d) f.conditions g.conditions := by
  induction f generalizing g with
  | condition c =>
    cases g with
    | condition d =>
      rw [Filter.same] at h
      rw [Filter.conditions, Filter.conditions]
      exact .cons h .nil
    | group => exact absurd h (by simp [Filter.same])
  | group k fs ih =>
    cases g with
    | condition => exact absurd h (by simp [Filter.same])
    | group l gs =>
      rw [Filter.same, Bool.and_eq_true] at h
      rw [Filter.conditions, Filter.conditions]
      exact forall₂_conditionsIn (fun f hf g => ih f hf) h.2

/-! ## Filters that equal themselves -/

/-- Finite numbers equal themselves. -/
theorem equals_self {d : Double} (hd : d.isFinite) : d.equals d := by
  have hnan : d.isNaN = false := by
    rw [Double.isFinite, decide_eq_true_eq] at hd
    rw [Double.isNaN, decide_eq_false_iff_not]
    omega
  rw [Double.equals, hnan, beq_self_eq_true]
  rfl

theorem same_self_of_printable {x : Operand} (hx : x.Printable) : x.same x := by
  cases x with
  | number d => exact equals_self hx
  | boolean b => exact decide_eq_true rfl
  | text s => exact decide_eq_true rfl
  | list names => exact decide_eq_true rfl
  | date i => exact decide_eq_true rfl

theorem same_self_of_condition {c : Condition} (hc : c.Normal) : c.same c := by
  rw [Condition.same, decide_eq_true rfl, decide_eq_true rfl, Bool.and_self, Bool.true_and]
  cases hoperand : c.operand with
  | none => rfl
  | some x => exact same_self_of_printable (hc.printable x hoperand)

theorem sameAll_self {fs : List Filter} (h : ∀ f ∈ fs, f.same f) : Filter.sameAll fs fs := by
  induction fs with
  | nil => rw [Filter.sameAll]
  | cons f fs ih =>
    rw [List.forall_mem_cons] at h
    rw [Filter.sameAll, h.1, ih h.2, Bool.and_self]

/-- Filters that stand in a query as they are are the same as themselves: they
    have no NaN. -/
theorem same_self {f : Filter} (hf : f.Normal) : f.same f := by
  induction hf with
  | condition hc =>
    rw [Filter.same]
    exact same_self_of_condition hc
  | group _ _ _ _ ih =>
    rw [Filter.same, decide_eq_true rfl, Bool.true_and]
    exact sameAll_self ih

end Query

end Sift
