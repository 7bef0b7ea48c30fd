import Sift.Proofs.Filter.Nodes
import Sift.Proofs.Selection.Typed

/-!
# Faults of a filter

A check stops at the first fault that it meets. What the faults of a node are is
said here apart from the check, and from what else is wrong with the node or
elsewhere in the filter.

* `Filter.HasFault`, `Filter.Faulty`: the faults of a node, and whether it has
  any;
* `Filter.FirstFault`: the fault of a node that comes before its other ones, in
  the order of `Filter.Fault.rank`;
* `Filter.FirstFaultIn`: the first fault of the first faulty one of some nodes;
* `Filter.check_condition_eq_error_iff`: a condition fails with its first fault;
* `Filter.exists_check_eq_error_iff_and_firstFaultIn`: a filter fails just if a
  node of it is faulty, with the first fault of the first such node.
-/

namespace Sift

variable {schema : Schema}

namespace Filter

/-! ## Faults of a node -/

/-- The faults of a node, each of them whatever else is wrong with it. Nothing
    is wrong with an operand that the comparator does not take. -/
inductive HasFault (schema : Schema) : Filter → Fault → Prop
  | unknownConnective {fs : List Filter} : HasFault schema (group .unknown fs) .unknownConnective
  | unknownComparator {c : Condition} : c.comparator = .unknown →
    HasFault schema (condition c) (.unknownComparator c.property)
  | unknownProperty {c : Condition} : schema.get? c.property = .none →
    HasFault schema (condition c) (.unknownProperty c.property)
  | comparatorNotAllowed {c : Condition} {t : PropertyType} : schema.get? c.property = some t →
    c.comparator ∉ t.comparators →
    HasFault schema (condition c) (.comparatorNotAllowed c.property c.comparator t)
  | missingOperand {c : Condition} : ¬c.comparator.isUnary → c.operand = .none →
    HasFault schema (condition c) (.missingOperand c.property c.comparator)
  | unfitOperand {c : Condition} {t : PropertyType} {x : Operand} : ¬c.comparator.isUnary →
    c.operand = some x → schema.get? c.property = some t → ¬x.Suits t →
    (t = .date → ∀ s, x ≠ .text s) →
    HasFault schema (condition c) (.unfitOperand c.property t x)
  | invalidDate {c : Condition} {s : String} : ¬c.comparator.isUnary →
    c.operand = some (.text s) → schema.get? c.property = some .date →
    Instant.ofText? s.toList = .none →
    HasFault schema (condition c) (.invalidDate c.property s)

/-- Whether something is wrong with a node. -/
def Faulty (schema : Schema) (node : Filter) : Prop := ∃ e, HasFault schema node e

/-- The place of a fault in the order in which the faults of a node count. -/
def Fault.rank : Fault → Nat
  | unknownConnective => 0
  | unknownComparator _ => 0
  | unknownProperty _ => 1
  | comparatorNotAllowed _ _ _ => 2
  | missingOperand _ _ => 3
  | unfitOperand _ _ _ => 4
  | invalidDate _ _ => 4

/-- The fault of a node that comes before its other ones. -/
structure FirstFault (schema : Schema) (node : Filter) (e : Fault) : Prop where
  hasFault : HasFault schema node e
  rank_le : ∀ e', HasFault schema node e' → e.rank ≤ e'.rank

/-- The first fault of the first faulty one of some nodes. -/
def FirstFaultIn (schema : Schema) (nodes : List Filter) (e : Fault) : Prop :=
  ∃ before node after, nodes = before ++ node :: after ∧ (∀ m ∈ before, ¬Faulty schema m) ∧
    FirstFault schema node e

theorem FirstFault.faulty {node : Filter} {e : Fault} (h : FirstFault schema node e) :
    Faulty schema node := ⟨e, h.hasFault⟩

theorem hasFault_group_iff {connective : Connective} {fs : List Filter} {e : Fault} :
    HasFault schema (group connective fs) e ↔ connective = .unknown ∧ e = .unknownConnective := by
  constructor
  · rintro ⟨⟩
    exact ⟨rfl, rfl⟩
  · rintro ⟨rfl, rfl⟩
    exact .unknownConnective

theorem faulty_group_iff {connective : Connective} {fs : List Filter} :
    Faulty schema (group connective fs) ↔ connective = .unknown :=
  ⟨fun ⟨_, he⟩ => (hasFault_group_iff.1 he).1, fun h => ⟨_, hasFault_group_iff.2 ⟨h, rfl⟩⟩⟩

/-- A node has at most one fault of each rank: two texts are no dates only if
    they are the same text, and a text in place of a date has no other fault. -/
theorem HasFault.eq_of_rank_eq {node : Filter} {e e' : Fault} (h : HasFault schema node e)
    (h' : HasFault schema node e') (hrank : e.rank = e'.rank) : e = e' := by
  cases h <;> cases h' <;> grind [Fault.rank]

/-- A node has one first fault. -/
theorem FirstFault.eq {node : Filter} {e e' : Fault} (h : FirstFault schema node e)
    (h' : FirstFault schema node e') : e = e' :=
  h.hasFault.eq_of_rank_eq h'.hasFault (Nat.le_antisymm (h.rank_le _ h'.hasFault)
    (h'.rank_le _ h.hasFault))

/-! ## Conditions -/

theorem not_suits_date (s : String) : ¬(Operand.text s).Suits .date := nofun

/-- An operand is resolved just if it is one for the type, or a text that names a
    date in place of a date. -/
theorem resolve_cases {c : Condition} {t : PropertyType} {x : Operand}
    (hbinary : ¬c.comparator.isUnary) (hx : c.operand = some x)
    (ht : schema.get? c.property = some t) :
    (∃ y, x.resolve c.property t = .ok y) ∧
        (x.Suits t ∨ ∃ s i, t = .date ∧ x = .text s ∧ Instant.ofText? s.toList = some i) ∨
      ∃ e, x.resolve c.property t = .error e ∧ HasFault schema (condition c) e ∧ e.rank = 4 := by
  by_cases hsuits : x.Suits t
  · exact .inl ⟨⟨x, Operand.resolve_of_suits hsuits _⟩, .inl hsuits⟩
  by_cases htext : t = .date ∧ ∃ s, x = .text s
  · obtain ⟨rfl, s, rfl⟩ := htext
    cases hi : Instant.ofText? s.toList with
    | some i => exact .inl ⟨⟨.date i, by rw [Operand.resolve, hi]⟩, .inr ⟨s, i, rfl, rfl, hi⟩⟩
    | none =>
      exact .inr ⟨_, by rw [Operand.resolve, hi], .invalidDate hbinary hx ht hi, rfl⟩
  · refine .inr ⟨.unfitOperand c.property t x, ?_, .unfitOperand hbinary hx ht hsuits
      fun hdate s hs => htext ⟨hdate, s, hs⟩, rfl⟩
    cases t <;> cases x <;> first | rfl | exact absurd (by constructor) hsuits | skip
    exact absurd ⟨rfl, _, rfl⟩ htext

/-- A condition passes the check if nothing is wrong with it, and fails with its
    first fault otherwise. -/
theorem check_cases (schema : Schema) (c : Condition) :
    (∃ d, c.check schema = .ok d) ∧ ¬Faulty schema (condition c) ∨
      ∃ e, c.check schema = .error e ∧ FirstFault schema (condition c) e := by
  -- Each test that the condition passes rules out the faults of one rank.
  rw [Condition.check]
  by_cases hknown : c.comparator = .unknown
  · rw [if_pos hknown]
    exact .inr ⟨_, rfl, .unknownComparator hknown, fun _ _ => Nat.zero_le _⟩
  rw [if_neg hknown]
  cases ht : schema.get? c.property with
  | none =>
    exact .inr ⟨_, rfl, .unknownProperty ht, fun e he => by cases he <;> grind [Fault.rank]⟩
  | some t =>
  dsimp only
  by_cases hoffered : c.comparator ∈ t.comparators
  · have hallows : t.allows c.comparator := List.contains_iff_mem.2 hoffered
    rw [hallows]
    simp only [Bool.not_true, Bool.false_eq_true, if_false]
    by_cases hunary : c.comparator.isUnary
    · rw [if_pos hunary]
      refine .inl ⟨⟨_, rfl⟩, ?_⟩
      rintro ⟨e, he⟩
      cases he <;> grind
    rw [if_neg hunary]
    cases hx : c.operand with
    | none =>
      exact .inr ⟨_, rfl, .missingOperand hunary hx, fun e he => by cases he <;> grind [Fault.rank]⟩
    | some x =>
      dsimp only
      rcases resolve_cases hunary hx ht with ⟨⟨y, hy⟩, hsuits⟩ | ⟨e, he, hfault, hrank⟩
      · rw [hy]
        refine .inl ⟨⟨_, rfl⟩, ?_⟩
        rintro ⟨e, he⟩
        cases he <;> grind [not_suits_date]
      · rw [he]
        exact .inr ⟨e, rfl, hfault, fun e he => by cases he <;> grind [Fault.rank]⟩
  · have hallows : t.allows c.comparator = false :=
      Bool.eq_false_iff.2 fun h => hoffered (List.contains_iff_mem.1 h)
    rw [hallows]
    exact .inr ⟨_, rfl, .comparatorNotAllowed ht hoffered,
      fun e he => by cases he <;> grind [Fault.rank]⟩

theorem check_condition_eq_error_iff {c : Condition} {e : Fault} :
    (condition c).check schema = .error e ↔ FirstFault schema (condition c) e := by
  rw [check]
  rcases check_cases schema c with ⟨⟨d, hd⟩, hsound⟩ | ⟨e', he', hfirst⟩
  · rw [hd]
    exact ⟨fun h => absurd h (by simp [Except.map]), fun h => absurd h.faulty hsound⟩
  · rw [he']
    constructor
    · intro h
      cases h
      exact hfirst
    · intro h
      rw [h.eq hfirst]
      rfl

/-- A node that is faulty has a first fault. -/
theorem Faulty.exists_firstFault {node : Filter} (h : Faulty schema node) :
    ∃ e, FirstFault schema node e := by
  cases node with
  | condition c =>
    rcases check_cases schema c with ⟨-, hsound⟩ | ⟨e, -, hfirst⟩
    · exact absurd h hsound
    · exact ⟨e, hfirst⟩
  | group connective fs =>
    obtain ⟨e, he⟩ := h
    obtain ⟨rfl, rfl⟩ := hasFault_group_iff.1 he
    exact ⟨_, he, fun _ _ => Nat.zero_le _⟩

theorem exists_firstFault_iff {node : Filter} :
    (∃ e, FirstFault schema node e) ↔ Faulty schema node :=
  ⟨fun ⟨_, he⟩ => he.faulty, Faulty.exists_firstFault⟩

/-! ## Nodes in order -/

section

variable {ns ms : List Filter} {node : Filter} {e : Fault}

/-- The first fault of some nodes is that of the first one that has a first
    fault. -/
theorem firstFaultIn_iff : FirstFaultIn schema ns e ↔ FirstOf (FirstFault schema) ns e := by
  simp only [FirstFaultIn, FirstOf, ← exists_firstFault_iff, not_exists]

theorem not_firstFaultIn_nil : ¬FirstFaultIn schema [] e := by
  rw [firstFaultIn_iff]
  exact not_firstOf_nil

theorem firstFaultIn_cons : FirstFaultIn schema (node :: ns) e ↔
    FirstFault schema node e ∨ ¬Faulty schema node ∧ FirstFaultIn schema ns e := by
  rw [firstFaultIn_iff, firstOf_cons, firstFaultIn_iff, ← exists_firstFault_iff, not_exists]

theorem firstFaultIn_singleton : FirstFaultIn schema [node] e ↔ FirstFault schema node e := by
  rw [firstFaultIn_cons]
  exact or_iff_left fun h => not_firstFaultIn_nil h.2

theorem firstFaultIn_append : FirstFaultIn schema (ns ++ ms) e ↔
    FirstFaultIn schema ns e ∨ (∀ n ∈ ns, ¬Faulty schema n) ∧ FirstFaultIn schema ms e := by
  induction ns with
  | nil => simp [not_firstFaultIn_nil]
  | cons n ns ih =>
    rw [List.cons_append, firstFaultIn_cons, firstFaultIn_cons, ih, List.forall_mem_cons]
    tauto

/-- Of faulty nodes, one is the first. -/
theorem exists_firstFaultIn_iff :
    (∃ e, FirstFaultIn schema ns e) ↔ ∃ n ∈ ns, Faulty schema n := by
  simp only [firstFaultIn_iff, exists_firstOf_iff, exists_firstFault_iff]

end

/-! ## Filters -/

/-- Just the filters without faulty nodes pass the check, if the others fail with
    their first fault. -/
theorem exists_check_eq_ok_iff_of_forall {f : Filter}
    (h : ∀ e, f.check schema = .error e ↔ FirstFaultIn schema f.nodes e) :
    (∃ g, f.check schema = .ok g) ↔ ∀ n ∈ f.nodes, ¬Faulty schema n := by
  rw [Except.exists_eq_ok_iff, exists_congr h, exists_firstFaultIn_iff]
  simp

theorem checkAll_eq_error_iff {fs : List Filter}
    (h : ∀ f ∈ fs, ∀ e, f.check schema = .error e ↔ FirstFaultIn schema f.nodes e) {e : Fault} :
    checkAll schema fs = .error e ↔ FirstFaultIn schema (nodesIn fs) e := by
  induction fs with
  | nil =>
    rw [checkAll, nodesIn, iff_false_right not_firstFaultIn_nil]
    intro h
    cases h
  | cons f fs ih =>
    rw [List.forall_mem_cons] at h
    have hpass := exists_check_eq_ok_iff_of_forall h.1
    rw [checkAll, Except.bind_eq_error, nodesIn, firstFaultIn_append, ← h.1, ← ih h.2, ← hpass]
    -- Once the first filter has passed, only the others can fail.
    simp only [Except.bind_pure_eq_error, ← exists_and_right]

/-- A filter fails with the first fault of its first faulty node. -/
theorem check_eq_error_iff_firstFaultIn {f : Filter} {e : Fault} :
    f.check schema = .error e ↔ FirstFaultIn schema f.nodes e := by
  induction f generalizing e with
  | condition c => rw [check_condition_eq_error_iff, nodes, firstFaultIn_singleton]
  | group connective fs ih =>
    rw [nodes, firstFaultIn_cons, faulty_group_iff]
    have hfirst : FirstFault schema (group connective fs) e ↔
        connective = .unknown ∧ e = .unknownConnective := by
      refine ⟨fun h => hasFault_group_iff.1 h.hasFault, ?_⟩
      rintro ⟨hc, rfl⟩
      exact ⟨hasFault_group_iff.2 ⟨hc, rfl⟩, fun _ _ => Nat.zero_le _⟩
    have hall := checkAll_eq_error_iff (fun f hf e => ih f hf) (e := e)
    cases connective with
    | unknown =>
      rw [check, hfirst]
      simp [eq_comm]
    | and =>
      rw [check, Except.map_eq_error, hall, hfirst]
      simp
    | or =>
      rw [check, Except.map_eq_error, hall, hfirst]
      simp

/-- A check fails just if a node of the filter is faulty, and what it fails with
    is the first fault of the first faulty node. -/
theorem exists_check_eq_error_iff_and_firstFaultIn (schema : Schema) (f : Filter) :
    ((∃ e, f.check schema = .error e) ↔ ∃ node ∈ f.nodes, Faulty schema node) ∧
      ∀ e, f.check schema = .error e ↔ FirstFaultIn schema f.nodes e := by
  refine ⟨?_, fun e => check_eq_error_iff_firstFaultIn⟩
  rw [exists_congr fun _ => check_eq_error_iff_firstFaultIn, exists_firstFaultIn_iff]

-- The faulty group comes before the faults in it, and the type of a property
-- before what is compared with it.
example : (group .and [condition ⟨"title", .isEmpty, some (.boolean true)⟩,
      group .unknown [condition ⟨"nope", .equals, .none⟩]]).check .stock =
        .error .unknownConnective ∧
    (group .or [condition ⟨"checkbox", .before, .none⟩, group .unknown []]).check .stock =
        .error (.comparatorNotAllowed "checkbox" .before .boolean) := ⟨rfl, rfl⟩

end Filter

end Sift
