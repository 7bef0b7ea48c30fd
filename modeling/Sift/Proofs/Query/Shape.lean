import Sift.Proofs.Filter.Nodes
import Sift.Proofs.Query.ReadBack

/-!
# The shape of queries

Which trees queries stand for. Chains are flattened as they are read, one level
at a time, and what is read in parentheses joins a chain like any other filter;
so a chain has to find its operands flat to leave a flat tree itself
(`flat_of_parse`).

* `Filter.Flat.of_mem_nodes`: all nodes of a flat tree are flat;
* `shape_of_parse`: the groups and the conditions in the tree of a query.
-/

namespace Sift

/-- The nodes of a flat tree are flat trees. -/
theorem Filter.Flat.of_mem_nodes {f node : Filter} (hf : f.Flat) (h : node ∈ f.nodes) :
    node.Flat := by
  induction hf with
  | condition =>
    rw [mem_nodes_condition] at h
    exact h ▸ .condition
  | group hconnective hlength hfs hown ih =>
    rcases mem_nodes_group.1 h with rfl | ⟨f, hf, hnode⟩
    · exact .group hconnective hlength hfs hown
    · exact ih f hf hnode

/-- The conditions of a filter are those among its nodes. -/
theorem Filter.mem_conditions_iff {f : Filter} {c : Condition} :
    c ∈ f.conditions ↔ condition c ∈ f.nodes := by
  induction f with
  | condition d => simp [conditions, mem_nodes_condition]
  | group connective fs ih =>
    rw [conditions, mem_conditionsIn, mem_nodes_group]
    simp only [reduceCtorEq, false_or]
    exact exists_congr fun f => and_congr_right fun hf => ih f hf

namespace Query

theorem operand_eq_none_iff {c : Condition} {ts : List (List Char)} (h : SpellsCondition c ts) :
    c.operand = none ↔ c.comparator = .isEmpty ∨ c.comparator = .isNotEmpty := by
  rw [← Option.not_isSome_iff_eq_none, isSome_operand_iff h, not_not, Comparator.isUnary,
    Bool.or_eq_true, decide_eq_true_eq, decide_eq_true_eq]

/-- In the tree of a query, every group is joined by `and` or `or`, has at least
    two filters, and none of these is a group of the same connective; and every
    condition has an operand unless it asks whether something is empty. -/
theorem shape_of_parse {text : String} {f : Filter} (h : parse text = .ok f) :
    (∀ connective fs, .group connective fs ∈ f.nodes →
      (connective = .and ∨ connective = .or) ∧ 2 ≤ fs.length ∧ ∀ gs, .group connective gs ∉ fs) ∧
    ∀ c, .condition c ∈ f.nodes →
      (c.operand = none ↔ c.comparator = .isEmpty ∨ c.comparator = .isNotEmpty) := by
  obtain ⟨hflat, hspells⟩ := flat_of_parse h
  constructor
  · intro connective fs hnode
    cases hflat.of_mem_nodes hnode with
    | group hconnective hlength _ hown =>
      refine ⟨?_, hlength, hown⟩
      cases connective with
      | and => exact .inl rfl
      | or => exact .inr rfl
      | unknown => exact absurd rfl hconnective
  · intro c hc
    obtain ⟨ts, hts⟩ := hspells c (Filter.mem_conditions_iff.2 hc)
    exact operand_eq_none_iff hts

/-- Tasks on hold, in a query with parentheses where none are needed. -/
def onHold : String :=
  "((state = \"on hold\")) and (owner is_empty aNd (Due IS_EMPTY or ((tags contains [\"late\"]))))"

/-- The text of the tree that it stands for. -/
def onHoldFlat : String :=
  "(state equals \"on hold\" AND owner is_empty AND (Due is_empty OR tags contains [\"late\"]))"

theorem shape_of_parse_onHold : ∃ f, parse onHold = .ok f ∧ f.toText = onHoldFlat ∧
    (∀ connective fs, .group connective fs ∈ f.nodes →
      (connective = .and ∨ connective = .or) ∧ 2 ≤ fs.length ∧ ∀ gs, .group connective gs ∉ fs) ∧
    ∀ c, .condition c ∈ f.nodes →
      (c.operand = none ↔ c.comparator = .isEmpty ∨ c.comparator = .isNotEmpty) := by
  have htext : (parse onHold).map Filter.toText = .ok onHoldFlat := by decide +kernel
  obtain ⟨f, hparse, htext⟩ := Except.map_eq_ok.1 htext
  exact ⟨f, hparse, htext, shape_of_parse hparse⟩

end Query

end Sift
