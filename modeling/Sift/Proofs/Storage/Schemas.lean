import Sift.Document
import Sift.Proofs.Json.RoundTrip
import Sift.Proofs.Sorted

/-!
# Stored schemas

A stored schema is read back with the same declarations, but in the order of their
names: they are the entries of an object, and objects come out sorted by key. So the
schema is the same one if its declarations were in this order already, and a new
filter starts from the same condition if its first text property is also the first
one by name.

* `Schema.byName`: the schema with its declarations in the order of their names, and
  `Schema.exists_parse_toText`: that this is what is read from a stored schema;
* `Schema.byName_eq_iff`, `Schema.freshCondition_byName_eq_iff`: when this is the same
  schema, and when it has the same condition for new filters;
* `Schema.exists_parse_toText_perm_and_eq_iff`: what that is for a stored schema.
-/

namespace Sift

namespace Schema

open Json

variable {schema schema' : Schema} {name : String}

/-! ## Declarations by name -/

/-- The schema with its declarations in the order of their names. -/
def byName (schema : Schema) : Schema where
  entries := schema.entries.mergeSort fun a b => (compareOn Prod.fst a b).isLE
  nodup := ((List.mergeSort_perm schema.entries _).map Prod.fst).nodup_iff.2 schema.nodup

theorem perm_byName (schema : Schema) : schema.byName.entries.Perm schema.entries :=
  List.mergeSort_perm schema.entries _

theorem pairwise_byName (schema : Schema) : schema.byName.names.Pairwise (· < ·) := by
  have hlt : schema.byName.entries.Pairwise fun a b => compareOn Prod.fst a b = .lt :=
    pairwise_lt_mergeSort (fun _ _ => Std.compare_eq_iff_eq.1) schema.nodup
  exact List.pairwise_map.2 (hlt.imp compareOfLessAndEq_eq_lt.1)

/-- Only declarations that are in the order of their names stay as they are. -/
theorem byName_eq_iff : schema.byName = schema ↔ schema.names.Pairwise (· < ·) := by
  constructor
  · intro h
    exact h ▸ pairwise_byName schema
  · intro h
    exact Columns.eq_of_entries_eq
      (eq_of_perm_of_pairwise (perm_byName schema) (pairwise_byName schema) h)

/-! ## Stored schemas -/

/-- A declaration as it is stored. -/
def storedEntry (entry : String × PropertyType) : String × Json := (entry.1, .text entry.2.name)

theorem map_fst_storedEntry (entries : List (String × PropertyType)) :
    (entries.map storedEntry).map Prod.fst = entries.map Prod.fst := by
  rw [List.map_map]
  rfl

/-- Of a stored schema, the declarations come out by name. -/
theorem reread_toJson (schema : Schema) : schema.toJson.reread =
    .object [("properties", .object (schema.byName.entries.map storedEntry))] := by
  have hsorted : sorted (schema.entries.map storedEntry) =
      schema.byName.entries.map storedEntry := by
    refine sorted_eq_of_perm ((perm_byName schema).map storedEntry) ?_
    rw [map_fst_storedEntry]
    exact pairwise_byName schema
  have hentries : rereadEntries (schema.entries.map storedEntry) =
      schema.entries.map storedEntry := by
    rw [rereadEntries_eq, List.map_map]
    rfl
  change (Json.object [("properties", .object (schema.entries.map storedEntry))]).reread = _
  simp only [reread, rereadEntries]
  rw [hentries, ofEntries_eq, ofEntries_eq, hsorted]
  rfl

/-- Declarations with new names are added in their order. -/
theorem exists_declareAll_eq (schema : Schema) {entries : List (String × PropertyType)}
    (h : (schema.names ++ entries.map Prod.fst).Nodup) :
    ∃ schema', declareAll schema (entries.map storedEntry) = .ok schema' ∧
      schema'.entries = schema.entries ++ entries := by
  induction entries generalizing schema with
  | nil => exact ⟨schema, rfl, (List.append_nil _).symm⟩
  | cons entry entries ih =>
    obtain ⟨name, t⟩ := entry
    have hnew : name ∉ schema.names := fun hmem =>
      (List.nodup_append.1 h).2.2 name hmem name List.mem_cons_self rfl
    have hset := Columns.entries_set_of_notMem t hnew
    have hnames : (schema.set name t).names = schema.names ++ [name] := by
      rw [Columns.names_set, if_neg hnew]
    obtain ⟨schema', hdeclare, hentries⟩ := ih (schema.set name t) (by
      rw [hnames, List.append_assoc]
      exact h)
    refine ⟨schema', ?_, ?_⟩
    · rw [List.map_cons, storedEntry, declareAll, readType, PropertyType.ofName?_name]
      exact hdeclare
    · rw [hentries, hset, List.append_assoc, List.singleton_append]

/-- A stored schema is read with its declarations in the order of their names. -/
theorem ofJson_reread (schema : Schema) : ofJson schema.toJson.reread = .ok schema.byName := by
  obtain ⟨schema', hdeclare, hentries⟩ := exists_declareAll_eq .empty schema.byName.nodup
  obtain rfl : schema' = schema.byName := Columns.eq_of_entries_eq hentries
  rw [reread_toJson]
  exact hdeclare

theorem readable_toJson (schema : Schema) : schema.toJson.Readable depthLimit := by
  refine .object (List.forall_mem_singleton.2 (.object ?_))
  intro entry hentry
  obtain ⟨_, -, rfl⟩ := List.mem_map.1 hentry
  exact .text _

/-- The text of a stored schema is read as the schema with its declarations in the
    order of their names. -/
theorem exists_parse_toText (schema : Schema) : ∃ j,
    Document.parse .json schema.toJson.toText = .ok j ∧
      Document.schema j = .ok schema.byName := by
  refine ⟨schema.toJson.reread, ?_, ?_⟩
  · rw [Document.parse, ofText_toText (readable_toJson schema)]
    rfl
  · rw [Document.schema, ofJson_reread]
    rfl

/-! ## The condition for a new filter -/

theorem freshCondition_eq_iff_property_eq : schema'.freshCondition = schema.freshCondition ↔
    schema'.freshCondition.property = schema.freshCondition.property := by
  simp [freshCondition]

theorem property_freshCondition_eq (h : ∀ name, schema.get? name ≠ some .text) :
    schema.freshCondition.property = "title" := by
  have hnone : (schema.entries.find? fun entry => entry.2 = .text) = none := by
    rw [List.find?_eq_none]
    intro entry hentry ht
    refine h entry.1 (Columns.get?_eq_some_iff.2 ?_)
    rw [← of_decide_eq_true ht]
    exact hentry
  simp only [freshCondition, hnone]
  rfl

/-- If there are text properties, the condition is about one of them, and if they are
    declared in the order of their names, about the first of these names. -/
theorem property_freshCondition (h : schema.get? name = some .text) :
    schema.get? schema.freshCondition.property = some .text ∧
      (schema.names.Pairwise (· < ·) → schema.freshCondition.property ≤ name) := by
  have hmem := Columns.get?_eq_some_iff.1 h
  cases hfind : schema.entries.find? fun entry => entry.2 = .text with
  | none => exact absurd (decide_eq_true rfl) (List.find?_eq_none.1 hfind _ hmem)
  | some first =>
    obtain ⟨key, t⟩ := first
    have hproperty : schema.freshCondition.property = key := by
      simp only [freshCondition, hfind]
      rfl
    obtain rfl : t = .text := by simpa using List.find?_some hfind
    rw [hproperty]
    refine ⟨Columns.get?_eq_some_iff.2 (List.mem_of_find?_eq_some hfind), fun hnames => ?_⟩
    -- What stands before the first text property is no text.
    obtain ⟨-, before, after, hentries, hbefore⟩ := List.find?_eq_some_iff_append.1 hfind
    rw [hentries, List.mem_append, List.mem_cons] at hmem
    rcases hmem with hmem | hmem | hmem
    · exact absurd (hbefore _ hmem) (by simp)
    · exact (congrArg Prod.fst hmem).ge
    · rw [Columns.names, hentries, List.map_append, List.map_cons] at hnames
      have hafter := (List.pairwise_cons.1 (List.pairwise_append.1 hnames).2.1).1
      exact (hafter name (List.mem_map_of_mem hmem)).le

/-- Sorting the declarations by name leaves the condition for a new filter as it is if
    it is about the first text property by name, and only then. -/
theorem freshCondition_byName_eq_iff : schema.byName.freshCondition = schema.freshCondition ↔
    ∀ name, schema.get? name = some .text → schema.freshCondition.property ≤ name := by
  have hget (name : String) : schema.byName.get? name = schema.get? name :=
    Columns.get?_eq_of_perm (perm_byName schema) name
  rw [freshCondition_eq_iff_property_eq]
  constructor
  · intro h name hname
    rw [← h]
    exact (property_freshCondition ((hget name).trans hname)).2 (pairwise_byName schema)
  · intro h
    by_cases htext : ∃ name, schema.get? name = some .text
    · obtain ⟨name, hname⟩ := htext
      obtain ⟨hfirst, -⟩ := property_freshCondition hname
      obtain ⟨hsorted, -⟩ := property_freshCondition ((hget name).trans hname)
      exact le_antisymm
        ((property_freshCondition ((hget _).trans hfirst)).2 (pairwise_byName schema))
        (h _ ((hget _).symm.trans hsorted))
    · rw [not_exists] at htext
      rw [property_freshCondition_eq htext,
        property_freshCondition_eq fun name hname => htext name ((hget name).symm.trans hname)]

/-! ## Saving and reloading -/

/-- A schema that is stored and read again has the same declarations, in the order of
    their names. It is the same schema if they were in this order before, and only
    then; a new filter starts from the same condition if the first text property is
    the first one by name, and only then. -/
theorem exists_parse_toText_perm_and_eq_iff (schema : Schema) : ∃ j schema',
    Document.parse .json schema.toJson.toText = .ok j ∧ Document.schema j = .ok schema' ∧
      schema'.entries.Perm schema.entries ∧ schema'.names.Pairwise (· < ·) ∧
      (schema' = schema ↔ schema.names.Pairwise (· < ·)) ∧
      (schema'.freshCondition = schema.freshCondition ↔
        ∀ name, schema.get? name = some .text → schema.freshCondition.property ≤ name) := by
  obtain ⟨j, hparse, hschema⟩ := exists_parse_toText schema
  exact ⟨j, schema.byName, hparse, hschema, perm_byName schema, pairwise_byName schema,
    byName_eq_iff, freshCondition_byName_eq_iff⟩

/-- The stock schema comes back with its columns in another order, and new filters
    start from another one of them. -/
theorem not_forall_entries_eq_and_freshCondition_eq : ¬∀ schema : Schema, ∃ j schema',
    Document.parse .json schema.toJson.toText = .ok j ∧ Document.schema j = .ok schema' ∧
      schema'.entries = schema.entries ∧ schema'.freshCondition = schema.freshCondition := by
  intro h
  obtain ⟨j, schema', hparse, hschema, -, hfresh⟩ := h .stock
  obtain ⟨j', hparse', hschema'⟩ := exists_parse_toText .stock
  obtain rfl : j = j' := Except.ok.inj (hparse.symm.trans hparse')
  obtain rfl : schema' = Schema.stock.byName := Except.ok.inj (hschema.symm.trans hschema')
  exact absurd (freshCondition_byName_eq_iff.1 hfresh "richText" rfl) (by decide)

end Schema

end Sift
