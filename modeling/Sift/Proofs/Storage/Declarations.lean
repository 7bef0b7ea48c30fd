import Sift.Proofs.Storage.Responses

/-!
# What a response declares

The schema of a response goes through all properties of all pages: it lists the
names that have a supported type somewhere, in the order in which they first have
one, each with the type that it has there. The properties of the records are
those of supported types, each on its own page.

* `Response.declarations`: the properties of supported types, with their types;
* `Schema.Lists`, `Schema.Lists.declare`: the schema of some declarations, and
  that another one is added to it just if its name is new;
* `Response.lists_of_addProperties`, `Response.exists_of_addProperties`: what the
  properties of one page add to the schema and to its record;
* `Response.Page.RecordedAs`: the record of a page;
* `Response.recordedAs_and_lists_of_records`: the records and the schema of a
  response.
-/

namespace Sift

open Json

/-! ## Schemas of declarations -/

/-- A schema that lists declarations: each name once, in the order of their first
    declarations, with the type of the first one. -/
structure Schema.Lists (declared : List (String × PropertyType)) (schema : Schema) : Prop where
  names_eq : schema.names = (declared.map Prod.fst).eraseDups
  get?_eq : ∀ name, schema.get? name = (declared.find? fun d => d.1 == name).map Prod.snd

theorem Schema.Lists.nil : Schema.Lists [] .empty := ⟨rfl, fun _ => rfl⟩

/-- A name that is declared once more has been listed if it has been declared. -/
theorem Schema.Lists.declare {declared : List (String × PropertyType)} {schema : Schema}
    (h : schema.Lists declared) (name : String) (t : PropertyType) :
    Schema.Lists (declared ++ [(name, t)])
      (if (schema.get? name).isNone then schema.set name t else schema) := by
  have hnames : ((declared ++ [(name, t)]).map Prod.fst).eraseDups =
      if name ∈ schema.names then schema.names else schema.names ++ [name] := by
    rw [List.map_append, List.map_singleton]
    exact Columns.eraseDups_concat_of_names_eq h.names_eq name
  have hfind (key : String) : ((declared ++ [(name, t)]).find? fun d => d.1 == key).map Prod.snd =
      (schema.get? key).or (if name = key then some t else none) := by
    rw [List.find?_append, Option.map_or, ← h.get?_eq, List.find?_singleton]
    simp only [beq_iff_eq, apply_ite (Option.map Prod.snd), Option.map_some, Option.map_none]
  split
  · rename_i hnone
    rw [Option.isNone_iff_eq_none] at hnone
    constructor
    · rw [hnames, Columns.names_set]
    · intro key
      rw [hfind, Columns.get?_set]
      by_cases hkey : name = key
      · subst hkey
        simp [hnone]
      · simp [hkey, Ne.symm hkey]
  · rename_i hsome
    rw [Option.isNone_iff_eq_none, Columns.get?_eq_none_iff, not_not] at hsome
    constructor
    · rw [hnames, if_pos hsome]
    · intro key
      rw [hfind]
      by_cases hkey : name = key
      · subst hkey
        obtain ⟨u, hu⟩ := Option.ne_none_iff_exists'.1
          fun hnone => Columns.get?_eq_none_iff.1 hnone hsome
        rw [hu, Option.some_or]
      · simp [hkey]

namespace Response

variable {schema schema' : Schema} {r r' : Record} {properties : List (String × Json)}
  {pages : List Page} {rs : List Record}

/-! ## Pages -/

/-- The properties of supported types, as they declare their names. -/
def declarations (properties : List (String × Json)) : List (String × PropertyType) :=
  properties.filterMap fun property => (typeOf? property.2).map fun t => (property.1, t)

/-- The entry of a record for a property of a supported type. -/
def Property.EntersAs (property : String × Json) (entry : String × Value) : Prop :=
  entry.1 = property.1 ∧ ∃ t, typedProperty property.1 property.2 = .ok (some (t, entry.2))

/-- The record of a page: with its identity, and, as the names of its properties
    are distinct, with those that are of supported types, in their order. -/
structure Page.RecordedAs (page : Page) (r : Record) : Prop where
  id_eq : r.id = page.id
  entries : (page.properties.map Prod.fst).Nodup → List.Forall₂ Property.EntersAs
    (page.properties.filter fun property => (typeOf? property.2).isSome) r.properties.entries

/-- Adding the properties of a page declares those of supported types. -/
theorem lists_of_addProperties {declared : List (String × PropertyType)}
    (hlists : schema.Lists declared)
    (h : addProperties schema r properties = .ok (schema', r')) :
    schema'.Lists (declared ++ declarations properties) := by
  induction properties generalizing schema r declared with
  | nil =>
    cases h
    rw [declarations, List.filterMap_nil, List.append_nil]
    exact hlists
  | cons property properties ih =>
    obtain ⟨name, j⟩ := property
    rw [addProperties] at h
    obtain ⟨typed, htyped, hrest⟩ := Except.bind_eq_ok.1 h
    clear h
    have htype := typeOf?_of_typedProperty htyped
    rw [declarations, List.filterMap_cons]
    rcases typed with _ | ⟨t, v⟩
    · rw [← htype]
      exact ih hlists hrest
    · rw [← htype]
      dsimp only [Option.map_some]
      rw [← List.singleton_append, ← List.append_assoc]
      exact ih (hlists.declare name t) hrest

/-- The properties that are added go behind the ones that the record has, as their
    names are new and distinct. -/
theorem exists_of_addProperties (h : addProperties schema r properties = .ok (schema', r'))
    (hnames : (r.properties.names ++ properties.map Prod.fst).Nodup) :
    ∃ added, r'.properties.entries = r.properties.entries ++ added ∧
      List.Forall₂ Property.EntersAs
        (properties.filter fun property => (typeOf? property.2).isSome) added := by
  induction properties generalizing schema r with
  | nil =>
    cases h
    exact ⟨[], (List.append_nil _).symm, .nil⟩
  | cons property properties ih =>
    obtain ⟨name, j⟩ := property
    rw [addProperties] at h
    obtain ⟨typed, htyped, hrest⟩ := Except.bind_eq_ok.1 h
    clear h
    have htype := typeOf?_of_typedProperty htyped
    rw [List.map_cons] at hnames
    rcases typed with _ | ⟨t, v⟩
    · rw [List.filter_cons_of_neg (by simp [← htype])]
      exact ih hrest (hnames.sublist ((List.sublist_cons_self ..).append_left _))
    · rw [List.filter_cons_of_pos (by simp [← htype])]
      have hnew : name ∉ r.properties.names := by
        intro hmem
        exact (List.nodup_append.1 hnames).2.2 _ hmem _ List.mem_cons_self rfl
      have hset : (r.set name v).properties.names = r.properties.names ++ [name] := by
        rw [Record.set, Columns.names_set, if_neg hnew]
      rw [← List.singleton_append, ← List.append_assoc, ← hset] at hnames
      obtain ⟨added, hadded, henter⟩ := ih hrest hnames
      refine ⟨(name, v) :: added, ?_, .cons ⟨rfl, t, htyped⟩ henter⟩
      rw [hadded, Record.set, Columns.entries_set_of_notMem v hnew, List.append_assoc,
        List.singleton_append]

/-! ## Responses -/

theorem recordedAs_of_recordsFrom (h : recordsFrom schema pages = .ok (schema', rs)) :
    List.Forall₂ Page.RecordedAs pages rs := by
  refine (forall₂_of_recordsFrom h).imp ?_
  rintro page r ⟨_, _, hadded⟩
  refine ⟨(of_addProperties hadded).1, fun hnames => ?_⟩
  obtain ⟨added, hentries, henter⟩ := exists_of_addProperties hadded hnames
  rw [show r.properties.entries = added from hentries]
  exact henter

/-- What is declared on pages is listed behind what the schema lists before. -/
theorem lists_of_recordsFrom {declared : List (String × PropertyType)}
    (hlists : schema.Lists declared) (h : recordsFrom schema pages = .ok (schema', rs)) :
    schema'.Lists (declared ++ pages.flatMap fun page => declarations page.properties) := by
  induction pages generalizing schema rs declared with
  | nil =>
    cases h
    rw [List.flatMap_nil, List.append_nil]
    exact hlists
  | cons page pages ih =>
    obtain ⟨between, r, rs', hr, hrs, rfl⟩ := exists_of_recordsFrom_cons h
    rw [List.flatMap_cons, ← List.append_assoc]
    exact ih (lists_of_addProperties hlists hr) hrs

/-- The records of a response are those of its pages, in their order: each has the
    identity of its page and the properties of the page that are of supported
    types, in their order. The schema lists the names that have a supported type
    on some page, in the order in which they first have one, each with the type
    that it has there: where a property is of no supported type it declares
    nothing, and where a name has another type later it keeps the first. -/
theorem recordedAs_and_lists_of_records {j : Json} (h : records j = .ok (rs, schema)) :
    ∃ items pages, Results j items ∧ List.Forall₂ Page.ReadsAs items pages ∧
      List.Forall₂ Page.RecordedAs pages rs ∧
      schema.Lists (pages.flatMap fun page => declarations page.properties) := by
  unfold records at h
  split at h
  · cases h
  · rename_i pages hpages
    obtain ⟨⟨_, _⟩, hrecords, he⟩ := Except.map_eq_ok.1 h
    cases he
    obtain ⟨items, hresults, hread⟩ := exists_results_of_ofJson hpages
    exact ⟨items, pages, hresults, hread, recordedAs_of_recordsFrom hrecords,
      lists_of_recordsFrom .nil hrecords⟩

/-- A response in which `Rank` first is of a type that is not supported, and
    `Stage` later has another type. -/
def draft : Json :=
  .object [("results", .list [
    .object [("id", .text "a"), ("properties", .object [
      ("Rank", .object [("formula", .null), ("type", .text "formula")]),
      ("Stage", .object [("select", .object [("name", .text "Doing")]),
        ("type", .text "select")])])],
    .list [.text "b", .object [
      ("Rank", .object [("number", .number (.integer 2)), ("type", .text "number")]),
      ("Stage", .list [.text "title", .list [.list [.text "Late"]]])]]])]

def draftRecords : List Record :=
  [⟨"a", ⟨[("Stage", .option (.plain "Doing"))], by decide⟩⟩,
    ⟨"b", ⟨[("Rank", .number (.ofInt 2)), ("Stage", .text "Late")], by decide⟩⟩]

/-- The schema of the draft: `Rank` is listed where it first is a number. -/
def draftSchema : Schema := ⟨[("Stage", .option), ("Rank", .number)], by decide⟩

theorem recordedAs_and_lists_draft :
    records draft = .ok (draftRecords, draftSchema) ∧
    ∃ items pages, Results draft items ∧ List.Forall₂ Page.ReadsAs items pages ∧
      List.Forall₂ Page.RecordedAs pages draftRecords ∧
      draftSchema.Lists (pages.flatMap fun page => declarations page.properties) := by
  have hrecords : records draft = .ok (draftRecords, draftSchema) := rfl
  exact ⟨hrecords, recordedAs_and_lists_of_records hrecords⟩

end Response

end Sift
