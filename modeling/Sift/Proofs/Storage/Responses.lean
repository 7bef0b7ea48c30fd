import Sift.Proofs.Storage.Pages
import Sift.Proofs.Storage.Records

/-!
# Records of responses, stored

The records of a response have values of the types that their properties have
on the pages, and each name has in the schema the first of the types that it
has on any page. If it has only one, the values fit the schema, and so the
records read back under it from what is stored of them.

* `Schema.GrownBy`: what becomes of a schema to which properties are added, and
  `Response.grownBy_of_recordsFrom`: that adding the properties of all pages
  does that;
* `Response.forall₂_of_recordsFrom`, `Response.exists_page_of_recordsFrom`: pages
  become records one by one, and each record has properties of its page;
* `Response.fits_and_storable_of_typedProperty`: the values of properties fit
  their types and are stored in full;
* `Response.listOfJson_listToJson_of_records`: so the records of a response
  with one type for each name read back.
-/

namespace Sift

open Json

variable {schema schema' : Schema}

/-! ## Schemas that grow -/

/-- A schema after declarations: what it had before it still has, it has
    nothing else that was not declared, and all names that were declared. -/
structure Schema.GrownBy (declared : String → PropertyType → Prop) (schema schema' : Schema) :
    Prop where
  keeps : ∀ name t, schema.get? name = some t → schema'.get? name = some t
  declared_of_get? : ∀ name t, schema'.get? name = some t →
    schema.get? name = some t ∨ declared name t
  exists_get? : ∀ name t, declared name t → ∃ u, schema'.get? name = some u

namespace Schema.GrownBy

variable {declared declared' : String → PropertyType → Prop}

theorem refl (h : ∀ name t, ¬declared name t) : schema.GrownBy declared schema :=
  ⟨fun _ _ => id, fun _ _ => .inl, fun name t ht => absurd ht (h name t)⟩

theorem trans {schema'' : Schema} (h : schema.GrownBy declared schema')
    (h' : schema'.GrownBy declared' schema'') {all : String → PropertyType → Prop}
    (hall : ∀ name t, all name t ↔ declared name t ∨ declared' name t) :
    schema.GrownBy all schema'' := by
  refine ⟨fun name t ht => h'.keeps name t (h.keeps name t ht), ?_, ?_⟩
  · intro name t ht
    rw [hall]
    rcases h'.declared_of_get? name t ht with ht | ht
    · exact (h.declared_of_get? name t ht).imp_right .inl
    · exact .inr (.inr ht)
  · intro name t ht
    rcases (hall name t).1 ht with ht | ht
    · obtain ⟨u, hu⟩ := h.exists_get? name t ht
      exact ⟨u, h'.keeps name u hu⟩
    · exact h'.exists_get? name t ht

/-- A name is declared unless it has been before. -/
theorem declare (schema : Schema) (name : String) (t : PropertyType) :
    schema.GrownBy (fun n u => n = name ∧ u = t)
      (if (schema.get? name).isNone then schema.set name t else schema) := by
  split
  · rename_i hnone
    rw [Option.isNone_iff_eq_none] at hnone
    refine ⟨?_, ?_, ?_⟩
    · intro n u hu
      rw [Columns.get?_set, if_neg]
      · exact hu
      · rintro rfl
        exact absurd (hnone.symm.trans hu) (by simp)
    · intro n u hu
      rw [Columns.get?_set] at hu
      split at hu
      · rename_i hn
        exact .inr ⟨hn, (Option.some.inj hu).symm⟩
      · exact .inl hu
    · rintro n u ⟨rfl, rfl⟩
      exact ⟨u, by rw [Columns.get?_set, if_pos rfl]⟩
  · rename_i hsome
    rw [Option.isNone_iff_eq_none] at hsome
    refine ⟨fun _ _ => id, fun _ _ => .inl, ?_⟩
    rintro n u ⟨rfl, -⟩
    exact Option.ne_none_iff_exists'.1 hsome

end Schema.GrownBy

theorem Json.Proper.of_mem_parts {j part : Json} (hj : j.Proper) (h : part ∈ j.parts) :
    part.Proper := by
  cases hj with
  | list hitems => exact hitems part h
  | object _ hvalues =>
    obtain ⟨entry, hentry, rfl⟩ := List.mem_map.1 h
    exact hvalues entry hentry
  | _ => exact absurd h List.not_mem_nil

namespace Response

variable {j : Json} {name : String} {t : PropertyType} {v : Value}

/-! ## Values of properties -/

/-- The properties whose number, if they have one, is finite. -/
def Property.Proper : Property → Prop
  | number (some d) => d.isFinite
  | _ => True

theorem proper_of_readText {p : Property} (h : readText j = .ok p) : p.Proper := by
  obtain ⟨items, -, h⟩ := Except.bind_eq_ok.1 h
  obtain ⟨pieces, -, h⟩ := Except.bind_eq_ok.1 h
  cases h
  trivial

theorem proper_of_readNumber {p : Property} (hj : j.Proper)
    (h : (Json.optional asDouble j).map .number = .ok p) : p.Proper := by
  obtain ⟨d, hd, rfl⟩ := Except.map_eq_ok.1 h
  cases d with
  | none => trivial
  | some d =>
    have hread := read_of_optional hd
    cases j with
    | number n =>
      cases hread
      exact isFinite_toDouble hj
    | _ => exact absurd hread (by simp [asDouble, unlike])

theorem proper_of_read {field : Field} {p : Property} (hfield : field ∈ fields) (hj : j.Proper)
    (h : field.read j = .ok p) : p.Proper := by
  have hmap {α : Type} {x : Except ShapeError α} {f : α → Property} (h : x.map f = .ok p)
      (hf : ∀ a, (f a).Proper) : p.Proper := by
    obtain ⟨a, -, rfl⟩ := Except.map_eq_ok.1 h
    exact hf a
  simp only [fields, List.mem_cons, List.not_mem_nil, or_false] at hfield
  rcases hfield with rfl | rfl | rfl | rfl | rfl | rfl | rfl | rfl | rfl | rfl
  · exact proper_of_readText h
  · exact proper_of_readText h
  · exact proper_of_readNumber hj h
  · exact hmap h fun _ => trivial
  · exact hmap h fun _ => trivial
  · exact hmap h fun _ => trivial
  · obtain ⟨items, -, h⟩ := Except.bind_eq_ok.1 h
    obtain ⟨ts, -, h⟩ := Except.bind_eq_ok.1 h
    cases h
    trivial
  · exact hmap h fun _ => trivial
  · exact hmap h fun _ => trivial
  · exact hmap h fun _ => trivial

theorem proper_of_absent {field : Field} {p : Property} (hfield : field ∈ fields)
    (h : field.absent = some p) : p.Proper := by
  simp only [fields, List.mem_cons, List.not_mem_nil, or_false] at hfield
  rcases hfield with rfl | rfl | rfl | rfl | rfl | rfl | rfl | rfl | rfl | rfl
  all_goals cases h
  all_goals trivial

/-- The numbers of properties that are read from proper JSON are finite. -/
theorem Property.proper_of_ofJson {p : Property} (hj : j.Proper) (h : ofJson j = .ok p) :
    p.Proper := by
  obtain ⟨name, -, ⟨-, rfl⟩ | ⟨field, hfield, -, habsent | ⟨part, hpart, hread⟩⟩⟩ :=
    exists_tag_of_ofJson h
  · trivial
  · exact proper_of_absent hfield habsent
  · exact proper_of_read hfield (hj.of_mem_parts hpart) hread

theorem exists_of_instantOf {raw : String} (h : instantOf raw = .ok v) :
    ∃ i, v = .date i ∧ Instant.ofText? raw.toList = some i := by
  unfold instantOf at h
  split at h
  · rename_i i hi
    cases h
    exact ⟨i, rfl, hi⟩
  · exact absurd h (by simp)

/-- The value of a property fits its type and is stored in full, if the number
    of the property is finite. -/
theorem fits_and_storable_of_typed {p : Property} (hp : p.Proper)
    (h : p.typed = .ok (some (t, v))) : v.Fits t ∧ (v.FourDigitYear → v.Storable) := by
  cases p with
  | text s =>
    cases h
    exact ⟨.text s, fun _ => trivial⟩
  | number d =>
    cases h
    cases d with
    | none => exact ⟨.null, fun _ => trivial⟩
    | some d => exact ⟨.number d, fun _ => hp⟩
  | boolean b =>
    cases h
    exact ⟨.boolean b, fun _ => trivial⟩
  | option t =>
    cases h
    cases t with
    | none => exact ⟨.null, fun _ => trivial⟩
    | some t => exact ⟨.option t, fun _ => trivial⟩
  | optionList ts =>
    cases h
    exact ⟨.optionList ts, fun _ => trivial⟩
  | date raw =>
    cases raw with
    | none =>
      cases h
      exact ⟨.null, fun _ => trivial⟩
    | some raw =>
      obtain ⟨v, hv, he⟩ := Except.map_eq_ok.1 h
      cases he
      obtain ⟨i, rfl, hi⟩ := exists_of_instantOf hv
      exact ⟨.date i, fun hyear => ⟨Instant.proper_of_ofText? hi, hyear⟩⟩
  | unsupported => exact absurd h (by simp [Property.typed])

/-- The value of a property of a page fits the type of the property and is
    stored in full, if it is no date outside the years of four digits. -/
theorem fits_and_storable_of_typedProperty (hj : j.Proper)
    (h : typedProperty name j = .ok (some (t, v))) :
    v.Fits t ∧ (v.FourDigitYear → v.Storable) := by
  unfold typedProperty at h
  split at h
  · exact absurd h (by simp)
  · rename_i p hp
    exact fits_and_storable_of_typed (Property.proper_of_ofJson hj hp) h

/-! ## Pages -/

/-- The properties of a page are entries of a proper object. -/
theorem Page.proper_of_readsAs {page : Page} (hj : j.Proper) (h : ReadsAs j page) :
    (Json.object page.properties).Proper := by
  have hempty : (Json.object []).Proper :=
    .object .nil fun _ hentry => absurd hentry List.not_mem_nil
  cases h with
  | object _ hproperties => exact hj.of_mem_parts (mem_parts_of_get? hproperties)
  | bareObject => exact hempty
  | list => exact hj.of_mem_parts (by simp [parts])
  | bareList => exact hempty

theorem proper_of_ofJson {pages : List Page} (hj : j.Proper) (h : ofJson j = .ok pages) :
    ∀ page ∈ pages, (Json.object page.properties).Proper := by
  obtain ⟨items, hresults, hpages⟩ := exists_results_of_ofJson h
  have hitems : (Json.list items).Proper := by
    cases hresults with
    | object hitems => exact hj.of_mem_parts (mem_parts_of_get? hitems)
    | list => exact hj.of_mem_parts List.mem_cons_self
  intro page hpage
  obtain ⟨item, hitem, hread⟩ := exists_of_forall₂_of_mem hpages hpage
  exact Page.proper_of_readsAs (hitems.of_mem_parts hitem) hread

/-! ## Declarations -/

/-- Whether a property with the name has a value of the supported type. -/
def DeclaredIn (properties : List (String × Json)) (name : String) (t : PropertyType) : Prop :=
  ∃ j v, (name, j) ∈ properties ∧ typedProperty name j = .ok (some (t, v))

/-- Whether a property of a page with the name has a value of the supported
    type. -/
def Declared (pages : List Page) (name : String) (t : PropertyType) : Prop :=
  ∃ page ∈ pages, DeclaredIn page.properties name t

section

variable {properties : List (String × Json)} {pages : List Page} {r r' : Record} {rs : List Record}

theorem declaredIn_cons {key : String} : DeclaredIn ((key, j) :: properties) name t ↔
    (name = key ∧ ∃ v, typedProperty key j = .ok (some (t, v))) ∨ DeclaredIn properties name t := by
  constructor
  · rintro ⟨j', v, hmem, htyped⟩
    rcases List.mem_cons.1 hmem with he | hmem
    · cases he
      exact .inl ⟨rfl, v, htyped⟩
    · exact .inr ⟨j', v, hmem, htyped⟩
  · rintro (⟨rfl, v, htyped⟩ | ⟨j', v, hmem, htyped⟩)
    · exact ⟨j, v, List.mem_cons_self, htyped⟩
    · exact ⟨j', v, List.mem_cons_of_mem _ hmem, htyped⟩

theorem declared_cons {page : Page} : Declared (page :: pages) name t ↔
    DeclaredIn page.properties name t ∨ Declared pages name t := by
  simp [Declared]

/-- Adding the properties of a page declares their types. -/
theorem grownBy_of_addProperties (h : addProperties schema r properties = .ok (schema', r')) :
    schema.GrownBy (DeclaredIn properties) schema' := by
  induction properties generalizing schema r with
  | nil =>
    rw [addProperties] at h
    cases h
    refine .refl ?_
    rintro name t ⟨_, _, hmem, -⟩
    exact absurd hmem List.not_mem_nil
  | cons property properties ih =>
    obtain ⟨key, j⟩ := property
    rw [addProperties] at h
    obtain ⟨typed, htyped, h⟩ := Except.bind_eq_ok.1 h
    rcases typed with _ | ⟨type, v⟩
    · have hnone : schema.GrownBy (fun _ _ => False) schema := .refl fun _ _ => id
      refine hnone.trans (ih h) ?_
      simp [declaredIn_cons, htyped]
    · refine (Schema.GrownBy.declare schema key type).trans (ih h) ?_
      intro name t
      simp [declaredIn_cons, htyped, eq_comm]

/-- Adding properties of a page to a record keeps its identity, and what it adds
    are properties of the page, in their order. -/
theorem of_addProperties (h : addProperties schema r properties = .ok (schema', r')) :
    r'.id = r.id ∧
      r'.properties.names.Sublist (r.properties.names ++ properties.map Prod.fst) ∧
      ∀ entry ∈ r'.properties.entries, entry ∈ r.properties.entries ∨
        ∃ j t, (entry.1, j) ∈ properties ∧
          typedProperty entry.1 j = .ok (some (t, entry.2)) := by
  induction properties generalizing schema r with
  | nil =>
    rw [addProperties] at h
    cases h
    rw [List.map_nil, List.append_nil]
    exact ⟨rfl, .refl _, fun _ hentry => .inl hentry⟩
  | cons property properties ih =>
    obtain ⟨name, j⟩ := property
    rw [addProperties] at h
    obtain ⟨typed, htyped, h⟩ := Except.bind_eq_ok.1 h
    rcases typed with _ | ⟨t, v⟩
    · obtain ⟨hid, hnames, hentries⟩ := ih h
      refine ⟨hid, hnames.trans ((List.sublist_cons_self ..).append_left _), ?_⟩
      intro entry hentry
      rcases hentries entry hentry with hentry | ⟨j', u, hmem, hu⟩
      · exact .inl hentry
      · exact .inr ⟨j', u, List.mem_cons_of_mem _ hmem, hu⟩
    · obtain ⟨hid, hnames, hentries⟩ := ih h
      refine ⟨hid, ?_, ?_⟩
      · rw [List.map_cons, ← List.singleton_append, ← List.append_assoc]
        exact hnames.trans ((Columns.names_set_sublist ..).append_right _)
      · intro entry hentry
        rcases hentries entry hentry with hentry | ⟨j', u, hmem, hu⟩
        · rcases Columns.mem_entries_set hentry with rfl | hentry
          · exact .inr ⟨j, t, List.mem_cons_self, htyped⟩
          · exact .inl hentry
        · exact .inr ⟨j', u, List.mem_cons_of_mem _ hmem, hu⟩

/-! ## Records of pages -/

theorem exists_of_recordsFrom_cons {page : Page}
    (h : recordsFrom schema (page :: pages) = .ok (schema', rs)) :
    ∃ between r rs', addProperties schema (.new page.id) page.properties = .ok (between, r) ∧
      recordsFrom between pages = .ok (schema', rs') ∧ rs = r :: rs' := by
  rw [recordsFrom] at h
  split at h
  · exact absurd h (by simp)
  · rename_i between r hr
    obtain ⟨⟨_, rs'⟩, hrs, he⟩ := Except.map_eq_ok.1 h
    cases he
    exact ⟨between, r, rs', hr, hrs, rfl⟩

/-- Reading pages declares the types of their properties. -/
theorem grownBy_of_recordsFrom (h : recordsFrom schema pages = .ok (schema', rs)) :
    schema.GrownBy (Declared pages) schema' := by
  induction pages generalizing schema rs with
  | nil =>
    rw [recordsFrom] at h
    cases h
    refine .refl ?_
    rintro name t ⟨page, hpage, -⟩
    exact absurd hpage List.not_mem_nil
  | cons page pages ih =>
    obtain ⟨between, r, rs', hr, hrs, rfl⟩ := exists_of_recordsFrom_cons h
    exact (grownBy_of_addProperties hr).trans (ih hrs) fun _ _ => declared_cons

/-- Pages become records one by one. -/
theorem forall₂_of_recordsFrom (h : recordsFrom schema pages = .ok (schema', rs)) :
    List.Forall₂ (fun page r => ∃ before after,
      addProperties before (.new page.id) page.properties = .ok (after, r)) pages rs := by
  induction pages generalizing schema rs with
  | nil =>
    rw [recordsFrom] at h
    cases h
    exact .nil
  | cons page pages ih =>
    obtain ⟨between, r, rs', hr, hrs, rfl⟩ := exists_of_recordsFrom_cons h
    exact .cons ⟨schema, between, hr⟩ (ih hrs)

/-- Each record has properties of one page, in their order. -/
theorem exists_page_of_recordsFrom (h : recordsFrom schema pages = .ok (schema', rs)) :
    ∀ r ∈ rs, ∃ page ∈ pages, r.properties.names.Sublist (page.properties.map Prod.fst) ∧
      ∀ entry ∈ r.properties.entries, ∃ j t, (entry.1, j) ∈ page.properties ∧
        typedProperty entry.1 j = .ok (some (t, entry.2)) := by
  intro r hr
  obtain ⟨page, hpage, _, _, hadded⟩ := exists_of_forall₂_of_mem (forall₂_of_recordsFrom h) hr
  obtain ⟨-, hnames, hentries⟩ := of_addProperties hadded
  refine ⟨page, hpage, hnames, ?_⟩
  intro entry hentry
  exact (hentries entry hentry).resolve_left List.not_mem_nil

end

/-- The records of a response in which each name has one type read back from
    what is stored of them under the schema of the response: the same records
    in the same order, with the same values. The properties of the pages must
    not be called as the identity of a record is, and their dates must have
    years of four digits. -/
theorem listOfJson_listToJson_of_records {j : Json} {pages : List Page} {rs : List Record}
    {schema : Schema} (hj : j.Proper) (hpages : ofJson j = .ok pages)
    (h : records j = .ok (rs, schema))
    (hid : ∀ page ∈ pages, "id" ∉ page.properties.map Prod.fst)
    (htypes : ∀ name t u, Declared pages name t → Declared pages name u → t = u)
    (hyears : ∀ r ∈ rs, ∀ entry ∈ r.properties.entries, entry.2.FourDigitYear) :
    Record.listOfJson schema (Record.listToJson rs) = .ok rs ∧
      Record.listOfJson schema (Record.listToJson rs).arranged = .ok rs := by
  rw [records, hpages] at h
  obtain ⟨⟨_, _⟩, hrecords, he⟩ := Except.map_eq_ok.1 h
  cases he
  have hgrown := grownBy_of_recordsFrom hrecords
  refine Record.listOfJson_of_storable ?_
  intro r hr
  obtain ⟨page, hpage, hnames, hentries⟩ := exists_page_of_recordsFrom hrecords r hr
  obtain ⟨hkeys, hproper⟩ := proper_object_iff.1 (proper_of_ofJson hj hpages page hpage)
  refine ⟨fun hmem => hid page hpage (hnames.subset hmem), hkeys.sublist hnames, ?_, ?_⟩
  · intro entry hentry
    obtain ⟨j, t, hmem, htyped⟩ := hentries entry hentry
    have hdeclared : Declared pages entry.1 t := ⟨page, hpage, j, entry.2, hmem, htyped⟩
    -- The schema may have the type from another page, but it is the same one.
    obtain ⟨u, hu⟩ := hgrown.exists_get? _ _ hdeclared
    obtain rfl : u = t := by
      refine htypes entry.1 u t ?_ hdeclared
      exact (hgrown.declared_of_get? _ _ hu).resolve_left (by simp [Columns.empty, Columns.get?])
    rw [hu]
    exact (fits_and_storable_of_typedProperty (hproper _ hmem) htyped).1
  · intro entry hentry
    obtain ⟨j, t, hmem, htyped⟩ := hentries entry hentry
    exact (fits_and_storable_of_typedProperty (hproper _ hmem) htyped).2 (hyears r hr entry hentry)

/-- The properties of a page: most kinds of types, one that is not supported, and
    a leap second in another zone. -/
def firstProperties : List (String × Json) :=
  [("Created", .object [("created_time", .text "2015-07-01T01:59:60.25+02:00"),
      ("type", .text "created_time")]),
    ("Done", .object [("checkbox", .boolean true), ("type", .text "checkbox")]),
    ("Due", .object [("date", .object [("start", .text "2020-02-29")]), ("type", .text "date")]),
    ("Effort", .object [("number", .number (.integer 5)), ("type", .text "number")]),
    ("Name", .object [("title", .list [.object [("plain_text", .text "Write ")],
      .object [("plain_text", .text "it")]]), ("type", .text "title")]),
    ("Rank", .object [("formula", .null), ("type", .text "formula")]),
    ("Stage", .object [("status", .object [("color", .text "blue"), ("name", .text "Doing")]),
      ("type", .text "status")]),
    ("Tags", .object [("multi_select", .list [.object [("name", .text "home")]]),
      ("type", .text "multi_select")])]

/-- The properties of a page with fewer of these, and without values. -/
def secondProperties : List (String × Json) :=
  [("Due", .object [("date", .null), ("type", .text "date")]),
    ("Effort", .object [("number", .null), ("type", .text "number")]),
    ("Stage", .object [("select", .null), ("type", .text "select")])]

/-- A response with the two pages. -/
def board : Json :=
  .object [("has_more", .boolean false), ("results", .list [
    .object [("id", .text "a"), ("properties", .object firstProperties)],
    .object [("id", .text "b"), ("properties", .object secondProperties)]])]

def boardPages : List Page := [⟨"a", firstProperties⟩, ⟨"b", secondProperties⟩]

def boardSchema : Schema :=
  ⟨[("Created", .date), ("Done", .boolean), ("Due", .date), ("Effort", .number), ("Name", .text),
    ("Stage", .option), ("Tags", .optionList)], by decide⟩

def boardRecords : List Record :=
  [⟨"a", ⟨[("Created", .date .inLeapSecond), ("Done", .boolean true),
      ("Due", .date (.midnight ⟨2020, 2, 29, by decide, by decide⟩)),
      ("Effort", .number (.ofInt 5)), ("Name", .text "Write it"),
      ("Stage", .option ⟨"Doing", .blue⟩), ("Tags", .optionList [.plain "home"])], by decide⟩⟩,
    ⟨"b", ⟨[("Due", .null), ("Effort", .null), ("Stage", .null)], by decide⟩⟩]

theorem proper_board : board.Proper := by
  simp only [board, firstProperties, secondProperties, proper_list_iff, proper_object_iff,
    proper_integer_iff, List.forall_mem_cons, List.not_mem_nil, false_implies, implies_true,
    Proper.text, Proper.boolean, Proper.null, List.map_cons, List.map_nil, true_and, and_true]
  decide

/-- The types on the board are those of its schema. -/
theorem get?_boardSchema_of_declared (h : Declared boardPages name t) :
    boardSchema.get? name = some t := by
  obtain ⟨page, hpage, j, v, hmem, htyped⟩ := h
  simp only [boardPages, List.mem_cons, List.not_mem_nil, or_false] at hpage
  rcases hpage with rfl | rfl
  · simp only [firstProperties, List.mem_cons, Prod.mk.injEq, List.not_mem_nil, or_false] at hmem
    rcases hmem with ⟨rfl, rfl⟩ | ⟨rfl, rfl⟩ | ⟨rfl, rfl⟩ | ⟨rfl, rfl⟩ | ⟨rfl, rfl⟩ | ⟨rfl, rfl⟩ |
      ⟨rfl, rfl⟩ | ⟨rfl, rfl⟩
    all_goals
      cases Except.ok.inj htyped
    all_goals rfl
  · simp only [secondProperties, List.mem_cons, Prod.mk.injEq, List.not_mem_nil, or_false] at hmem
    rcases hmem with ⟨rfl, rfl⟩ | ⟨rfl, rfl⟩ | ⟨rfl, rfl⟩
    all_goals
      cases Except.ok.inj htyped
    all_goals rfl

theorem listOfJson_listToJson_boardRecords :
    board.Proper ∧ ofJson board = .ok boardPages ∧
    records board = .ok (boardRecords, boardSchema) ∧
    (∀ page ∈ boardPages, "id" ∉ page.properties.map Prod.fst) ∧
    (∀ name t u, Declared boardPages name t → Declared boardPages name u → t = u) ∧
    (∀ r ∈ boardRecords, ∀ entry ∈ r.properties.entries, entry.2.FourDigitYear) ∧
    Record.listOfJson boardSchema (Record.listToJson boardRecords) = .ok boardRecords ∧
      Record.listOfJson boardSchema (Record.listToJson boardRecords).arranged =
        .ok boardRecords := by
  have hpages : ofJson board = .ok boardPages := rfl
  have hrecords : records board = .ok (boardRecords, boardSchema) := rfl
  have hid : ∀ page ∈ boardPages, "id" ∉ page.properties.map Prod.fst := by decide
  have htypes : ∀ name t u, Declared boardPages name t → Declared boardPages name u → t = u := by
    intro name t u ht hu
    exact Option.some.inj
      ((get?_boardSchema_of_declared ht).symm.trans (get?_boardSchema_of_declared hu))
  have hyears : ∀ r ∈ boardRecords, ∀ entry ∈ r.properties.entries, entry.2.FourDigitYear := by
    decide
  exact ⟨proper_board, hpages, hrecords, hid, htypes, hyears,
    listOfJson_listToJson_of_records proper_board hpages hrecords hid htypes hyears⟩

end Response

end Sift
