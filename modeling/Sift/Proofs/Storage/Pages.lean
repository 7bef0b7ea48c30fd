import Mathlib.Data.List.Forall2
import Sift.Proofs.Json.Shape
import Sift.Response

/-!
# Parts of a response

A response, its pages and their properties may be written as objects or as lists
of their fields. What was read from them was read from their parts, and which
part that is is said here once for both.

* `Json.parts`: the values directly inside a value;
* `Response.Results`, `Response.Page.ReadsAs`: where the pages of a response
  stand, and what they hold, and `Response.exists_results_of_ofJson`: that this
  is what is read;
* `Response.tag?`: the name of the type of a property, and
  `Response.Property.exists_tag_of_ofJson`: that the field of this name tells how
  the property is read;
* `Response.typeOf?`: the type that this stands for in a schema, and
  `Response.typeOf?_of_typedProperty`: that the property has this type.
-/

namespace Sift

/-- The values directly inside a value. -/
def Json.parts : Json → List Json
  | object entries => entries.map Prod.snd
  | list items => items
  | _ => []

theorem Json.mem_parts_of_get? {entries : List (String × Json)} {key : String} {j : Json}
    (h : get? entries key = some j) : j ∈ (object entries).parts :=
  List.mem_map_of_mem (mem_of_get? h)

namespace Response

open Json

/-! ## Pages -/

/-- The items that stand for the pages of a response. -/
inductive Results : Json → List Json → Prop
  | object {entries : List (String × Json)} {items : List Json} :
    get? entries "results" = some (.list items) → Results (.object entries) items
  | list {items rest : List Json} : Results (.list (.list items :: rest)) items

/-- The page that an item stands for. Without properties it has none. -/
inductive Page.ReadsAs : Json → Page → Prop
  | object {entries properties : List (String × Json)} {id : String} :
    get? entries "id" = some (.text id) → get? entries "properties" = some (.object properties) →
    ReadsAs (.object entries) ⟨id, properties⟩
  | bareObject {entries : List (String × Json)} {id : String} :
    get? entries "id" = some (.text id) → get? entries "properties" = none →
    ReadsAs (.object entries) ⟨id, []⟩
  | list {id : String} {properties : List (String × Json)} :
    ReadsAs (.list [.text id, .object properties]) ⟨id, properties⟩
  | bareList {id : String} : ReadsAs (.list [.text id]) ⟨id, []⟩

theorem asList_eq_ok_iff {j : Json} {items : List Json} :
    asList j = .ok items ↔ j = .list items := by
  cases j <;> simp [asList, unlike]

theorem asEntries_eq_ok_iff {j : Json} {entries : List (String × Json)} :
    asEntries j = .ok entries ↔ j = .object entries := by
  cases j <;> simp [asEntries, unlike]

theorem Page.readsAs_of_ofJson {item : Json} {page : Page} (h : ofJson item = .ok page) :
    ReadsAs item page := by
  cases item with
  | object entries =>
    obtain ⟨id?, hid, h⟩ := Except.bind_eq_ok.1 h
    obtain ⟨properties?, hproperties, h⟩ := Except.bind_eq_ok.1 h
    cases id? with
    | none => cases h
    | some id =>
      cases h
      obtain ⟨j, hj, htext⟩ := field?_eq_ok_some_iff.1 hid
      rw [asText_eq_ok_iff.1 htext] at hj
      cases properties? with
      | none => exact .bareObject hj (field?_eq_ok_none_iff.1 hproperties)
      | some properties =>
        obtain ⟨stored, hstored, hentries⟩ := field?_eq_ok_some_iff.1 hproperties
        rw [asEntries_eq_ok_iff.1 hentries] at hstored
        exact .object hj hstored
  | list items =>
    rcases items with _ | ⟨id, _ | ⟨properties, _ | _⟩⟩
    · exact absurd h (by simp [ofJson, tooShort])
    · obtain ⟨id, hid, h⟩ := Except.bind_eq_ok.1 h
      cases h
      rw [asText_eq_ok_iff.1 hid]
      exact .bareList
    · obtain ⟨id, hid, h⟩ := Except.bind_eq_ok.1 h
      obtain ⟨properties, hproperties, h⟩ := Except.bind_eq_ok.1 h
      cases h
      rw [asText_eq_ok_iff.1 hid, asEntries_eq_ok_iff.1 hproperties]
      exact .list
    · obtain ⟨_, -, h⟩ := Except.bind_eq_ok.1 h
      obtain ⟨_, -, h⟩ := Except.bind_eq_ok.1 h
      exact absurd h (by simp [tooLong])
  | _ => exact absurd h (by simp [ofJson, unlike])

theorem exists_of_readPages {j : Json} {pages : List Page} (h : readPages j = .ok pages) :
    ∃ items, j = .list items ∧ List.Forall₂ Page.ReadsAs items pages := by
  obtain ⟨items, hitems, h⟩ := Except.bind_eq_ok.1 h
  exact ⟨items, asList_eq_ok_iff.1 hitems,
    (readAll_eq_ok_iff.1 h).imp fun _ _ => Page.readsAs_of_ofJson⟩

/-- The pages of a response are those that its items stand for. -/
theorem exists_results_of_ofJson {j : Json} {pages : List Page} (h : ofJson j = .ok pages) :
    ∃ items, Results j items ∧ List.Forall₂ Page.ReadsAs items pages := by
  cases j with
  | object entries =>
    obtain ⟨_, -, h⟩ := Except.bind_eq_ok.1 h
    obtain ⟨_, -, h⟩ := Except.bind_eq_ok.1 h
    obtain ⟨results, hresults, h⟩ := Except.bind_eq_ok.1 h
    cases results with
    | none => cases h
    | some pages =>
      cases h
      obtain ⟨j, hj, hread⟩ := field?_eq_ok_some_iff.1 hresults
      obtain ⟨items, rfl, hitems⟩ := exists_of_readPages hread
      exact ⟨items, .object hj, hitems⟩
  | list parts =>
    rcases parts with _ | ⟨results, _ | ⟨more, rest⟩⟩
    · exact absurd h (by simp [ofJson, tooShort])
    · obtain ⟨items, rfl, hitems⟩ := exists_of_readPages h
      exact ⟨items, .list, hitems⟩
    · obtain ⟨read, hread, hmore⟩ := Except.bind_eq_ok.1 h
      obtain ⟨_, -, hrest⟩ := Except.bind_eq_ok.1 hmore
      clear h hmore
      obtain ⟨items, rfl, hitems⟩ := exists_of_readPages hread
      -- What stands behind the pages does not change them.
      have hsame : read = pages := by
        rcases rest with _ | ⟨cursor, _ | _⟩
        · exact Except.ok.inj hrest
        · obtain ⟨_, -, hdone⟩ := Except.bind_eq_ok.1 hrest
          exact Except.ok.inj hdone
        · obtain ⟨_, -, hlong⟩ := Except.bind_eq_ok.1 hrest
          exact absurd hlong (by simp [tooLong])
      exact ⟨items, .list, hsame ▸ hitems⟩
  | _ => exact absurd h (by simp [ofJson, unlike])

/-! ## Properties -/

/-- The name of the type of a property. -/
def tag? : Json → Option String
  | .object entries =>
    match get? entries "type" with
    | some (.text name) => some name
    | _ => none
  | .list (.text name :: _) => some name
  | _ => none

theorem readTypeName_eq_ok_iff {j : Json} {name : String} :
    readTypeName j = .ok name ↔ j = .text name := by
  cases j <;> simp [readTypeName, unlike]

/-- A property with the name of a supported type is read as its field says, from a
    part of the value or from nothing; any other property is not supported. -/
theorem Property.exists_tag_of_ofJson {j : Json} {p : Property} (h : ofJson j = .ok p) :
    ∃ name, tag? j = some name ∧
      ((∀ field ∈ fields, field.name ≠ name) ∧ p = .unsupported ∨
        ∃ field ∈ fields, field.name = name ∧
          (field.absent = some p ∨ ∃ part ∈ j.parts, field.read part = .ok p)) := by
  have hnone {name : String} (h : (fields.find? fun field => field.name == name) = none) :
      ∀ field ∈ fields, field.name ≠ name := by
    simpa using h
  have hsome {name : String} {field : Field}
      (h : (fields.find? fun field => field.name == name) = some field) :
      field ∈ fields ∧ field.name = name :=
    ⟨List.mem_of_find?_eq_some h, by simpa using List.find?_some h⟩
  cases j with
  | object entries =>
    rw [ofJson] at h
    cases htype : get? entries "type" with
    | none =>
      rw [htype] at h
      cases h
    | some type =>
      rw [htype] at h
      obtain ⟨name, hname, h⟩ := Except.bind_eq_ok.1 h
      rw [readTypeName_eq_ok_iff.1 hname] at htype
      refine ⟨name, by rw [tag?, htype], ?_⟩
      unfold propertyOfEntries at h
      split at h
      · rename_i hfield
        cases h
        exact .inl ⟨hnone hfield, rfl⟩
      rename_i field hfield
      refine .inr ⟨field, (hsome hfield).1, (hsome hfield).2, ?_⟩
      split at h
      · rename_i part hpart
        exact .inr ⟨part, mem_parts_of_get? hpart, h⟩
      · rename_i habsent
        cases h
        exact .inl habsent
      · cases h
  | list items =>
    rcases items with _ | ⟨type, items⟩
    · cases h
    · obtain ⟨name, hname, hread⟩ := Except.bind_eq_ok.1 h
      clear h
      rw [readTypeName_eq_ok_iff.1 hname]
      refine ⟨name, rfl, ?_⟩
      unfold propertyOfFields at hread
      split at hread
      · rename_i hfield
        cases hread
        exact .inl ⟨hnone hfield, rfl⟩
      · exact absurd hread (by simp [tooLong])
      · exact absurd hread (by simp [tooShort])
      · rename_i field part hfield
        refine .inr ⟨field, (hsome hfield).1, (hsome hfield).2, .inr ⟨part, ?_, hread⟩⟩
        simp [parts]
      · obtain ⟨_, -, hlong⟩ := Except.bind_eq_ok.1 hread
        exact absurd hlong (by simp [tooLong])
  | _ => exact absurd h (by simp [ofJson, unlike])

/-! ## Types -/

/-- The types that records have values for, each with what it is declared as. -/
def supported : List (String × PropertyType) :=
  [("title", .text), ("rich_text", .text), ("number", .number), ("checkbox", .boolean),
    ("select", .option), ("status", .option), ("multi_select", .optionList), ("date", .date),
    ("created_time", .date), ("last_edited_time", .date)]

/-- What a property is declared as, if it is of a supported type. -/
def typeOf? (j : Json) : Option PropertyType := (tag? j).bind fun name => supported.lookup name

/-- What a property is declared as, once it is read. -/
def Property.type? : Property → Option PropertyType
  | text _ => some .text
  | number _ => some .number
  | boolean _ => some .boolean
  | option _ => some .option
  | optionList _ => some .optionList
  | date _ => some .date
  | unsupported => none

theorem Property.type?_of_typed {p : Property} {typed : Option (PropertyType × Value)}
    (h : p.typed = .ok typed) : typed.map Prod.fst = p.type? := by
  cases p with
  | date raw =>
    cases raw with
    | none =>
      cases h
      rfl
    | some raw =>
      obtain ⟨v, -, rfl⟩ := Except.map_eq_ok.1 h
      rfl
  | _ =>
    cases h
    rfl

theorem type?_of_read {field : Field} {j : Json} {p : Property} (hfield : field ∈ fields)
    (h : field.read j = .ok p) : p.type? = supported.lookup field.name := by
  have hmap {α : Type} {x : Except ShapeError α} {f : α → Property} {t : Option PropertyType}
      (h : x.map f = .ok p) (hf : ∀ a, (f a).type? = t) : p.type? = t := by
    obtain ⟨a, -, rfl⟩ := Except.map_eq_ok.1 h
    exact hf a
  have htext (h : readText j = .ok p) : p.type? = some .text := by
    obtain ⟨items, -, h⟩ := Except.bind_eq_ok.1 h
    obtain ⟨pieces, -, h⟩ := Except.bind_eq_ok.1 h
    cases h
    rfl
  simp only [fields, List.mem_cons, List.not_mem_nil, or_false] at hfield
  rcases hfield with rfl | rfl | rfl | rfl | rfl | rfl | rfl | rfl | rfl | rfl
  · exact htext h
  · exact htext h
  · exact hmap h fun _ => rfl
  · exact hmap h fun _ => rfl
  · exact hmap h fun _ => rfl
  · exact hmap h fun _ => rfl
  · obtain ⟨items, -, h⟩ := Except.bind_eq_ok.1 h
    obtain ⟨ts, -, h⟩ := Except.bind_eq_ok.1 h
    cases h
    rfl
  · exact hmap h fun _ => rfl
  · exact hmap h fun _ => rfl
  · exact hmap h fun _ => rfl

theorem type?_of_absent {field : Field} {p : Property} (hfield : field ∈ fields)
    (h : field.absent = some p) : p.type? = supported.lookup field.name := by
  simp only [fields, List.mem_cons, List.not_mem_nil, or_false] at hfield
  rcases hfield with rfl | rfl | rfl | rfl | rfl | rfl | rfl | rfl | rfl | rfl
  all_goals cases h
  all_goals rfl

theorem Property.type?_of_ofJson {j : Json} {p : Property} (h : ofJson j = .ok p) :
    p.type? = typeOf? j := by
  obtain ⟨name, htag, hp⟩ := exists_tag_of_ofJson h
  rw [typeOf?, htag, Option.bind_some]
  rcases hp with ⟨hname, rfl⟩ | ⟨field, hfield, rfl, habsent | ⟨part, -, hread⟩⟩
  · -- The fields are those of the supported types.
    have hnames : fields.map Field.name = supported.map Prod.fst := rfl
    rw [type?, eq_comm, List.lookup_eq_none_iff]
    intro entry hentry
    have hmem : entry.1 ∈ fields.map Field.name := hnames ▸ List.mem_map_of_mem hentry
    obtain ⟨field, hfield, he⟩ := List.mem_map.1 hmem
    rw [bne_iff_ne, ← he]
    exact (hname field hfield).symm
  · exact type?_of_absent hfield habsent
  · exact type?_of_read hfield hread

/-- A property has a value just if it is of a supported type, and is declared as
    what this stands for. -/
theorem typeOf?_of_typedProperty {name : String} {j : Json}
    {typed : Option (PropertyType × Value)} (h : typedProperty name j = .ok typed) :
    typed.map Prod.fst = typeOf? j := by
  unfold typedProperty at h
  split at h
  · cases h
  · rename_i p hp
    rw [Property.type?_of_typed h, Property.type?_of_ofJson hp]

end Response

end Sift
