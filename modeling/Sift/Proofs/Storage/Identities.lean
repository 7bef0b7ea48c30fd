import Sift.Proofs.Json.RoundTrip
import Sift.Proofs.Storage.Responses

/-!
# Identities of stored records

A record is written with its identity first, under `id`, and then with its
properties, whatever they are called. So the identity is kept if no property is
called `id` as well. Otherwise the key is written twice, and as the last entry of
a key counts, what is read back in place of the identity is the property.

* `Record.KeepsId`: whether a record is written with its identity only under
  `id`, and `Record.keepsId_iff`: that this is so without a property of the name;
* `Record.idAsRead`: what stands under `id` in what is read back;
* `Response.forall₂_names_of_recordsFrom`: the identity of the record of a page, and
  the names of its properties;
* `Document.keepsId_iff_and_ofText_of_records`: the identities of records that were
  loaded, as they are written and as they are read back.
-/

namespace Sift

open Json

theorem Json.get?_reverse {entries : List (String × Json)} {name : String}
    (h : (entries.map Prod.fst).Nodup) : get? entries.reverse name = get? entries name := by
  have hreverse : (entries.reverse.map Prod.fst).Nodup := by
    rw [List.map_reverse]
    exact List.nodup_reverse.2 h
  refine Option.ext fun value => ?_
  rw [get?, get?, Columns.find?_eq_some_iff hreverse, Columns.find?_eq_some_iff h,
    List.mem_reverse]

/-! ## Identities as they are written and read -/

namespace Record

variable {r : Record}

/-- Whether a record is written with its identity under `id`, and with nothing
    else under this key. -/
def KeepsId (r : Record) : Prop :=
  ∃ entries, r.toJson = .object entries ∧
    (entries.filter fun entry => entry.1 = "id") = [("id", .text r.id)]

/-- What stands under `id` where a written record is read back: the property of
    this name, if there is one. -/
def idAsRead (r : Record) : Json :=
  ((r.properties.get? "id").map fun v => v.toJson.reread).getD (.text r.id)

theorem get?_storedBy (store : Value → Json) (r : Record) (name : String) :
    get? (r.storedBy store) name = (r.properties.get? name).map store := by
  rw [storedBy, get?, Columns.get?, List.find?_map, Option.map_map, Option.map_map]
  rfl

theorem keepsId_iff : r.KeepsId ↔ "id" ∉ r.properties.names := by
  have hstored : (r.storedBy Value.toJson).filter (fun entry => entry.1 = "id") = [] ↔
      "id" ∉ r.properties.names := by
    rw [List.filter_eq_nil_iff, ← map_fst_storedBy Value.toJson, List.mem_map]
    simp only [decide_eq_true_eq, not_exists, not_and]
  constructor
  · rintro ⟨entries, hentries, hid⟩
    cases hentries
    rw [List.filter_cons_of_pos (by simp)] at hid
    exact hstored.1 (List.cons.inj hid).2
  · intro h
    refine ⟨_, rfl, ?_⟩
    rw [List.filter_cons_of_pos (by simp)]
    exact congrArg _ (hstored.2 h)

theorem idAsRead_of_keepsId (h : r.KeepsId) : r.idAsRead = .text r.id := by
  rw [idAsRead, Columns.get?_eq_none_iff.2 (keepsId_iff.1 h), Option.map_none, Option.getD_none]

theorem reread_toJson (r : Record) : r.toJson.reread =
    .object (sorted (("id", .text r.id) :: r.storedBy fun v => v.toJson.reread)) := by
  rw [toJson, reread, rereadEntries_eq, ofEntries_eq, List.map_cons, List.map_map, reread]
  rfl

/-- What is read back under `id`. -/
theorem exists_reread_eq (r : Record) :
    ∃ entries, r.toJson.reread = .object entries ∧ get? entries "id" = some r.idAsRead := by
  refine ⟨_, reread_toJson r, ?_⟩
  have hnodup : ((r.storedBy fun v => v.toJson.reread).map Prod.fst).Nodup := by
    rw [map_fst_storedBy]
    exact r.properties.nodup
  have hproperty : get? (r.storedBy fun v => v.toJson.reread).reverse "id" =
      (r.properties.get? "id").map fun v => v.toJson.reread := by
    rw [get?_reverse hnodup, get?_storedBy]
  rw [get?_sorted, List.reverse_cons, idAsRead, ← hproperty]
  simp only [get?, List.find?_append, Option.map_or]
  cases List.find? (fun entry : String × Json => entry.1 == "id")
    (r.storedBy fun v => v.toJson.reread).reverse <;> rfl

end Record

/-! ## Texts of records -/

theorem Tag.readable_toJson (t : Tag) {depth : Nat} : t.toJson.Readable (depth + 1) := by
  refine .object fun entry hentry => ?_
  simp only [List.mem_cons, List.not_mem_nil, or_false] at hentry
  rcases hentry with rfl | rfl
  · exact .text _
  · exact .text _

theorem Value.readable_toJson (v : Value) {depth : Nat} : v.toJson.Readable (depth + 2) := by
  cases v with
  | null => exact .null
  | text s => exact .text s
  | boolean b => exact .boolean b
  | number d => exact readable_ofDouble d
  | date i => exact .text _
  | option t => exact t.readable_toJson
  | optionList ts =>
    refine .list fun j hj => ?_
    obtain ⟨t, _, rfl⟩ := List.mem_map.1 hj
    exact t.readable_toJson

namespace Record

theorem readable_toJson (r : Record) {depth : Nat} : r.toJson.Readable (depth + 3) := by
  refine .object fun entry hentry => ?_
  rcases List.mem_cons.1 hentry with rfl | hentry
  · exact .text r.id
  · obtain ⟨⟨name, v⟩, _, rfl⟩ := List.mem_map.1 hentry
    exact v.readable_toJson

/-- Records read back from their text, one object for each, in their order, with
    an identity each. -/
theorem exists_ofText_laidOut (rs : List Record) :
    ∃ objects : List (List (String × Json)),
      Json.ofText (String.ofList (listToJson rs).laidOut) = .ok (.list (objects.map .object)) ∧
        objects.map (fun entries => get? entries "id") = rs.map fun r => some r.idAsRead := by
  have hreadable : (listToJson rs).Readable depthLimit := by
    rw [listToJson, show depthLimit = 126 + 1 from rfl]
    refine .list fun j hj => ?_
    obtain ⟨r, _, rfl⟩ := List.mem_map.1 hj
    exact r.readable_toJson
  have hobjects : ∃ objects : List (List (String × Json)),
      rs.map (fun r => r.toJson.reread) = objects.map .object ∧
        objects.map (fun entries => get? entries "id") = rs.map fun r => some r.idAsRead := by
    clear hreadable
    induction rs with
    | nil => exact ⟨[], rfl, rfl⟩
    | cons r rs ih =>
      obtain ⟨objects, hobjects, hids⟩ := ih
      obtain ⟨entries, hentries, hid⟩ := r.exists_reread_eq
      refine ⟨entries :: objects, ?_, ?_⟩
      · rw [List.map_cons, List.map_cons, hentries, hobjects]
      · rw [List.map_cons, List.map_cons, hid, hids]
  obtain ⟨objects, hobjects, hids⟩ := hobjects
  refine ⟨objects, ?_, hids⟩
  rw [ofText_laidOut hreadable, listToJson, reread, rereadItems_eq, List.map_map, ← hobjects]
  rfl

end Record

/-! ## Records of pages -/

namespace Response

variable {schema schema' : Schema} {properties : List (String × Json)} {pages : List Page}
  {r r' : Record} {rs : List Record}

/-- The properties that adding the properties of a page adds to a record are
    those of a supported type. -/
theorem mem_names_of_addProperties (h : addProperties schema r properties = .ok (schema', r'))
    (name : String) : name ∈ r'.properties.names ↔
      name ∈ r.properties.names ∨ ∃ t, DeclaredIn properties name t := by
  induction properties generalizing schema r with
  | nil =>
    rw [addProperties] at h
    cases h
    simp [DeclaredIn]
  | cons property properties ih =>
    obtain ⟨key, j⟩ := property
    rw [addProperties] at h
    obtain ⟨typed, htyped, h⟩ := Except.bind_eq_ok.1 h
    rcases typed with _ | ⟨type, v⟩
    · rw [ih h]
      simp [declaredIn_cons, htyped]
    · rw [ih h, Record.set, Columns.mem_names_set]
      simp [declaredIn_cons, htyped, exists_or, or_assoc]

/-- The record of a page has its identity, and the properties of a supported
    type. -/
theorem forall₂_names_of_recordsFrom (h : recordsFrom schema pages = .ok (schema', rs)) :
    List.Forall₂ (fun page r => r.id = page.id ∧
      ∀ name, name ∈ r.properties.names ↔ ∃ t, DeclaredIn page.properties name t) pages rs := by
  refine (forall₂_of_recordsFrom h).imp ?_
  rintro page r ⟨_, _, hadded⟩
  refine ⟨(of_addProperties hadded).1, fun name => ?_⟩
  rw [mem_names_of_addProperties hadded]
  exact or_iff_right List.not_mem_nil

end Response

/-! ## Records of documents -/

namespace Document

/-- The identities of records that were loaded. A record keeps its identity if it
    has no property called `id`: then it is written with its identity under this
    key and with nothing else, and reads back with it. Records of a flat list
    always do; the record of a page does if the page has no property of this name
    of a supported type. -/
theorem keepsId_iff_and_ofText_of_records {layout : Layout} {given : Option Schema} {j : Json}
    {rs : List Record} {schema : Schema} (h : records layout given j = .ok (rs, schema)) :
    (∀ r ∈ rs, (r.KeepsId ↔ "id" ∉ r.properties.names) ∧ (r.KeepsId → r.idAsRead = .text r.id)) ∧
      (∃ objects : List (List (String × Json)),
        Json.ofText (String.ofList (Record.listToJson rs).laidOut) =
          .ok (.list (objects.map .object)) ∧
        objects.map (fun entries => get? entries "id") = rs.map fun r => some r.idAsRead) ∧
      (layout = .records → ∀ r ∈ rs, r.KeepsId) ∧
      (layout = .response → ∃ pages, Response.ofJson j = .ok pages ∧
        List.Forall₂ (fun page r => r.id = page.id ∧
          (r.KeepsId ↔ ¬∃ t, Response.DeclaredIn page.properties "id" t)) pages rs) := by
  refine ⟨fun r _ => ⟨Record.keepsId_iff, Record.idAsRead_of_keepsId⟩,
    Record.exists_ofText_laidOut rs, ?_, ?_⟩
  · rintro rfl r hr
    rw [records] at h
    split at h
    · cases h
    · rename_i hread
      cases h
      cases j with
      | list items =>
        obtain ⟨item, -, hitem⟩ := Record.exists_of_mem_readAll hread hr
        exact Record.keepsId_iff.2 (Record.notMem_names_of_ofJson hitem)
      | _ => cases hread
  · rintro rfl
    rw [records] at h
    split at h
    · cases h
    · rename_i hresponse
      cases h
      rw [Response.records] at hresponse
      split at hresponse
      · cases hresponse
      · rename_i pages hpages
        obtain ⟨⟨_, _⟩, hrecords, he⟩ := Except.map_eq_ok.1 hresponse
        cases he
        refine ⟨pages, hpages, (Response.forall₂_names_of_recordsFrom hrecords).imp ?_⟩
        rintro page r ⟨hid, hnames⟩
        exact ⟨hid, by rw [Record.keepsId_iff, hnames]⟩

/-- A response with two pages. The first one has a title that is called as the
    identity of a record is. -/
def retitled : Json :=
  .object [("results", .list [
    .object [("id", .text "a"), ("properties", .object [("id", .object
      [("title", .list [.object [("plain_text", .text "b")]]), ("type", .text "title")])])],
    .object [("id", .text "c"), ("properties", .object [("Done", .object
      [("checkbox", .boolean true), ("type", .text "checkbox")])])]])]

/-- The record of the first page. -/
def renamed : Record := ⟨"a", ⟨[("id", .text "b")], by decide⟩⟩

/-- The record of the second page. -/
def unchanged : Record := ⟨"c", ⟨[("Done", .boolean true)], by decide⟩⟩

theorem keepsId_iff_and_ofText_of_records_retitled :
    (∃ schema, records .response none retitled = .ok ([renamed, unchanged], schema)) ∧
      ¬renamed.KeepsId ∧ unchanged.KeepsId ∧
      ∃ objects : List (List (String × Json)),
        Json.ofText (String.ofList (Record.listToJson [renamed, unchanged]).laidOut) =
          .ok (.list (objects.map .object)) ∧
        objects.map (fun entries => get? entries "id") = [some (.text "b"), some (.text "c")] := by
  obtain ⟨hkeeps, hread, -, -⟩ := keepsId_iff_and_ofText_of_records
    (show records .response none retitled = .ok ([renamed, unchanged], _) from rfl)
  rw [List.forall_mem_cons, List.forall_mem_singleton] at hkeeps
  exact ⟨⟨_, rfl⟩, fun h => hkeeps.1.1.1 h (by decide), hkeeps.2.1.2 (by decide), hread⟩

/-- Not all records that are loaded keep their identities. -/
theorem not_keepsId_of_records : ¬∀ (layout : Layout) (given : Option Schema) (j : Json)
    (rs : List Record) (schema : Schema), records layout given j = .ok (rs, schema) →
      (∀ r ∈ rs, r.KeepsId) ∧ ∃ objects : List (List (String × Json)),
        Json.ofText (String.ofList (Record.listToJson rs).laidOut) =
          .ok (.list (objects.map .object)) ∧
        objects.map (fun entries => get? entries "id") = rs.map fun r => some (.text r.id) := by
  intro h
  have hkeeps := (h .response none retitled [renamed, unchanged] _ rfl).1 renamed
    List.mem_cons_self
  exact Record.keepsId_iff.1 hkeeps (by decide)

end Document

end Sift
