import Sift.Proofs.Storage.Values

/-!
# Stored records

A record is stored as a flat object, its identity first and then its
properties. As it is read, the identity stands among the properties, wherever
its key sorts to, so reading a record back comes down to its properties: they
are read one after the other, each under the type that the schema declares for
it.

* `Record.Storable`: the records that are stored in full, and
  `Record.ofJson_toJson`, `Record.ofJson_arranged`: that they read back, as they
  are written and as they are read;
* `Record.storable_of_ofJson`: records that are read are such, up to the years
  of their dates;
* `Record.listOfJson_listToJson_and_arranged`: so a list of records that was
  read from a document can be stored and read again.
-/

namespace Sift

open Json

variable {schema : Schema}

namespace Record

/-! ## Reading properties -/

section

variable {r r' : Record} {entries : List (String × Json)}

/-- Records with the same identity and the same entries are the same. -/
theorem eq_of_entries (hid : r.id = r'.id) (h : r.properties.entries = r'.properties.entries) :
    r = r' := by
  obtain ⟨id, properties⟩ := r
  obtain ⟨id', properties'⟩ := r'
  obtain rfl : id = id' := hid
  obtain rfl : properties = properties' := Columns.eq_of_entries_eq h
  rfl

/-- The identity of a record may stand anywhere among its properties. -/
theorem setAll_filter (r : Record) (entries : List (String × Json)) :
    setAll schema r (entries.filter fun entry => entry.1 ≠ "id") = setAll schema r entries := by
  induction entries generalizing r with
  | nil => rfl
  | cons entry entries ih =>
    obtain ⟨property, stored⟩ := entry
    rw [setAll]
    by_cases hid : property = "id"
    · rw [if_pos hid, List.filter_cons_of_neg (by simpa using hid), ih]
    · rw [if_neg hid, List.filter_cons_of_pos (by simpa using hid), setAll, if_neg hid]
      dsimp only
      split
      · exact ih _
      · rfl

/-- Stored properties, each of which reads back as its value, go behind the ones
    that the record has. -/
theorem setAll_map {store : Value → Json} {rest : List (String × Value)}
    (hr : r'.properties.entries = r.properties.entries ++ rest) (hsame : r'.id = r.id)
    (hid : ∀ entry ∈ rest, entry.1 ≠ "id")
    (hstore : ∀ entry ∈ rest,
      Value.ofJson? (schema.get? entry.1) (store entry.2) = some entry.2) :
    setAll schema r (rest.map fun entry => (entry.1, store entry.2)) = .ok r' := by
  induction rest generalizing r with
  | nil =>
    rw [List.append_nil] at hr
    rw [List.map_nil, setAll, eq_of_entries hsame hr]
  | cons entry rest ih =>
    obtain ⟨property, v⟩ := entry
    rw [List.forall_mem_cons] at hid hstore
    rw [List.map_cons, setAll, if_neg hid.1]
    dsimp only
    rw [hstore.1]
    -- The property is new, so that its value goes to the end.
    have hnew : property ∉ r.properties.names := by
      have hnodup := r'.properties.nodup
      rw [hr, List.map_append, List.map_cons, List.nodup_append] at hnodup
      intro hmem
      exact hnodup.2.2 property hmem property List.mem_cons_self rfl
    refine ih ?_ hsame hid.2 hstore.2
    rw [set, Columns.entries_set_of_notMem v hnew, List.append_assoc, List.singleton_append, hr]

/-- Where the properties of a record come from: they are those from before and
    some of the stored ones, in their order. -/
theorem of_setAll (h : setAll schema r entries = .ok r') :
    r'.id = r.id ∧
      r'.properties.names.Sublist
        (r.properties.names ++ (entries.map Prod.fst).filter fun name => name ≠ "id") ∧
      ∀ entry ∈ r'.properties.entries, entry ∈ r.properties.entries ∨
        ∃ j, (entry.1, j) ∈ entries ∧ Value.ofJson? (schema.get? entry.1) j = some entry.2 := by
  induction entries generalizing r with
  | nil =>
    rw [setAll] at h
    cases h
    rw [List.map_nil, List.filter_nil, List.append_nil]
    exact ⟨rfl, .refl _, fun _ hentry => .inl hentry⟩
  | cons entry entries ih =>
    obtain ⟨property, stored⟩ := entry
    rw [setAll] at h
    by_cases hid : property = "id"
    · rw [if_pos hid] at h
      obtain ⟨hsame, hnames, hentries⟩ := ih h
      rw [List.map_cons, List.filter_cons_of_neg (by simpa using hid)]
      refine ⟨hsame, hnames, ?_⟩
      intro entry hentry
      rcases hentries entry hentry with hentry | ⟨j, hj, hv⟩
      · exact .inl hentry
      · exact .inr ⟨j, List.mem_cons_of_mem _ hj, hv⟩
    · rw [if_neg hid] at h
      dsimp only at h
      split at h
      · rename_i v hv
        obtain ⟨hsame, hnames, hentries⟩ := ih h
        refine ⟨hsame, ?_, ?_⟩
        · rw [List.map_cons, List.filter_cons_of_pos (by simpa using hid), ← List.singleton_append,
            ← List.append_assoc]
          exact hnames.trans ((Columns.names_set_sublist ..).append_right _)
        · intro entry hentry
          rcases hentries entry hentry with hentry | ⟨j, hj, hv⟩
          · rcases Columns.mem_entries_set hentry with rfl | hentry
            · exact .inr ⟨stored, List.mem_cons_self, hv⟩
            · exact .inl hentry
          · exact .inr ⟨j, List.mem_cons_of_mem _ hj, hv⟩
      · exact absurd h (by simp)

end

/-! ## Records -/

/-- The records that are stored in full. -/
structure Storable (schema : Schema) (r : Record) : Prop where
  noId : "id" ∉ r.properties.names
  sorted : r.properties.names.Pairwise (· < ·)
  fits : ∀ entry ∈ r.properties.entries, entry.2.FitsIn (schema.get? entry.1)
  values : ∀ entry ∈ r.properties.entries, entry.2.Storable

section

variable {r : Record}

/-- The properties of a record, their values stored in some way. -/
def storedBy (store : Value → Json) (r : Record) : List (String × Json) :=
  r.properties.entries.map fun entry => (entry.1, store entry.2)

theorem map_fst_storedBy (store : Value → Json) (r : Record) :
    (r.storedBy store).map Prod.fst = r.properties.names := by
  rw [storedBy, List.map_map]
  rfl

theorem filter_storedBy (store : Value → Json) (hno : "id" ∉ r.properties.names) :
    ((r.storedBy store).filter fun entry => entry.1 ≠ "id") = r.storedBy store := by
  rw [List.filter_eq_self]
  intro entry hentry
  rw [decide_eq_true_eq]
  rintro hid
  exact hno (map_fst_storedBy store r ▸ hid ▸ List.mem_map_of_mem hentry)

/-- A record is read off its identity and its properties, if each of these reads
    back. -/
theorem ofJson_of_filter (store : Value → Json) {entries : List (String × Json)}
    (hid : get? entries "id" = some (.text r.id))
    (hentries : (entries.filter fun entry => entry.1 ≠ "id") = r.storedBy store)
    (hno : "id" ∉ r.properties.names)
    (hstore : ∀ entry ∈ r.properties.entries,
      Value.ofJson? (schema.get? entry.1) (store entry.2) = some entry.2) :
    ofJson schema (.object entries) = .ok r := by
  have hread : readId entries = .ok r.id := by
    rw [readId, hid]
  have hset : setAll schema (new r.id) entries = .ok r := by
    rw [← setAll_filter, hentries]
    refine setAll_map rfl rfl ?_ hstore
    intro entry hentry hid
    exact hno (hid ▸ List.mem_map_of_mem hentry)
  rw [ofJson, hread]
  exact hset

/-- A record reads back as it is written, its identity first. -/
theorem ofJson_toJson (h : r.Storable schema) : ofJson schema r.toJson = .ok r := by
  refine ofJson_of_filter Value.toJson rfl ?_ h.noId ?_
  · rw [List.filter_cons_of_neg (by simp)]
    exact filter_storedBy Value.toJson h.noId
  · intro entry hentry
    exact Value.ofJson?_of_storedAs (Value.storedAs_toJson (h.values entry hentry))
      (h.fits entry hentry)

theorem arranged_toJson (r : Record) : r.toJson.arranged =
    .object (sorted (("id", .text r.id) :: r.storedBy fun v => v.toJson.arranged)) := by
  rw [toJson, arranged, arrangedEntries_eq, ofEntries_eq, List.map_cons, List.map_map, arranged]
  rfl

/-- A record reads back as it is read, its identity in its place by key. -/
theorem ofJson_arranged (h : r.Storable schema) : ofJson schema r.toJson.arranged = .ok r := by
  have hkeys := map_fst_storedBy (fun v => v.toJson.arranged) r
  obtain ⟨hid, hentries⟩ := sorted_cons (.text r.id) (hkeys ▸ h.noId) (hkeys ▸ h.sorted)
  rw [arranged_toJson]
  refine ofJson_of_filter _ hid hentries h.noId ?_
  intro entry hentry
  exact Value.ofJson?_of_storedAs (Value.storedAs_arranged (h.values entry hentry))
    (h.fits entry hentry)

/-- Where the properties of a record that was read come from: from entries other
    than the identity, in their order. -/
theorem of_ofJson {entries : List (String × Json)} (h : ofJson schema (.object entries) = .ok r) :
    r.properties.names.Sublist ((entries.map Prod.fst).filter fun name => name ≠ "id") ∧
      ∀ entry ∈ r.properties.entries,
        ∃ j, (entry.1, j) ∈ entries ∧ Value.ofJson? (schema.get? entry.1) j = some entry.2 := by
  rw [ofJson, Except.bind_eq_ok] at h
  obtain ⟨id, -, h⟩ := h
  obtain ⟨-, hnames, hentries⟩ := of_setAll h
  exact ⟨hnames, fun entry hentry => (hentries entry hentry).resolve_left List.not_mem_nil⟩

/-- No property of a record that was read is called as the identity. -/
theorem notMem_names_of_ofJson {j : Json} (h : ofJson schema j = .ok r) :
    "id" ∉ r.properties.names := by
  cases j with
  | object entries =>
    intro hid
    have hmem := List.mem_filter.1 ((of_ofJson h).1.subset hid)
    exact absurd rfl (of_decide_eq_true hmem.2)
  | _ => exact absurd h (by simp [ofJson])

/-- The records that are read from proper JSON are stored in full again, if
    their dates have years of four digits. -/
theorem storable_of_ofJson {j : Json} (hj : j.Proper) (h : ofJson schema j = .ok r)
    (hyears : ∀ entry ∈ r.properties.entries, entry.2.FourDigitYear) : r.Storable schema := by
  have hno := notMem_names_of_ofJson h
  cases hj with
  | object hkeys hvalues =>
    obtain ⟨hnames, hentries⟩ := of_ofJson h
    refine ⟨hno, hkeys.sublist (hnames.trans List.filter_sublist), ?_, ?_⟩
    · intro entry hentry
      obtain ⟨j, -, hv⟩ := hentries entry hentry
      exact Value.fitsIn_of_ofJson? hv
    · intro entry hentry
      obtain ⟨j, hj, hv⟩ := hentries entry hentry
      exact Value.storable_of_ofJson? (hvalues _ hj) hv (hyears entry hentry)
  | _ => exact absurd h (by simp [ofJson])

end

/-! ## Lists of records -/

theorem readAll_map {store : Record → Json} {rs : List Record}
    (h : ∀ r ∈ rs, ofJson schema (store r) = .ok r) : readAll schema (rs.map store) = .ok rs := by
  induction rs with
  | nil => rfl
  | cons r rs ih =>
    rw [List.forall_mem_cons] at h
    rw [List.map_cons, readAll, h.1, ih h.2]
    rfl

theorem listOfJson_of_storable {rs : List Record} (h : ∀ r ∈ rs, r.Storable schema) :
    listOfJson schema (listToJson rs) = .ok rs ∧
      listOfJson schema (listToJson rs).arranged = .ok rs := by
  rw [listToJson, arranged, arrangedItems_eq, List.map_map]
  exact ⟨readAll_map fun r hr => ofJson_toJson (h r hr),
    readAll_map fun r hr => ofJson_arranged (h r hr)⟩

/-- Records that were read from a document, with dates in years of four digits,
    read back with the same schema from what is stored of them: the same records
    in the same order, with the same properties and values. This is so as they
    are written and as what is written is read. -/
theorem listOfJson_listToJson_and_arranged {schema : Schema} {j : Json} {rs : List Record}
    (hj : j.Proper) (h : listOfJson schema j = .ok rs)
    (hyears : ∀ r ∈ rs, ∀ entry ∈ r.properties.entries, entry.2.FourDigitYear) :
    listOfJson schema (listToJson rs) = .ok rs ∧
      listOfJson schema (listToJson rs).arranged = .ok rs := by
  cases hj with
  | list hitems =>
    refine listOfJson_of_storable fun r hr => ?_
    obtain ⟨item, hitem, hread⟩ := exists_of_mem_readAll h hr
    exact storable_of_ofJson (hitems item hitem) hread (hyears r hr)
  | _ => exact absurd h (by simp [listOfJson])

/-- Records with every kind of value, most of them in a spelling of their own: a
    number as an identity, a leap second in another zone, an option by its name
    and one of an unknown color, and properties that are not declared. -/
def logbook : Json :=
  .list [.object [("date", .text "2015-07-01T01:59:60.25+02:00"), ("extra", .boolean true),
      ("id", .number (.integer 7)), ("multiSelect", .list [.text "urgent",
        .object [("color", .text "teal"), ("name", .text "late")]]),
      ("number", .number (.integer 12)), ("status", .text "open")],
    .object [("date", .null), ("id", .text "b"), ("links", .list [])]]

/-- What the records are read as. -/
def logged : List Record :=
  [⟨"7", ⟨[("date", .date .inLeapSecond), ("extra", .boolean true),
      ("multiSelect", .optionList [.plain "urgent", .plain "late"]),
      ("number", .number (.ofInt 12)), ("status", .option (.plain "open"))], by decide⟩⟩,
    ⟨"b", ⟨[("date", .null), ("links", .optionList [])], by decide⟩⟩]

theorem proper_logbook : logbook.Proper := by
  simp only [logbook, proper_list_iff, proper_object_iff, proper_integer_iff,
    List.forall_mem_cons, List.not_mem_nil, false_implies, implies_true, Proper.text,
    Proper.boolean, Proper.null]
  decide

theorem listOfJson_logged : listOfJson .stock logbook = .ok logged ∧
    (∀ r ∈ logged, ∀ entry ∈ r.properties.entries, entry.2.FourDigitYear) ∧
    listOfJson .stock (listToJson logged) = .ok logged ∧
      listOfJson .stock (listToJson logged).arranged = .ok logged :=
  have hread : listOfJson .stock logbook = .ok logged := rfl
  ⟨hread, by decide, listOfJson_listToJson_and_arranged proper_logbook hread (by decide)⟩

end Record

end Sift
