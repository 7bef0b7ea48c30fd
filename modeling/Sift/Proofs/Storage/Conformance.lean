import Sift.Proofs.Storage.Records

/-!
# Records that conform to a schema

A stored list of records is read just if all of it conforms to the schema. What
that takes of a value, of an item and of a list is said here apart from the
reader, and so is which fault counts where something does not conform: the first
one, from the first item to the last, and within an item from the kind of value
that it is, over its identity, to its properties in their order.

* `Record.Conforms`, `Record.HasFault`: the items that are read, and the faults
  of the others;
* `Record.ReadsAs`: what the record of an item holds;
* `Record.ofJson_eq_error_iff`, `Record.readsAs_of_ofJson`: what an item fails
  with, and what the record that is read from it holds;
* `Record.listOfJson_iff_conforms_and_readsAs_and_hasFault`: the same for lists.
-/

namespace Sift

open Json

/-! ## Items -/

namespace Record

variable {schema : Schema}

/-- The identity that stands among the entries of an object: a text, or the
    spelling of a number. -/
inductive Identified (entries : List (String × Json)) : String → Prop
  | text {s : String} : get? entries "id" = some (.text s) → Identified entries s
  | number {n : Json.Number} : get? entries "id" = some (.number n) →
    Identified entries (String.ofList n.written)

/-- Whether an item is an object with an identity, under all other keys of which
    stand values that are read. -/
def Conforms (schema : Schema) (item : Json) : Prop :=
  ∃ entries, item = .object entries ∧ (∃ id, Identified entries id) ∧
    ∀ entry ∈ entries, entry.1 ≠ "id" → Value.Readable (schema.get? entry.1) entry.2

/-- The fault of a property of the record `id` whose value is not read. -/
inductive PropertyFault (schema : Schema) (id : String) : String × Json → Fault → Prop
  | unfit {property : String} {j : Json} : property ≠ "id" →
    ¬Value.Readable (schema.get? property) j →
    PropertyFault schema id (property, j) (.unfit id property (schema.get? property))

/-- The fault of an item that does not conform: that it is no object, or else that
    it has no identity, or else the one of its first faulty property. -/
inductive HasFault (schema : Schema) : Json → Fault → Prop
  | notObject {item : Json} : (∀ entries, item ≠ .object entries) → HasFault schema item .notObject
  | missingId {entries : List (String × Json)} : (∀ id, ¬Identified entries id) →
    HasFault schema (.object entries) .missingId
  | property {entries : List (String × Json)} {id : String} {e : Fault} : Identified entries id →
    FirstOf (PropertyFault schema id) entries e → HasFault schema (.object entries) e

/-- The record of an item: with its identity, and, as its keys are distinct, with
    what stands under the other keys, in their order. -/
inductive ReadsAs (schema : Schema) : Json → Record → Prop
  | object {entries : List (String × Json)} {r : Record} : Identified entries r.id →
    ((entries.map Prod.fst).Nodup → List.Forall₂ (fun stored entry =>
        entry.1 = stored.1 ∧ Value.ReadsAs (schema.get? stored.1) stored.2 entry.2)
      (entries.filter fun stored => stored.1 ≠ "id") r.properties.entries) →
    ReadsAs schema (.object entries) r

theorem readId_eq_ok_iff {entries : List (String × Json)} {id : String} :
    readId entries = .ok id ↔ Identified entries id := by
  constructor
  · intro h
    unfold readId at h
    split at h
    · rename_i hid
      cases h
      exact .text hid
    · rename_i hid
      cases h
      exact .number hid
    · cases h
  · rintro (hid | hid)
    · rw [readId, hid]
    · rw [readId, hid]

theorem readId_eq_error_iff {entries : List (String × Json)} {e : Fault} :
    readId entries = .error e ↔ e = .missingId ∧ ∀ id, ¬Identified entries id := by
  simp only [← readId_eq_ok_iff]
  unfold readId
  split <;> simp [eq_comm]

section

variable {r r' : Record} {entries : List (String × Json)} {e : Fault}

theorem setAll_eq_error_iff :
    setAll schema r entries = .error e ↔ FirstOf (PropertyFault schema r.id) entries e := by
  induction entries generalizing r with
  | nil => exact iff_of_false nofun not_firstOf_nil
  | cons entry entries ih =>
    obtain ⟨property, stored⟩ := entry
    rw [setAll, firstOf_cons]
    by_cases hid : property = "id"
    · have hsound : ∀ e, ¬PropertyFault schema r.id (property, stored) e := by
        rintro e ⟨hne, -⟩
        exact hne hid
      rw [if_pos hid, ih]
      simp [hsound]
    rw [if_neg hid]
    dsimp only
    cases hv : Value.ofJson? (schema.get? property) stored with
    | some v =>
      have hsound : ∀ e, ¬PropertyFault schema r.id (property, stored) e := by
        rintro e ⟨-, hread⟩
        exact hread ⟨v, Value.ofJson?_eq_some_iff.1 hv⟩
      rw [ih]
      simp [hsound, set]
    | none =>
      have hread := Value.ofJson?_eq_none_iff.1 hv
      constructor
      · intro h
        cases h
        exact .inl (.unfit hid hread)
      · rintro (⟨-, -⟩ | ⟨hsound, -⟩)
        · rfl
        · exact absurd (.unfit hid hread) (hsound _)

/-- The properties that are set go behind the ones that the record has, as their
    keys are new and distinct. -/
theorem exists_of_setAll (h : setAll schema r entries = .ok r')
    (hkeys : (r.properties.names ++ entries.map Prod.fst).Nodup) :
    ∃ added, r'.properties.entries = r.properties.entries ++ added ∧
      List.Forall₂ (fun stored entry =>
          entry.1 = stored.1 ∧ Value.ReadsAs (schema.get? stored.1) stored.2 entry.2)
        (entries.filter fun stored => stored.1 ≠ "id") added := by
  induction entries generalizing r with
  | nil =>
    cases h
    exact ⟨[], (List.append_nil _).symm, .nil⟩
  | cons entry entries ih =>
    obtain ⟨property, stored⟩ := entry
    rw [setAll] at h
    rw [List.map_cons] at hkeys
    by_cases hid : property = "id"
    · rw [if_pos hid] at h
      rw [List.filter_cons_of_neg (by simpa using hid)]
      exact ih h (hkeys.sublist ((List.sublist_cons_self ..).append_left _))
    · rw [if_neg hid] at h
      rw [List.filter_cons_of_pos (by simpa using hid)]
      dsimp only at h
      split at h
      · rename_i v hv
        have hnew : property ∉ r.properties.names := by
          intro hmem
          exact (List.nodup_append.1 hkeys).2.2 _ hmem _ List.mem_cons_self rfl
        have hset : (r.set property v).properties.names = r.properties.names ++ [property] := by
          rw [set, Columns.names_set, if_neg hnew]
        rw [← List.singleton_append, ← List.append_assoc, ← hset] at hkeys
        obtain ⟨added, hadded, hread⟩ := ih h hkeys
        refine ⟨(property, v) :: added, ?_, .cons ⟨rfl, Value.ofJson?_eq_some_iff.1 hv⟩ hread⟩
        rw [hadded, set, Columns.entries_set_of_notMem v hnew, List.append_assoc,
          List.singleton_append]
      · cases h

end

section

variable {item : Json} {r : Record} {e : Fault}

/-- An item fails with its fault. -/
theorem ofJson_eq_error_iff : ofJson schema item = .error e ↔ HasFault schema item e := by
  cases item with
  | object entries =>
    rw [ofJson, Except.bind_eq_error]
    simp only [readId_eq_error_iff, readId_eq_ok_iff, setAll_eq_error_iff]
    constructor
    · rintro (⟨rfl, hid⟩ | ⟨id, hid, hfirst⟩)
      · exact .missingId hid
      · exact .property hid hfirst
    · rintro (h | hid | ⟨hid, hfirst⟩)
      · exact absurd rfl (h entries)
      · exact .inl ⟨rfl, hid⟩
      · exact .inr ⟨_, hid, hfirst⟩
  | _ =>
    constructor
    · intro h
      cases h
      refine .notObject ?_
      rintro entries ⟨⟩
    · rintro ⟨-⟩
      rfl

/-- The items without a fault are those that conform. -/
theorem conforms_iff : Conforms schema item ↔ ∀ e, ¬HasFault schema item e := by
  constructor
  · rintro ⟨entries, rfl, ⟨id, hid⟩, hentries⟩ e (h | h | ⟨-, hfirst⟩)
    · exact h entries rfl
    · exact h id hid
    · obtain ⟨entry, hentry, e, ⟨hne, hread⟩⟩ := exists_firstOf_iff.1 ⟨e, hfirst⟩
      exact hread (hentries _ hentry hne)
  · intro h
    cases item with
    | object entries =>
      have hid : ∃ id, Identified entries id := by
        by_contra hnone
        exact h _ (.missingId (not_exists.1 hnone))
      obtain ⟨id, hid⟩ := hid
      refine ⟨entries, rfl, ⟨id, hid⟩, fun entry hentry hne => ?_⟩
      by_contra hread
      obtain ⟨e, he⟩ := exists_firstOf_iff.2 ⟨entry, hentry, _, PropertyFault.unfit hne hread⟩
      exact h e (.property hid he)
    | _ =>
      refine absurd (.notObject ?_) (h .notObject)
      rintro entries ⟨⟩

theorem conforms_iff_exists_ofJson :
    Conforms schema item ↔ ∃ r, ofJson schema item = .ok r := by
  rw [Except.exists_eq_ok_iff, conforms_iff, ← not_exists]
  simp only [ofJson_eq_error_iff]

/-- The record that is read from an item holds what stands there. -/
theorem readsAs_of_ofJson (h : ofJson schema item = .ok r) : ReadsAs schema item r := by
  cases item with
  | object entries =>
    obtain ⟨id, hid, h⟩ := Except.bind_eq_ok.1 h
    have hsame : r.id = id := (of_setAll h).1
    refine .object (hsame ▸ readId_eq_ok_iff.1 hid) fun hkeys => ?_
    obtain ⟨added, hadded, hread⟩ := exists_of_setAll h hkeys
    rw [show r.properties.entries = added from hadded]
    exact hread
  | _ => cases h

/-! ## Lists -/

theorem readAll_eq_error_iff {items : List Json} :
    readAll schema items = .error e ↔ FirstOf (HasFault schema) items e := by
  induction items with
  | nil => exact iff_of_false nofun not_firstOf_nil
  | cons item items ih =>
    rw [readAll, Except.bind_eq_error, firstOf_cons, ofJson_eq_error_iff, ← ih, ← conforms_iff,
      conforms_iff_exists_ofJson]
    -- Once the first item has been read, only the others can fail.
    simp only [Except.bind_pure_eq_error, ← exists_and_right]

end

/-- A list of records is read just if it conforms to the schema: if it is a list of
    objects, each with an identity, and with null or a value of the declared type,
    or of a known shape, under every other key. What is read is one record for
    each item, in their order, with what the item holds, and its properties have
    the declared types or are null. What does not conform fails with the fault of
    the first faulty item. -/
theorem listOfJson_iff_conforms_and_readsAs_and_hasFault (schema : Schema) (j : Json) :
    ((∃ rs, listOfJson schema j = .ok rs) ↔
        ∃ items, j = .list items ∧ ∀ item ∈ items, Conforms schema item) ∧
      (∀ rs, listOfJson schema j = .ok rs →
        (∃ items, j = .list items ∧ List.Forall₂ (ReadsAs schema) items rs) ∧
          ∀ r ∈ rs, schema.Describes r) ∧
      ∀ e, listOfJson schema j = .error e ↔
        (∀ items, j ≠ .list items) ∧ e = .notList ∨
          ∃ items, j = .list items ∧ FirstOf (HasFault schema) items e := by
  refine ⟨?_, ?_, ?_⟩
  · cases j with
    | list items =>
      have hread : (∃ rs, readAll schema items = .ok rs) ↔
          ∀ item ∈ items, Conforms schema item := by
        simp only [Except.exists_eq_ok_iff, readAll_eq_error_iff, exists_firstOf_iff, conforms_iff,
          not_exists, not_and]
      rw [listOfJson, hread]
      constructor
      · intro h
        exact ⟨items, rfl, h⟩
      · rintro ⟨_, ⟨⟩, h⟩
        exact h
    | _ =>
      constructor
      · rintro ⟨_, ⟨⟩⟩
      · rintro ⟨_, ⟨⟩, -⟩
  · intro rs h
    refine ⟨?_, Schema.describes_of_listOfJson h⟩
    cases j with
    | list items => exact ⟨items, rfl, (readAll_eq_ok_iff.1 h).imp fun _ _ => readsAs_of_ofJson⟩
    | _ => cases h
  · intro e
    cases j with
    | list items =>
      rw [listOfJson, readAll_eq_error_iff]
      simp
    | _ =>
      simp [listOfJson, eq_comm]

/-- Two items that conform to the stock schema: a number as an identity, a tag by
    its name among tags with colors, and a property that is not declared. -/
def errands : List Json :=
  [.object [("date", .text "2015-06-30"), ("id", .number (.integer 7)), ("multiSelect", .list
      [.text "urgent", .object [("color", .text "teal"), ("name", .text "late")]])],
    .object [("extra", .boolean true), ("id", .text "b"), ("number", .null)]]

/-- What they are read as. -/
def errandRecords : List Record :=
  [⟨"7", ⟨[("date", .date (.midnight Instant.inLeapSecond.date)),
      ("multiSelect", .optionList [.plain "urgent", .plain "late"])], by decide⟩⟩,
    ⟨"b", ⟨[("extra", .boolean true), ("number", .null)], by decide⟩⟩]

/-- An item without an identity, and with a text in place of a number. -/
def nameless : Json := .object [("number", .text "ten")]

/-- An item with a day that does not exist before a number in place of a text. -/
def misdated : Json :=
  .object [("date", .text "2023-02-29"), ("id", .text "c"), ("title", .number (.integer 1))]

/-- The items are read, and with others behind them, the first one of these is at
    fault: for its identity before its properties, or for its first property. -/
theorem listOfJson_errands_iff_conforms_and_readsAs_and_hasFault :
    (∀ item ∈ errands, Conforms .stock item) ∧
      List.Forall₂ (ReadsAs .stock) errands errandRecords ∧
      (∀ r ∈ errandRecords, Schema.stock.Describes r) ∧
      FirstOf (HasFault .stock) (errands ++ [nameless, misdated]) .missingId ∧
      FirstOf (HasFault .stock) (errands ++ [misdated, nameless])
        (.unfit "c" "date" (some .date)) := by
  have hread : listOfJson .stock (.list errands) = .ok errandRecords := rfl
  have hnameless : listOfJson .stock (.list (errands ++ [nameless, misdated])) =
    .error .missingId := rfl
  have hmisdated : listOfJson .stock (.list (errands ++ [misdated, nameless])) =
    .error (.unfit "c" "date" (some .date)) := rfl
  obtain ⟨hconforms, hreads, -⟩ :=
    listOfJson_iff_conforms_and_readsAs_and_hasFault .stock (.list errands)
  obtain ⟨_, he, hitems⟩ := hconforms.1 ⟨_, hread⟩
  cases he
  obtain ⟨⟨_, he, hrecords⟩, hdescribes⟩ := hreads _ hread
  cases he
  have hfault {items : List Json} {e : Fault} (h : listOfJson .stock (.list items) = .error e) :
      FirstOf (HasFault .stock) items e := by
    rcases ((listOfJson_iff_conforms_and_readsAs_and_hasFault .stock (.list items)).2.2 e).1 h with
      ⟨hlist, -⟩ | ⟨_, he, hfirst⟩
    · exact absurd rfl (hlist items)
    · cases he
      exact hfirst
  exact ⟨hitems, hrecords, hdescribes, hfault hnameless, hfault hmisdated⟩

end Record

end Sift
