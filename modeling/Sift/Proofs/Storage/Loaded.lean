import Sift.Document
import Sift.Proofs.Storage.Records
import Sift.Proofs.Storage.Responses
import Sift.Proofs.Tally.Labels

/-!
# Dates of loaded records

A date is read from a text, which has a leap second where clocks have them. So the
dates of records that were loaded, from a flat list or from a response, are never
other ones.

* `Document.proper_value_of_records`: that this is so for the values of all records
  and properties.
-/

namespace Sift

theorem Value.proper_of_ofJson? {declared : Option PropertyType} {j : Json} {v : Value}
    (h : ofJson? declared j = some v) : v.Proper := by
  cases v with
  | date i =>
    obtain ⟨-, s, -, hi⟩ := exists_of_ofJson?_date h
    exact Instant.proper_of_ofText? hi
  | _ => trivial

theorem Response.proper_of_typed {p : Property} {t : PropertyType} {v : Value}
    (h : p.typed = .ok (some (t, v))) : v.Proper := by
  cases p with
  | date raw =>
    cases raw with
    | none =>
      cases h
      trivial
    | some raw =>
      obtain ⟨v, hv, he⟩ := Except.map_eq_ok.1 h
      cases he
      obtain ⟨i, rfl, hi⟩ := exists_of_instantOf hv
      exact Instant.proper_of_ofText? hi
  | number d =>
    cases h
    cases d <;> trivial
  | option t =>
    cases h
    cases t <;> trivial
  | unsupported => cases h
  | _ =>
    cases h
    trivial

theorem Response.proper_of_typedProperty {name : String} {j : Json} {t : PropertyType} {v : Value}
    (h : typedProperty name j = .ok (some (t, v))) : v.Proper := by
  unfold typedProperty at h
  split at h
  · cases h
  · exact proper_of_typed h

/-- The values of a flat record are read from its entries. -/
theorem Record.proper_of_ofJson {schema : Schema} {item : Json} {r : Record}
    (h : ofJson schema item = .ok r) : ∀ entry ∈ r.properties.entries, entry.2.Proper := by
  cases item with
  | object entries =>
    intro entry hentry
    obtain ⟨j, -, hv⟩ := (of_ofJson h).2 entry hentry
    exact Value.proper_of_ofJson? hv
  | _ => cases h

namespace Document

/-- Every record of a document is one that was read, from a flat object or from a
    page. -/
theorem proper_of_records {layout : Layout} {given : Option Schema} {j : Json}
    {rs : List Record} {schema : Schema} (h : records layout given j = .ok (rs, schema)) :
    ∀ r ∈ rs, ∀ entry ∈ r.properties.entries, entry.2.Proper := by
  intro r hr
  cases layout with
  | records =>
    rw [records] at h
    split at h
    · cases h
    · rename_i hread
      cases h
      cases j with
      | list items =>
        obtain ⟨item, -, hitem⟩ := Record.exists_of_mem_readAll hread hr
        exact Record.proper_of_ofJson hitem
      | _ => cases hread
  | response =>
    rw [records] at h
    split at h
    · cases h
    · rename_i hresponse
      cases h
      rw [Response.records] at hresponse
      split at hresponse
      · cases hresponse
      · obtain ⟨⟨_, _⟩, hrecords, he⟩ := Except.map_eq_ok.1 hresponse
        cases he
        obtain ⟨page, -, -, hentries⟩ := Response.exists_page_of_recordsFrom hrecords r hr
        intro entry hentry
        obtain ⟨j, t, -, htyped⟩ := hentries entry hentry
        exact Response.proper_of_typedProperty htyped

/-- The dates of records that were loaded have their leap seconds where clocks have
    them. -/
theorem proper_value_of_records {layout : Layout} {given : Option Schema} {j : Json}
    {rs : List Record} {schema : Schema} (h : records layout given j = .ok (rs, schema))
    {r : Record} (hr : r ∈ rs) (property : String) : (r.value property).Proper := by
  rw [Record.value]
  cases hget : r.properties.get? property with
  | none => trivial
  | some v => exact proper_of_records h r hr _ (Columns.get?_eq_some_iff.1 hget)

end Document

end Sift
