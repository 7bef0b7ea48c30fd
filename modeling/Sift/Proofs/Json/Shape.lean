import Mathlib.Data.List.Forall2
import Sift.Json.Shape
import Sift.Proofs.Results

/-!
# Parts of JSON values

What the readers of fields and lists give was read from a part of the value:
from the value under the field's key, or from an item of the list.

* `Json.Names`, `Json.asName_outside_eq_ok_iff`: the values that name something;
* `Json.mem_of_get?`: what is under a key is an entry;
* `Json.field?_eq_ok_some_iff`, `Json.read_of_optional`,
  `Json.readAll_eq_ok_iff`: where the value of a field, an optional value and the
  items of a list come from;
* `Json.readAll_map`: a list of stored things reads back if each of them does.
-/

namespace Sift.Json

variable {α β : Type} {read : Json → Except ShapeError α} {entries : List (String × Json)}
  {name : String} {items : List Json} {j : Json} {x : α} {xs : List α}

/-- The values that name something: a text, and an object with null under its
    only key. -/
inductive Names : Json → String → Prop
  | text (s : String) : Names (.text s) s
  | key (s : String) : Names (.object [(s, .null)]) s

theorem asName_outside_eq_ok_iff {s : String} : asName .outside j = .ok s ↔ j.Names s := by
  constructor
  · intro h
    unfold asName at h
    split at h
    · cases h
      exact .text s
    · obtain ⟨_, hunit, rfl⟩ := Except.map_eq_ok.1 h
      unfold asUnit at hunit
      split at hunit
      · exact .key _
      · exact absurd hunit (by simp [unlike])
      · exact absurd hunit (by simp [unlike])
    · cases h
    · exact absurd h (by simp [unlike])
  · rintro (_ | _) <;> rfl

theorem asText_eq_ok_iff {s : String} : asText j = .ok s ↔ j = .text s := by
  cases j <;> simp [asText, unlike]

theorem mem_of_get? (h : get? entries name = some j) : (name, j) ∈ entries := by
  rw [get?, Option.map_eq_some_iff] at h
  obtain ⟨entry, hentry, rfl⟩ := h
  have hname : entry.1 = name := by simpa using List.find?_some hentry
  exact hname ▸ List.mem_of_find?_eq_some hentry

theorem field?_eq_ok_none_iff :
    field? entries name read = .ok none ↔ get? entries name = none := by
  rw [field?]
  cases get? entries name with
  | none => simp
  | some j => simp [Except.map_eq_ok]

theorem field?_eq_ok_some_iff : field? entries name read = .ok (some x) ↔
    ∃ j, get? entries name = some j ∧ read j = .ok x := by
  rw [field?]
  cases get? entries name with
  | none => simp
  | some j => simp [Except.map_eq_ok]

theorem exists_of_field? (h : field? entries name read = .ok (some x)) :
    ∃ j, (name, j) ∈ entries ∧ read j = .ok x := by
  obtain ⟨j, hj, hread⟩ := field?_eq_ok_some_iff.1 h
  exact ⟨j, mem_of_get? hj, hread⟩

theorem read_of_optional (h : optional read j = .ok (some x)) : read j = .ok x := by
  unfold optional at h
  split at h
  · exact absurd h (by simp)
  · obtain ⟨y, hy, he⟩ := Except.map_eq_ok.1 h
    cases he
    exact hy

theorem readAll_eq_ok_iff :
    readAll read items = .ok xs ↔ List.Forall₂ (fun j x => read j = .ok x) items xs := by
  induction items generalizing xs with
  | nil => simp [readAll, eq_comm]
  | cons j items ih =>
    rw [readAll, List.forall₂_cons_left_iff]
    simp only [Except.bind_eq_ok, Except.pure_eq_ok, ih]
    constructor
    · rintro ⟨x, hx, xs, hxs, rfl⟩
      exact ⟨x, xs, hx, hxs, rfl⟩
    · rintro ⟨x, xs, hx, hxs, rfl⟩
      exact ⟨x, hx, xs, hxs, rfl⟩

/-- What a relation gives on the right comes from something on the left. -/
theorem exists_of_forall₂_of_mem {R : α → β → Prop} {xs : List α} {ys : List β} {y : β}
    (h : List.Forall₂ R xs ys) (hy : y ∈ ys) : ∃ x ∈ xs, R x y := by
  induction h with
  | nil => exact absurd hy List.not_mem_nil
  | @cons x y' xs ys hx _ ih =>
    rcases List.mem_cons.1 hy with rfl | hy
    · exact ⟨x, List.mem_cons_self, hx⟩
    · obtain ⟨x', hx', hr⟩ := ih hy
      exact ⟨x', List.mem_cons_of_mem _ hx', hr⟩

theorem exists_of_mem_readAll (h : readAll read items = .ok xs) (hx : x ∈ xs) :
    ∃ j ∈ items, read j = .ok x :=
  exists_of_forall₂_of_mem (R := fun j x => read j = .ok x) (readAll_eq_ok_iff.1 h) hx

theorem readAll_map {store : β → Json} {restored : β → α} {ys : List β}
    (h : ∀ y ∈ ys, read (store y) = .ok (restored y)) :
    readAll read (ys.map store) = .ok (ys.map restored) := by
  induction ys with
  | nil => rfl
  | cons y ys ih =>
    rw [List.forall_mem_cons] at h
    rw [List.map_cons, List.map_cons, readAll, h.1, ih h.2]
    rfl

end Sift.Json
