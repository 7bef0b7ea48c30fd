import Mathlib.Data.List.Forall2
import Sift.Proofs.Json.Shape
import Sift.Record.Value

/-!
# Shapes of stored values

What a stored value is read as is told by the type that is declared for it, and
without one by its shape: said here as a relation, apart from the reader.

* `Tag.ReadsAs`: the values that stand for a tag, and `Value.tagOf?_eq_some_iff`:
  that they are read as it;
* `Value.ReadsAs`: the values that stand for a value under a declared type or
  under none, and `Value.ofJson?_eq_some_iff`: that they are read as it;
* `Value.Readable`: the values that are read as something.
-/

namespace Sift

open Json

/-! ## Tags -/

/-- The tag that the entries of an object describe: by a name, and by a color
    unless it is the default one. Other entries do not matter. -/
inductive Tag.Described (entries : List (String × Json)) : Tag → Prop
  | plain {name : String} : get? entries "name" = some (.text name) →
    get? entries "color" = none → Described entries (.plain name)
  | colored {name color : String} {j : Json} : get? entries "name" = some (.text name) →
    get? entries "color" = some j → j.Names color → Described entries ⟨name, .ofName color⟩

/-- The values that stand for a tag: its name, and an object that describes it. -/
inductive Tag.ReadsAs : Json → Tag → Prop
  | name (s : String) : ReadsAs (.text s) (.plain s)
  | object {entries : List (String × Json)} {t : Tag} : Described entries t →
    ReadsAs (.object entries) t

theorem Tag.ofJson_object_eq_ok_iff {entries : List (String × Json)} {t : Tag} :
    ofJson .outside (.object entries) = .ok t ↔ Described entries t := by
  constructor
  · intro h
    obtain ⟨color?, hcolor, h⟩ := Except.bind_eq_ok.1 h
    obtain ⟨name?, hname, h⟩ := Except.bind_eq_ok.1 h
    cases name? with
    | none => cases h
    | some name =>
      cases h
      obtain ⟨j, hj, htext⟩ := field?_eq_ok_some_iff.1 hname
      rw [asText_eq_ok_iff.1 htext] at hj
      cases color? with
      | none => exact .plain hj (field?_eq_ok_none_iff.1 hcolor)
      | some color =>
        obtain ⟨stored, hstored, hread⟩ := field?_eq_ok_some_iff.1 hcolor
        obtain ⟨s, hs, rfl⟩ := Except.map_eq_ok.1 hread
        exact .colored hj hstored (asName_outside_eq_ok_iff.1 hs)
  · rintro (⟨hname, hcolor⟩ | ⟨hname, hcolor, hnames⟩)
    · rw [ofJson, field?_eq_ok_none_iff.2 hcolor,
        field?_eq_ok_some_iff.2 ⟨_, hname, asText_eq_ok_iff.2 rfl⟩]
      rfl
    · have hread := congrArg (Except.map Color.ofName) (asName_outside_eq_ok_iff.2 hnames)
      rw [ofJson, field?_eq_ok_some_iff.2 ⟨_, hcolor, hread⟩,
        field?_eq_ok_some_iff.2 ⟨_, hname, asText_eq_ok_iff.2 rfl⟩]
      rfl

/-! ## Values -/

namespace Value

theorem tagOf?_eq_some_iff {j : Json} {t : Tag} : tagOf? j = some t ↔ Tag.ReadsAs j t := by
  constructor
  · intro h
    cases j with
    | text s =>
      cases h
      exact .name s
    | object entries =>
      cases hread : Tag.ofJson .outside (.object entries) with
      | ok u =>
        rw [tagOf?, hread] at h
        cases h
        exact .object (Tag.ofJson_object_eq_ok_iff.1 hread)
      | error e =>
        rw [tagOf?, hread] at h
        cases h
    | _ => cases h
  · rintro (_ | h)
    · rfl
    · rw [tagOf?, Tag.ofJson_object_eq_ok_iff.2 h, Except.toOption]

theorem tagsOf?_eq_some_iff {items : List Json} {ts : List Tag} :
    tagsOf? (.list items) = some ts ↔ List.Forall₂ Tag.ReadsAs items ts := by
  rw [tagsOf?]
  induction items generalizing ts with
  | nil => simp [eq_comm]
  | cons j items ih =>
    rw [List.mapM_cons, List.forall₂_cons_left_iff]
    simp only [Option.bind_eq_bind, Option.bind_eq_some_iff, Option.pure_def, Option.some_inj,
      tagOf?_eq_some_iff, ih]
    constructor
    · rintro ⟨t, ht, ts, hts, rfl⟩
      exact ⟨t, ts, ht, hts, rfl⟩
    · rintro ⟨t, ts, ht, hts, rfl⟩
      exact ⟨t, ht, ts, hts, rfl⟩

/-- What a stored value is read as, under the type that is declared for it. If
    none is declared, its shape tells, and no text is taken for a date or for the
    name of a tag. -/
inductive ReadsAs : Option PropertyType → Json → Value → Prop
  | null (declared : Option PropertyType) : ReadsAs declared .null null
  | text {declared : Option PropertyType} (s : String) : declared = some .text ∨ declared = none →
    ReadsAs declared (.text s) (text s)
  | boolean {declared : Option PropertyType} (b : Bool) :
    declared = some .boolean ∨ declared = none → ReadsAs declared (.boolean b) (boolean b)
  | number {declared : Option PropertyType} (n : Json.Number) :
    declared = some .number ∨ declared = none → ReadsAs declared (.number n) (number n.toDouble)
  | date {s : String} {i : Instant} : Instant.ofText? s.toList = some i →
    ReadsAs (some .date) (.text s) (date i)
  | option {j : Json} {t : Tag} : Tag.ReadsAs j t → ReadsAs (some .option) j (option t)
  | shapedOption {entries : List (String × Json)} {t : Tag} : Tag.ReadsAs (.object entries) t →
    ReadsAs none (.object entries) (option t)
  | optionList {declared : Option PropertyType} {items : List Json} {ts : List Tag} :
    declared = some .optionList ∨ declared = none → List.Forall₂ Tag.ReadsAs items ts →
    ReadsAs declared (.list items) (optionList ts)

theorem readsAs_of_ofTyped? {t : PropertyType} {j : Json} {v : Value}
    (h : ofTyped? t j = some v) : ReadsAs (some t) j v := by
  unfold ofTyped? at h
  split at h
  · cases h
    exact .text _ (.inl rfl)
  · cases h
    exact .boolean _ (.inl rfl)
  · cases h
    exact .number _ (.inl rfl)
  · obtain ⟨i, hi, rfl⟩ := Option.map_eq_some_iff.1 h
    exact .date hi
  · obtain ⟨t, ht, rfl⟩ := Option.map_eq_some_iff.1 h
    exact .option (tagOf?_eq_some_iff.1 ht)
  · obtain ⟨ts, hts, rfl⟩ := Option.map_eq_some_iff.1 h
    cases j with
    | list items => exact .optionList (.inl rfl) (tagsOf?_eq_some_iff.1 hts)
    | _ => cases hts
  · cases h

theorem readsAs_of_ofShape? {j : Json} {v : Value} (h : ofShape? j = some v) :
    ReadsAs none j v := by
  cases j with
  | null =>
    cases h
    exact .null _
  | boolean b =>
    cases h
    exact .boolean b (.inr rfl)
  | number n =>
    cases h
    exact .number n (.inr rfl)
  | text s =>
    cases h
    exact .text s (.inr rfl)
  | list items =>
    obtain ⟨ts, hts, rfl⟩ := Option.map_eq_some_iff.1 h
    exact .optionList (.inr rfl) (tagsOf?_eq_some_iff.1 hts)
  | object entries =>
    obtain ⟨t, ht, rfl⟩ := Option.map_eq_some_iff.1 h
    exact .shapedOption (tagOf?_eq_some_iff.1 ht)

/-- A stored value is read as the one value that it stands for, if it fits the
    declared type, or has a known shape if no type is declared. -/
theorem ofJson?_eq_some_iff {declared : Option PropertyType} {j : Json} {v : Value} :
    ofJson? declared j = some v ↔ ReadsAs declared j v := by
  constructor
  · intro h
    unfold ofJson? at h
    split at h
    · cases h
      exact .null _
    · exact readsAs_of_ofTyped? h
    · exact readsAs_of_ofShape? h
  · intro h
    cases h with
    | null => rfl
    | text s hdeclared => rcases hdeclared with rfl | rfl <;> rfl
    | boolean b hdeclared => rcases hdeclared with rfl | rfl <;> rfl
    | number n hdeclared => rcases hdeclared with rfl | rfl <;> rfl
    | date hi => simp [ofJson?, ofTyped?, hi]
    | option ht =>
      have hread := tagOf?_eq_some_iff.2 ht
      cases ht <;> simp [ofJson?, ofTyped?, hread]
    | shapedOption ht => simp [ofJson?, ofShape?, tagOf?_eq_some_iff.2 ht]
    | optionList hdeclared hts =>
      rcases hdeclared with rfl | rfl
      · simp [ofJson?, ofTyped?, tagsOf?_eq_some_iff.2 hts]
      · simp [ofJson?, ofShape?, tagsOf?_eq_some_iff.2 hts]

/-- Whether a stored value is null, fits the declared type, or has a known shape
    if no type is declared. -/
def Readable (declared : Option PropertyType) (j : Json) : Prop := ∃ v, ReadsAs declared j v

theorem ofJson?_eq_none_iff {declared : Option PropertyType} {j : Json} :
    ofJson? declared j = none ↔ ¬Readable declared j := by
  rw [Readable, ← Option.not_isSome_iff_eq_none, Option.isSome_iff_exists]
  simp only [ofJson?_eq_some_iff]

end Value

end Sift
