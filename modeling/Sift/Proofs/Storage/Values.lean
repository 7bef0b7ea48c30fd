import Sift.Proofs.Double.Decimal
import Sift.Proofs.Instant.Stored
import Sift.Proofs.Json.Proper
import Sift.Proofs.Selection.Checked
import Sift.Proofs.Storage.Shapes

/-!
# Stored values

A value of a property is stored in a shape that tells its kind, but for dates,
which are stored as texts. So it reads back as itself under any type that it
fits, and without a type if it is no date.

* `Value.FitsIn`: the values that a property of a type, or of none, holds;
* `Value.Storable`: the values that are stored in full, and
  `Value.storable_of_ofJson?`: that the values that are read are such, up to the
  years of dates;
* `Value.StoredAs`: the JSON values that stand for a value, and
  `Value.ofJson?_of_storedAs`: that they are read as this value;
* `Value.storedAs_toJson`, `Value.storedAs_arranged`: what is stored stands for
  the value, as it is written and as it is read.
-/

namespace Sift

open Json

/-! ## Tags -/

namespace Tag

/-- A tag is read off its name and its color, wherever these stand. -/
theorem ofJson_of_get? {place : Place} {t : Tag} {entries : List (String × Json)}
    (hname : get? entries "name" = some (.text t.name))
    (hcolor : get? entries "color" = some (.text t.color.name)) :
    ofJson place (.object entries) = .ok t := by
  have hread : readColor place (.text t.color.name) = .ok t.color := by
    rw [readColor, asName, Except.map, Color.ofName_name]
  rw [ofJson, field?, field?, hname, hcolor]
  dsimp only
  rw [hread]
  rfl

theorem ofJson_toJson (place : Place) (t : Tag) : ofJson place t.toJson = .ok t :=
  ofJson_of_get? rfl rfl

theorem arranged_toJson (t : Tag) :
    t.toJson.arranged = .object [("color", .text t.color.name), ("name", .text t.name)] := by
  have hlt : "color" < "name" := by decide
  simp [toJson, arranged, arrangedEntries, ofEntries, put, hlt]

theorem ofJson_arranged (place : Place) (t : Tag) : ofJson place t.toJson.arranged = .ok t := by
  rw [arranged_toJson]
  exact ofJson_of_get? rfl rfl

end Tag

namespace Value

theorem tagOf?_toJson (t : Tag) : tagOf? t.toJson = some t := by
  rw [Tag.toJson, tagOf?, ← Tag.toJson, Tag.ofJson_toJson, Except.toOption]

theorem tagOf?_arranged (t : Tag) : tagOf? t.toJson.arranged = some t := by
  rw [Tag.arranged_toJson, tagOf?, ← Tag.arranged_toJson, Tag.ofJson_arranged, Except.toOption]

theorem tagsOf?_map {store : Tag → Json} (h : ∀ t, tagOf? (store t) = some t) (ts : List Tag) :
    tagsOf? (.list (ts.map store)) = some ts := by
  rw [tagsOf?]
  induction ts with
  | nil => rfl
  | cons t ts ih => rw [List.map_cons, List.mapM_cons, h, ih]; rfl

/-! ## Values -/

/-- Whether a property of a declared type, or of none, can hold the value.
    Without a type, no text is taken for a date. -/
def FitsIn (v : Value) : Option PropertyType → Prop
  | some t => v.Fits t
  | none => ∀ i, v ≠ .date i

/-- Whether the value is no date outside the years of four digits. -/
def FourDigitYear : Value → Prop
  | date i => i.FourDigitYear
  | _ => True

instance : DecidablePred FourDigitYear
  | date i => inferInstanceAs (Decidable i.FourDigitYear)
  | null | text _ | boolean _ | number _ | option _ | optionList _ => isTrue trivial

/-- The values that are stored in full. -/
def Storable : Value → Prop
  | number d => d.isFinite
  | date i => i.Proper ∧ i.FourDigitYear
  | _ => True

/-- The JSON values that stand for a value. -/
inductive StoredAs : Value → Json → Prop
  | null : StoredAs null .null
  | text (s : String) : StoredAs (text s) (.text s)
  | boolean (b : Bool) : StoredAs (boolean b) (.boolean b)
  | number (d : Double) : StoredAs (number d) (.number (.double d))
  | date {s : String} {i : Instant} : Instant.ofText? s.toList = some i →
    StoredAs (date i) (.text s)
  | option {entries : List (String × Json)} {t : Tag} : tagOf? (.object entries) = some t →
    StoredAs (option t) (.object entries)
  | optionList {items : List Json} {ts : List Tag} : tagsOf? (.list items) = some ts →
    StoredAs (optionList ts) (.list items)

/-- What stands for a value is read as this value under any type that it fits,
    and without a type if it is no date. -/
theorem ofJson?_of_storedAs {v : Value} {j : Json} {declared : Option PropertyType}
    (h : v.StoredAs j) (hfits : v.FitsIn declared) : ofJson? declared j = some v := by
  rcases declared with _ | t
  · cases h with
    | date _ => exact absurd rfl (hfits _)
    | option ht => simp [ofJson?, ofShape?, ht]
    | optionList hts => simp [ofJson?, ofShape?, hts]
    | _ => rfl
  · cases hfits with
    | date i =>
      cases h with
      | date hi => simp [ofJson?, ofTyped?, hi]
    | option t =>
      cases h with
      | option ht => simp [ofJson?, ofTyped?, ht]
    | optionList ts =>
      cases h with
      | optionList hts => simp [ofJson?, ofTyped?, hts]
    | _ => cases h; rfl

theorem storedAs_toJson {v : Value} (h : v.Storable) : v.StoredAs v.toJson := by
  cases v with
  | null => exact .null
  | text s => exact .text s
  | boolean b => exact .boolean b
  | number d =>
    rw [toJson, ofDouble, if_pos (show d.isFinite from h)]
    exact .number d
  | date i =>
    refine .date ?_
    rw [String.toList_ofList]
    exact Instant.ofText?_zulu h.1 h.2
  | option t => exact .option (tagOf?_toJson t)
  | optionList ts => exact .optionList (tagsOf?_map tagOf?_toJson ts)

theorem storedAs_arranged {v : Value} (h : v.Storable) : v.StoredAs v.toJson.arranged := by
  have hjson := storedAs_toJson h
  cases v with
  | number d =>
    rw [toJson, ofDouble, if_pos (show d.isFinite from h), arranged]
    exact .number d
  | option t =>
    rw [toJson, Tag.arranged_toJson]
    exact .option (Tag.arranged_toJson t ▸ tagOf?_arranged t)
  | optionList ts =>
    rw [toJson, arranged, arrangedItems_eq, List.map_map]
    exact .optionList (tagsOf?_map tagOf?_arranged ts)
  | _ => exact hjson

/-! ## Values that are read -/

section

variable {v : Value} {j : Json} {declared : Option PropertyType}

theorem exists_of_ofJson?_number {d : Double} (h : ofJson? declared j = some (.number d)) :
    ∃ n, j = .number n ∧ n.toDouble = d := by
  cases ofJson?_eq_some_iff.1 h with
  | number n _ => exact ⟨n, rfl, rfl⟩

theorem exists_of_ofJson?_date {i : Instant} (h : ofJson? declared j = some (.date i)) :
    declared = some .date ∧ ∃ s : String, j = .text s ∧ Instant.ofText? s.toList = some i := by
  cases ofJson?_eq_some_iff.1 h with
  | date hi => exact ⟨rfl, _, rfl, hi⟩

theorem fitsIn_of_ofJson? (h : ofJson? declared j = some v) : v.FitsIn declared := by
  rcases declared with _ | t
  · rintro i rfl
    exact absurd (exists_of_ofJson?_date h).1 (by simp)
  · exact fits_of_ofJson? h

/-- The values that are read from proper JSON are stored in full again, if their
    dates have years of four digits. -/
theorem storable_of_ofJson? (hj : j.Proper) (h : ofJson? declared j = some v)
    (hyear : v.FourDigitYear) : v.Storable := by
  cases v with
  | number d =>
    obtain ⟨n, rfl, rfl⟩ := exists_of_ofJson?_number h
    exact isFinite_toDouble hj
  | date i =>
    obtain ⟨_, s, _, hi⟩ := exists_of_ofJson?_date h
    exact ⟨Instant.proper_of_ofText? hi, hyear⟩
  | _ => trivial

end

end Value

end Sift
