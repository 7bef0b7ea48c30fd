import Sift.Proofs.Instant.Labels
import Sift.Proofs.Selection.Named
import Sift.Proofs.Tally.Counted

/-!
# Values with the same label

A tally counts values by their labels. Labels tell values of one kind apart, but
for the colors of tags and for numbers that are none, and they tell numbers,
booleans and dates from each other. Texts and tags, though, may be spelled as a
value of any other kind.

* `Double.plain_eq_iff`: which numbers are written alike;
* `Value.uncolored_eq_or_noNumbers`: which values of one kind have the same label;
* `Value.Spells`: texts and tags that are spelled as another value, and
  `Value.spells_or_spells`: that there are no others across kinds;
* `Value.label_eq_iff`: which values have the same label.
-/

namespace Sift

open Text

/-! ## Labels of numbers -/

namespace Double

variable {d : Double}

theorem plain_of_isNaN (h : d.isNaN) : d.plain = "NaN".toList := by rw [plain, if_pos h]

theorem plain_of_infinite (hnan : ¬d.isNaN) (hfinite : ¬d.isFinite) :
    d.plain = d.sign ++ "inf".toList := by
  rw [plain, if_neg hnan, if_pos (by simpa using hfinite)]

/-- The characters of a number in positional notation, finite or not. -/
theorem all_plain (d : Double) : ∀ c ∈ d.plain, isDigit c ∨ c ∈ "-.NaNinf".toList := by
  intro c hc
  by_cases hfinite : d.isFinite
  · rcases of_mem_plain hfinite hc with h | rfl | rfl
    · exact .inl h
    · exact .inr (by decide)
    · exact .inr (by decide)
  · refine .inr ?_
    by_cases hnan : d.isNaN
    · rw [plain_of_isNaN hnan] at hc
      exact List.mem_of_mem_drop (i := 2) (List.mem_of_mem_take (i := 3) hc)
    · rw [plain_of_infinite hnan hfinite, List.mem_append, sign] at hc
      rcases hc with hc | hc
      · split at hc
        · exact List.mem_singleton.1 hc ▸ by decide
        · exact absurd hc List.not_mem_nil
      · exact List.mem_of_mem_drop (i := 5) hc

theorem notMem_plain {c : Char} (h : isDigit c = false) (hc : c ∉ "-.NaNinf".toList) :
    c ∉ d.plain := fun hmem => by
  rcases d.all_plain c hmem with hdigit | hmem
  · exact Bool.false_ne_true (h.symm.trans hdigit)
  · exact hc hmem

/-- Only infinities and what is no number are written with letters. -/
theorem isFinite_iff_notMem : d.isFinite ↔ 'N' ∉ d.plain ∧ 'f' ∉ d.plain := by
  constructor
  · intro h
    constructor
    · exact fun hmem => by simpa [isDigit] using of_mem_plain h hmem
    · exact fun hmem => by simpa [isDigit] using of_mem_plain h hmem
  · intro h
    by_contra hfinite
    by_cases hnan : d.isNaN
    · exact h.1 (plain_of_isNaN hnan ▸ by decide)
    · exact h.2 (plain_of_infinite hnan hfinite ▸ List.mem_append_right _ (by decide))

theorem isNaN_iff_mem : d.isNaN ↔ 'N' ∈ d.plain := by
  constructor
  · intro h
    exact plain_of_isNaN h ▸ by decide
  · intro h
    by_contra hnan
    by_cases hfinite : d.isFinite
    · exact (isFinite_iff_notMem.1 hfinite).1 h
    · rw [plain_of_infinite hnan hfinite, sign] at h
      split at h <;> exact absurd h (by decide)

/-- Numbers are written differently if they differ, and all that are none alike. -/
theorem plain_eq_iff {x y : Double} : x.plain = y.plain ↔ x = y ∨ x.isNaN ∧ y.isNaN := by
  constructor
  · intro h
    have hnan : x.isNaN ↔ y.isNaN := by rw [isNaN_iff_mem, isNaN_iff_mem, h]
    have hfinite : x.isFinite ↔ y.isFinite := by
      rw [isFinite_iff_notMem, isFinite_iff_notMem, h]
    by_cases hx : x.isNaN
    · exact .inr ⟨hx, hnan.1 hx⟩
    refine .inl ?_
    by_cases hf : x.isFinite
    · have hread := congrArg ofText? h
      rw [ofText?_plain hf, ofText?_plain (hfinite.1 hf)] at hread
      exact Option.some.inj hread
    · -- There are two infinities, and one of them has a minus.
      have hy : ¬y.isNaN := fun hy => hx (hnan.2 hy)
      have hg : ¬y.isFinite := fun hg => hf (hfinite.2 hg)
      rw [plain_of_infinite hx hf, plain_of_infinite hy hg, List.append_cancel_right_eq] at h
      obtain ⟨nx, mx, _⟩ := x
      obtain ⟨ny, my, _⟩ := y
      simp only [isNaN, isFinite, decide_eq_true_eq] at hx hf hy hg
      obtain rfl : mx = my := by omega
      cases nx <;> cases ny <;> simp [sign] at h <;> rfl
  · rintro (rfl | ⟨hx, hy⟩)
    · rfl
    · rw [plain_of_isNaN hx, plain_of_isNaN hy]

end Double

/-! ## Labels of values -/

namespace Value

variable {v w : Value}

/-- Whether the value, if it is a date, has its leap second, if any, where clocks
    have it. -/
def Proper : Value → Prop
  | date i => i.Proper
  | _ => True

theorem proper_of_mem_occurrences (hv : v.Proper) (hw : w ∈ v.occurrences) : w.Proper := by
  cases v with
  | optionList ts =>
    obtain ⟨t, -, rfl⟩ := List.mem_map.1 hw
    trivial
  | _ => exact List.mem_singleton.1 hw ▸ hv

/-- A text or a tag that is spelled as the label of a value of another kind. -/
inductive Spells : Value → Value → Prop
  | text {s : String} {w : Value} : w.kind ≠ "text" → s = w.label → Spells (.text s) w
  | option {t : Tag} {w : Value} : w.kind ≠ "option" → t.name = w.label → Spells (.option t) w

/-- Two numbers that are none. -/
inductive NoNumbers : Value → Value → Prop
  | intro {x y : Double} : x.isNaN → y.isNaN → NoNumbers (.number x) (.number y)

theorem label_uncolored (v : Value) : v.uncolored.label = v.label := by cases v <;> rfl

theorem Spells.label_eq (h : v.Spells w) : v.label = w.label := by
  cases h with
  | text _ h => exact h
  | option _ h => exact h

theorem NoNumbers.label_eq (h : v.NoNumbers w) : v.label = w.label := by
  cases h with
  | intro hx hy => exact congrArg String.ofList (Double.plain_eq_iff.2 (.inr ⟨hx, hy⟩))

/-! Numbers are written with digits and few other characters, of which booleans and
dates have others. -/

theorem label_number_ne_boolean (d : Double) (b : Bool) :
    (number d).label ≠ (boolean b).label := by
  intro h
  have hmem : 'e' ∈ (boolean b).label.toList := by cases b <;> decide
  rw [← h, label, String.toList_ofList] at hmem
  exact Double.notMem_plain (by decide) (by decide) hmem

theorem colon_mem_label_date (i : Instant) : ':' ∈ (date i).label.toList := by
  rw [label, String.toList_ofList]
  exact List.mem_append_right _ (by decide)

theorem label_number_ne_date (d : Double) (i : Instant) :
    (number d).label ≠ (date i).label := by
  intro h
  have hmem := colon_mem_label_date i
  rw [← h, label, String.toList_ofList] at hmem
  exact Double.notMem_plain (by decide) (by decide) hmem

theorem label_boolean_ne_date (b : Bool) (i : Instant) :
    (boolean b).label ≠ (date i).label := by
  intro h
  have hmem := colon_mem_label_date i
  rw [← h] at hmem
  cases b <;> exact absurd hmem (by decide)

theorem label_boolean_injective {a b : Bool} (h : (boolean a).label = (boolean b).label) :
    a = b := by
  revert h
  cases a <;> cases b <;> decide

/-- Within a kind of values that are listed, the label tells a value up to the
    colors of tags, if it is no number that is none. -/
theorem uncolored_eq_or_noNumbers (hv : v.Proper) (hw : w.Proper) (hkind : v.kind = w.kind)
    (hne : v.label ≠ "") (h : v.label = w.label) : v.uncolored = w.uncolored ∨ v.NoNumbers w := by
  cases v with
  | null | optionList _ => exact absurd rfl hne
  | text s =>
    cases w with
    | text s' => exact .inl (congrArg text h)
    | _ => exact absurd hkind (by simp [kind])
  | boolean a =>
    cases w with
    | boolean b => exact .inl (congrArg boolean (label_boolean_injective h))
    | _ => exact absurd hkind (by simp [kind])
  | number x =>
    cases w with
    | number y =>
      refine (Double.plain_eq_iff.1 (String.ofList_injective h)).imp (congrArg number) ?_
      exact fun ⟨hx, hy⟩ => .intro hx hy
    | _ => exact absurd hkind (by simp [kind])
  | date i =>
    cases w with
    | date j =>
      have hij := Instant.labelled_injective hv hw (String.ofList_injective h)
      exact .inl (congrArg date hij)
    | _ => exact absurd hkind (by simp [kind])
  | option t =>
    cases w with
    | option u => exact .inl (congrArg (fun name => option (.plain name)) h)
    | _ => exact absurd hkind (by simp [kind])

/-- The kinds of values whose labels have a form of their own. -/
def HasForm : Value → Prop
  | boolean _ | number _ | date _ => True
  | _ => False

theorem kind_eq_of_hasForm (hv : v.HasForm) (hw : w.HasForm) (h : v.label = w.label) :
    v.kind = w.kind := by
  cases v with
  | boolean b =>
    cases w with
    | boolean _ => rfl
    | number d => exact absurd h.symm (label_number_ne_boolean d b)
    | date i => exact absurd h (label_boolean_ne_date b i)
    | _ => exact hw.elim
  | number d =>
    cases w with
    | boolean b => exact absurd h (label_number_ne_boolean d b)
    | number _ => rfl
    | date i => exact absurd h (label_number_ne_date d i)
    | _ => exact hw.elim
  | date i =>
    cases w with
    | boolean b => exact absurd h.symm (label_boolean_ne_date b i)
    | number d => exact absurd h.symm (label_number_ne_date d i)
    | date _ => rfl
    | _ => exact hw.elim
  | _ => exact hv.elim

theorem spells_of_not_hasForm (hv : ¬v.HasForm) (hkind : v.kind ≠ w.kind) (hne : v.label ≠ "")
    (h : v.label = w.label) : v.Spells w := by
  cases v with
  | null | optionList _ => exact absurd rfl hne
  | text s => exact .text hkind.symm h
  | option t => exact .option hkind.symm h
  | boolean _ | number _ | date _ => exact absurd trivial hv

/-- Across kinds, values have the same label if one of them is a text or a tag that
    is spelled as the other. -/
theorem spells_or_spells (hkind : v.kind ≠ w.kind) (hne : v.label ≠ "") (h : v.label = w.label) :
    v.Spells w ∨ w.Spells v := by
  by_cases hv : v.HasForm
  · by_cases hw : w.HasForm
    · exact absurd (kind_eq_of_hasForm hv hw h) hkind
    · exact .inr (spells_of_not_hasForm hw hkind.symm (h ▸ hne) h.symm)
  · exact .inl (spells_of_not_hasForm hv hkind hne h)

/-- Which values have the same label, of those that are listed. -/
theorem label_eq_iff (hv : v.Proper) (hw : w.Proper) (hne : v.label ≠ "") :
    v.label = w.label ↔
      v.uncolored = w.uncolored ∨ v.NoNumbers w ∨ v.Spells w ∨ w.Spells v := by
  constructor
  · intro h
    by_cases hkind : v.kind = w.kind
    · exact (uncolored_eq_or_noNumbers hv hw hkind hne h).imp_right .inl
    · exact .inr (.inr (spells_or_spells hkind hne h))
  · rintro (h | h | h | h)
    · rw [← label_uncolored v, h, label_uncolored]
    · exact h.label_eq
    · exact h.label_eq
    · exact h.label_eq.symm

end Value

end Sift
