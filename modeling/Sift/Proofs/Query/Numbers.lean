import Sift.Proofs.Double.Spelling
import Sift.Proofs.Instant.Shape
import Sift.Proofs.Query.Grammar

/-!
# Numbers and dates in queries

A run of the characters of numbers and dates is one or the other. No such run
has a power of ten, and only a date has a minus behind its first character.

* `ofText?_of_spells`, `spells_of_ofText?`: the numbers are what the grammar
  says;
* `ofText?_eq_none_of_date`: no date is a number.
-/

namespace Sift.Query

open Text

variable {s t w : List Char} {negative : Bool} {sign : List Char}

/-! ## Signs -/

theorem splitSign_append (h : Sign negative sign) (ht : Ends (fun c => c = '-' || c = '+') t) :
    splitSign (sign ++ t) = (negative, t) := by
  cases h with
  | plus => rfl
  | minus => rfl
  | none =>
    rw [List.nil_append, splitSign]
    · rintro r rfl
      exact absurd (ends_cons.1 ht) (by decide)
    · rintro r rfl
      exact absurd (ends_cons.1 ht) (by decide)

theorem exists_sign (h : splitSign s = (negative, t)) :
    ∃ sign, Sign negative sign ∧ s = sign ++ t := by
  unfold splitSign at h
  split at h
  · cases h
    exact ⟨_, .minus, rfl⟩
  · cases h
    exact ⟨_, .plus, rfl⟩
  · cases h
    exact ⟨_, .none, rfl⟩

/-- No digit is a sign. -/
theorem ends_sign_of_isDigit (h : ∀ c ∈ t, isDigit c) :
    ∀ c ∈ t, (decide (c = '-') || decide (c = '+')) = false := fun _ hc =>
  Bool.not_eq_true' _ ▸ of_isDigit (p := fun c => !(decide (c = '-') || decide (c = '+')))
    (by decide) (h _ hc)

/-! ## Numbers -/

theorem ofText?_of_spells {d : Double} (h : SpellsNumber d w) : Double.ofText? w = some d := by
  cases h with
  | @whole negative sign whole hsign hne hwhole =>
    have hends := ends_append (r := []) hne (ends_sign_of_isDigit hwhole)
    rw [List.append_nil] at hends
    have hsplit : splitSign (sign ++ whole) = (negative, whole ++ []) := by
      rw [splitSign_append hsign hends, List.append_nil]
    exact Double.ofText?_of_splitSign hsplit hwhole ends_nil rfl (.inl hne)
  | @fraction negative sign whole fraction hsign hne hwhole hfraction =>
    have hends : Ends (fun c => c = '-' || c = '+') (whole ++ '.' :: fraction) := by
      cases whole with
      | nil => exact ends_cons.2 rfl
      | cons c whole => exact ends_cons.2 (ends_sign_of_isDigit hwhole c List.mem_cons_self)
    exact Double.ofText?_of_splitSign (splitSign_append hsign hends) hwhole (ends_cons.2 rfl)
      (splitFraction_point hfraction) hne

/-- Without the letter of a power of ten, a number ends with its digits. -/
theorem eq_nil_of_powerOf? {power : Int} (h : powerOf? s = some power)
    (hs : ∀ c ∈ s, isNumberCharacter c) : s = [] := by
  cases s with
  | nil => rfl
  | cons c s =>
    rw [powerOf?, Option.ite_none_right_eq_some] at h
    have hc := hs c List.mem_cons_self
    rcases h.1.1 with rfl | rfl
    · exact absurd hc (by decide)
    · exact absurd hc (by decide)

theorem of_splitFraction {fraction r : List Char} (h : splitFraction s = (fraction, r)) :
    fraction = [] ∧ s = r ∨ s = '.' :: (fraction ++ r) ∧ ∀ c ∈ fraction, isDigit c := by
  unfold splitFraction at h
  split at h
  · rename_i t
    cases h
    exact .inr ⟨by rw [List.takeWhile_append_dropWhile], fun c hc => List.mem_takeWhile_imp hc⟩
  · cases h
    exact .inl ⟨rfl, rfl⟩

theorem spells_of_ofText? {d : Double} (h : Double.ofText? w = some d)
    (hw : ∀ c ∈ w, isNumberCharacter c) : SpellsNumber d w := by
  rcases hsplit : splitSign w with ⟨negative, s⟩
  obtain ⟨sign, hsign, rfl⟩ := exists_sign hsplit
  rw [Double.ofText?, hsplit] at h
  rcases hpoint : splitFraction (s.dropWhile isDigit) with ⟨fraction, r⟩
  dsimp only at h
  rw [hpoint] at h
  dsimp only at h
  split at h
  · exact absurd h (by simp)
  · rename_i hne
    rw [Bool.and_eq_true, List.isEmpty_iff, List.isEmpty_iff, not_and_or] at hne
    obtain ⟨power, hpower, rfl⟩ := Option.map_eq_some_iff.1 h
    have hwhole : ∀ c ∈ s.takeWhile isDigit, isDigit c := fun c hc => List.mem_takeWhile_imp hc
    have hs : s = s.takeWhile isDigit ++ s.dropWhile isDigit :=
      List.takeWhile_append_dropWhile.symm
    generalize s.takeWhile isDigit = whole at hs hwhole hne hsplit ⊢
    generalize s.dropWhile isDigit = rest at hs hpoint
    subst hs
    rcases of_splitFraction hpoint with ⟨rfl, hrest⟩ | ⟨hrest, hfraction⟩
    · -- Without a point, what follows the digits is the power.
      subst hrest
      obtain rfl := eq_nil_of_powerOf? hpower fun c hc => hw c (by simp [hc])
      cases hpower
      rw [List.append_nil]
      exact .whole hsign (hne.resolve_right fun h => h rfl) hwhole
    · subst hrest
      obtain rfl := eq_nil_of_powerOf? hpower fun c hc => hw c (by simp [hc])
      cases hpower
      rw [List.append_nil]
      exact .fraction hsign hne hwhole hfraction

theorem Sign.eq_of_mem {c : Char} (h : Sign negative sign) (hc : c ∈ sign) : c = '-' ∨ c = '+' := by
  cases h with
  | none => exact absurd hc List.not_mem_nil
  | plus => exact .inr (List.mem_singleton.1 hc)
  | minus => exact .inl (List.mem_singleton.1 hc)

theorem Sign.length_le (h : Sign negative sign) : sign.length ≤ 1 := by
  cases h <;> decide

/-- A number is a sign, and digits with a point. -/
theorem exists_of_spellsNumber {d : Double} (h : SpellsNumber d w) : ∃ negative sign body,
    Sign negative sign ∧ w = sign ++ body ∧ body ≠ [] ∧ ∀ c ∈ body, isDigit c ∨ c = '.' := by
  cases h with
  | whole hsign hne hwhole => exact ⟨_, _, _, hsign, rfl, hne, fun c hc => .inl (hwhole c hc)⟩
  | fraction hsign _ hwhole hfraction =>
    refine ⟨_, _, _, hsign, rfl, by simp, fun c hc => ?_⟩
    rcases List.mem_append.1 hc with hc | hc
    · exact .inl (hwhole c hc)
    · exact (List.mem_cons.1 hc).elim .inr fun hc => .inl (hfraction c hc)

theorem of_mem_number {d : Double} {c : Char} (h : SpellsNumber d w) (hc : c ∈ w) :
    isDigit c ∨ c = '-' ∨ c = '+' ∨ c = '.' := by
  obtain ⟨negative, sign, body, hsign, rfl, -, hbody⟩ := exists_of_spellsNumber h
  rcases List.mem_append.1 hc with hc | hc
  · exact .inr ((hsign.eq_of_mem hc).imp_right .inl)
  · exact (hbody c hc).imp_right fun h => .inr (.inr h)

/-! ## Dates -/

theorem isBlank_of_isNumberCharacter {c : Char} (h : isNumberCharacter c) : isBlank c = false := by
  simp only [isNumberCharacter, Bool.or_eq_true, decide_eq_true_eq] at h
  rcases h with (((((h | rfl) | rfl) | rfl) | rfl) | rfl) | rfl
  · exact isBlank_of_isDigit h
  all_goals rfl

/-- Only the sign of a number can be a minus. -/
theorem minus_notMem_of_spellsNumber {d : Double} {c : Char} (h : SpellsNumber d (c :: w)) :
    '-' ∉ w := fun hmem => by
  obtain ⟨negative, sign, body, hsign, hw, -, hbody⟩ := exists_of_spellsNumber h
  have hnot : '-' ∉ body := fun hminus => by
    rcases hbody _ hminus with h | h
    · exact absurd h (by decide)
    · exact absurd h (by decide)
  refine hnot ?_
  match sign, hsign.length_le with
  | [], _ =>
    obtain rfl : c :: w = body := hw
    exact List.mem_cons_of_mem _ hmem
  | [x], _ =>
    obtain rfl : w = body := (List.cons.inj hw).2
    exact hmem

/-- A run that names an instant is no number. -/
theorem ofText?_eq_none_of_date {i : Instant} (h : Instant.ofText? w = some i)
    (hw : ∀ c ∈ w, isNumberCharacter c) : Double.ofText? w = none := by
  obtain ⟨c, u, v, rfl, -, -⟩ :=
    Instant.exists_of_ofText? h fun c hc => isBlank_of_isNumberCharacter (hw c hc)
  rw [Option.eq_none_iff_forall_ne_some]
  intro d hd
  exact minus_notMem_of_spellsNumber (spells_of_ofText? hd hw) (by simp)

end Sift.Query
