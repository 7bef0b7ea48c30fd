import Mathlib.Data.List.TakeWhile
import Sift.Double.Spelling
import Sift.Proofs.Double.Decimal
import Sift.Proofs.Text.Reader

/-!
# Written numbers

A finite double in positional notation reads back as itself.

* `Decimal.Places`: the two runs of digits of a decimal, and
  `Decimal.places_places`: that they keep its value;
* `Double.ofText?_of_splitSign`: what a number in digits reads as;
* `Double.ofText?_plain`: the round trip;
* `Double.of_mem_plain`: the characters of a written number.
-/

namespace Sift

open Text

/-! ## Digits of decimals -/

namespace Decimal

/-- Digits before and after a point that write a decimal. -/
structure Places (x : Decimal) (whole fraction : List Char) : Prop where
  whole_ne_nil : whole ≠ []
  isDigit_whole : ∀ c ∈ whole, isDigit c
  isDigit_fraction : ∀ c ∈ fraction, isDigit c
  same : (ofDigits whole fraction 0).Same x

theorem places_places (x : Decimal) : x.Places x.places.1 x.places.2 := by
  obtain ⟨c, e⟩ := x
  rw [places]
  dsimp only
  split
  · rename_i he
    obtain ⟨k, rfl⟩ := Int.eq_ofNat_of_zero_le he
    refine ⟨by simp [digitsOf_ne_nil], fun d hd => ?_, fun d hd => absurd hd List.not_mem_nil, ?_⟩
    · exact (List.mem_append.1 hd).elim isDigit_of_mem_digitsOf isDigit_of_mem_zeros
    · rw [Same, ofDigits, List.append_nil, valueOf_append_zeros, valueOf_digitsOf]
      simp [numerator, denominator]
  · rename_i he
    obtain ⟨k, rfl⟩ : ∃ k : Nat, e = -k := ⟨(-e).toNat, by omega⟩
    rw [Int.neg_neg, Int.toNat_natCast]
    -- With the zeros in front, there are more digits than go behind the point.
    generalize hfilled : List.replicate (k + 1 - (digitsOf c).length) '0' ++ digitsOf c = filled
    have hdigits : ∀ d ∈ filled, isDigit d := fun d hd =>
      (List.mem_append.1 (hfilled ▸ hd)).elim isDigit_of_mem_zeros isDigit_of_mem_digitsOf
    have hlength : k < filled.length := by
      rw [← hfilled, List.length_append, List.length_replicate]
      omega
    refine ⟨?_, fun d hd => hdigits d (List.mem_of_mem_take hd),
      fun d hd => hdigits d (List.mem_of_mem_drop hd), ?_⟩
    · rw [← List.length_pos_iff, List.length_take]
      omega
    · have hvalue : valueOf filled = c := by
        rw [← hfilled, valueOf_zeros_append, valueOf_digitsOf]
      have hexponent : (0 : Int) - ↑(filled.length - (filled.length - k)) = -k := by omega
      rw [ofDigits, List.take_append_drop, List.length_drop, hvalue, hexponent, Same]

end Decimal

/-! ## Numbers in digits -/

theorem splitSign_of_isDigit {c : Char} {s : List Char} (h : isDigit c) :
    splitSign (c :: s) = (false, c :: s) := by
  -- Neither of the signs is a digit.
  unfold splitSign
  split
  · rename_i he
    rw [(List.cons.inj he).1] at h
    exact absurd h (by decide)
  · rename_i he
    rw [(List.cons.inj he).1] at h
    exact absurd h (by decide)
  · rfl

theorem splitFraction_point {fraction : List Char} (h : ∀ c ∈ fraction, isDigit c) :
    splitFraction ('.' :: fraction) = (fraction, []) := by
  rw [splitFraction, List.takeWhile_eq_self_iff.2 h, List.dropWhile_eq_nil_iff.2 h]

namespace Double

theorem splitSign_sign (d : Double) {s : List Char} (hs : s ≠ []) (h : ∀ c ∈ s, isDigit c)
    (r : List Char) : splitSign (d.sign ++ (s ++ r)) = (d.negative, s ++ r) := by
  rw [sign]
  split
  · rename_i hn
    rw [hn]
    rfl
  · rename_i hn
    rw [Bool.not_eq_true] at hn
    cases s with
    | nil => exact absurd rfl hs
    | cons c s => rw [hn, List.nil_append, List.cons_append, splitSign_of_isDigit (h c (by simp))]

/-- A number in digits behind its sign reads as the double nearest to it. -/
theorem ofText?_of_splitSign {negative : Bool} {s whole fraction r : List Char}
    (hsign : splitSign s = (negative, whole ++ r)) (hwhole : ∀ c ∈ whole, isDigit c)
    (hr : Ends isDigit r) (hfraction : splitFraction r = (fraction, []))
    (hne : whole ≠ [] ∨ fraction ≠ []) :
    ofText? s = some ((Decimal.ofDigits whole fraction 0).nearest negative) := by
  have hsome : (whole.isEmpty && fraction.isEmpty) = false := by
    rw [Bool.and_eq_false_iff, List.isEmpty_eq_false_iff, List.isEmpty_eq_false_iff]
    exact hne
  rw [ofText?, hsign]
  dsimp only
  rw [takeWhile_append_of_ends hwhole hr, dropWhile_append_of_ends hwhole hr, hfraction]
  dsimp only
  rw [hsome, if_neg Bool.false_ne_true, powerOf?, Option.map_some]

/-- The digits of a decimal read as the double nearest to it. -/
theorem ofText?_of_digits (d : Double) {x : Decimal} {whole fraction r : List Char}
    (h : x.Places whole fraction) (hr : Ends isDigit r)
    (hfraction : splitFraction r = (fraction, [])) :
    ofText? (d.sign ++ (whole ++ r)) = some (x.nearest d.negative) := by
  have hsign := splitSign_sign d h.whole_ne_nil h.isDigit_whole r
  rw [ofText?_of_splitSign hsign h.isDigit_whole hr hfraction (.inl h.whole_ne_nil),
    Decimal.nearest_of_same h.same]

theorem exists_plain_eq {d : Double} (h : d.isFinite) : ∃ whole fraction r,
    (d.shortest .up).Places whole fraction ∧ d.plain = d.sign ++ (whole ++ r) ∧
      (r = [] ∧ fraction = [] ∨ r = '.' :: fraction) := by
  have hplaces := (d.shortest .up).places_places
  have hnan : d.isNaN = false := by
    rw [isFinite, decide_eq_true_eq] at h
    rw [isNaN, decide_eq_false_iff_not]
    omega
  rw [plain, hnan, h, if_neg Bool.false_ne_true, Bool.not_true, if_neg Bool.false_ne_true]
  split
  · rename_i whole he
    rw [he] at hplaces
    exact ⟨whole, [], [], hplaces, by rw [List.append_nil], .inl ⟨rfl, rfl⟩⟩
  · rename_i whole fraction _ he
    rw [he] at hplaces
    exact ⟨whole, fraction, '.' :: fraction, hplaces, by rw [List.append_assoc], .inr rfl⟩

/-- A finite number in positional notation reads back. -/
theorem ofText?_plain {d : Double} (h : d.isFinite) : ofText? d.plain = some d := by
  obtain ⟨whole, fraction, r, hplaces, hplain, hr⟩ := exists_plain_eq h
  rw [hplain]
  rcases hr with ⟨rfl, rfl⟩ | rfl
  · rw [ofText?_of_digits d hplaces ends_nil rfl, nearest_shortest .up h]
  · rw [ofText?_of_digits d hplaces (ends_cons.2 rfl)
      (splitFraction_point hplaces.isDigit_fraction), nearest_shortest .up h]

theorem plain_ne_nil {d : Double} (h : d.isFinite) : d.plain ≠ [] := by
  obtain ⟨whole, fraction, r, hplaces, hplain, -⟩ := exists_plain_eq h
  rw [hplain]
  exact fun he => hplaces.whole_ne_nil (List.append_eq_nil_iff.1 (List.append_eq_nil_iff.1 he).2).1

/-- The characters of a finite number in positional notation. -/
theorem of_mem_plain {d : Double} (h : d.isFinite) {c : Char} (hc : c ∈ d.plain) :
    isDigit c ∨ c = '-' ∨ c = '.' := by
  obtain ⟨whole, fraction, r, hplaces, hplain, hr⟩ := exists_plain_eq h
  rw [hplain, List.mem_append, List.mem_append] at hc
  rcases hc with hsign | hwhole | hc
  · rw [sign] at hsign
    split at hsign
    · exact .inr (.inl (List.mem_singleton.1 hsign))
    · exact absurd hsign List.not_mem_nil
  · exact .inl (hplaces.isDigit_whole c hwhole)
  · rcases hr with ⟨rfl, rfl⟩ | rfl
    · exact absurd hc List.not_mem_nil
    · rcases List.mem_cons.1 hc with rfl | hc
      · exact .inr (.inr rfl)
      · exact .inl (hplaces.isDigit_fraction c hc)

end Double

end Sift
