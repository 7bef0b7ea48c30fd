import Sift.Double.Approximate
import Sift.Proofs.Double.Spelled

/-!
# Approximate decimals of written numbers

The text of a finite double is read approximately: as a double that may be a
neighbour of the one that was written. Few digits are read exactly. What is read is
finite in all cases: dividing by a power of ten never makes a number greater;
multiplying with one can, and could lead from the greatest doubles to infinity, but
these are two in each sign, and their digits are known.

* `Double.times_mono`, `Double.dividedBy_le`: products and quotients are in order;
* `Decimal.approximate_eq_nearest`: decimals of at most 53 bits and 22 places are read
  as the nearest double;
* `Decimal.isFinite_approximate`: decimals up to `greatestButOne` are finite;
* `Decimal.exists_cut_eq`: what is left of the digits of a number;
* `Double.approximate_of_spelledAs`, `Double.isFinite_approximate_of_spelledAs`: what
  this is for the digits of a written number.
-/

namespace Sift

open Text

namespace Decimal

theorem magnitude_nearest_le {x y : Decimal}
    (h : x.numerator * y.denominator ≤ y.numerator * x.denominator) (p q : Bool) :
    (x.nearest p).magnitude ≤ (y.nearest q).magnitude := by
  rw [nearest_eq, nearest_eq]
  have hle := magnitudeOf_le_of_le x.denominator_pos y.denominator_pos h
  simp only [Double.ofMagnitude]
  omega

end Decimal

/-! ## Products and quotients -/

namespace Double

open Decimal

variable {a b d : Double}

theorem isFinite_iff : d.isFinite ↔ d.magnitude < infinite := decide_eq_true_iff

theorem exists_units_eq (d : Double) : ∃ m s : Nat, d.units = m * 2 ^ s ∧ m < 2 ^ 53 ∧
    (s = 0 ∨ 2 ^ 52 ≤ m) ∧ d.magnitude = s * 2 ^ 52 + m := by
  obtain ⟨m, s, hparts, hm, hs, hmagnitude⟩ := d.exists_parts
  refine ⟨m, s, ?_, hm, hs, hmagnitude⟩
  rw [units, hparts]
  dsimp only
  rw [Int.sub_add_cancel, Int.toNat_natCast]
  rfl

theorem units_mono (h : a.magnitude ≤ b.magnitude) : a.units ≤ b.units := by
  obtain ⟨m, s, ha, hm, hs, hmagnitude⟩ := a.exists_units_eq
  obtain ⟨m', s', hb, hm', hs', hmagnitude'⟩ := b.exists_units_eq
  rw [hmagnitude, hmagnitude'] at h
  rw [ha, hb]
  rcases Nat.lt_or_ge s s' with hlt | hge
  · have hm' : 2 ^ 52 ≤ m' := hs'.resolve_left (by omega)
    calc m * 2 ^ s ≤ 2 ^ 53 * 2 ^ s := Nat.mul_le_mul_right _ (Nat.le_of_lt hm)
      _ = 2 ^ 52 * 2 ^ (s + 1) := by
        rw [← Nat.pow_add, ← Nat.pow_add, Nat.add_comm s 1, ← Nat.add_assoc]
      _ ≤ m' * 2 ^ s' := Nat.mul_le_mul hm' (Nat.pow_le_pow_right (by decide) hlt)
  · obtain rfl : s = s' := by omega
    exact Nat.mul_le_mul_right _ (by omega)

theorem magnitudeOfUnits_units (d : Double) : magnitudeOfUnits d.units 1 = d.magnitude := by
  obtain ⟨m, s, hunits, hm, hs, hmagnitude⟩ := d.exists_units_eq
  rw [hmagnitude]
  exact magnitudeOfUnits_of_eq_mul Nat.one_pos (by rw [hunits, Nat.mul_one]) hm hs

theorem times_mono {a' b' : Double} (ha : a.magnitude ≤ a'.magnitude)
    (hb : b.magnitude ≤ b'.magnitude) : (a.times b).magnitude ≤ (a'.times b').magnitude := by
  have hle := magnitudeOfUnits_mono (Nat.pow 2 1074)
    (Nat.mul_le_mul (units_mono ha) (units_mono hb))
  simp only [times, ofMagnitude]
  omega

/-- A number divided by one that is not less than 1 gets no greater. -/
theorem dividedBy_le (h : Nat.pow 2 1074 ≤ b.units) : (a.dividedBy b).magnitude ≤ a.magnitude := by
  rw [dividedBy, magnitudeOf]
  -- No power of that size should be calculated.
  generalize 1074 = u at h ⊢
  have hpos : 0 < b.units := Nat.lt_of_lt_of_le (Nat.two_pow_pos u) h
  calc min (magnitudeOfUnits (a.units * Nat.pow 2 u) b.units) infinite
      ≤ magnitudeOfUnits (a.units * Nat.pow 2 u) b.units := Nat.min_le_left ..
    _ ≤ magnitudeOfUnits a.units 1 := by
        refine magnitudeOfUnits_le_of_le hpos Nat.one_pos ?_
        rw [Nat.mul_one]
        exact Nat.mul_le_mul_left _ h
    _ = a.magnitude := a.magnitudeOfUnits_units

theorem le_units_powerOfTen (n : Nat) : Nat.pow 2 1074 ≤ (powerOfTen n).units := by
  have hone : (powerOfTen 0).units = Nat.pow 2 1074 := by decide +kernel
  rw [← hone]
  refine units_mono (magnitude_nearest_le ?_ false false)
  simp [numerator, denominator, Nat.one_le_pow]

theorem lowered_le (d : Double) (count : Nat) : (d.lowered count).magnitude ≤ d.magnitude := by
  induction count generalizing d with
  | zero => exact Nat.le_refl _
  | succ count ih =>
    rw [lowered]
    split
    · exact Nat.le_refl _
    · exact Nat.le_trans (ih _) (dividedBy_le (le_units_powerOfTen _))

theorem isFinite_scaled_of_neg {exponent : Int} (h : d.isFinite) (he : exponent < 0) :
    (d.scaled exponent).isFinite := by
  rw [isFinite_iff] at h ⊢
  rw [scaled]
  dsimp only
  rw [if_neg (by omega)]
  exact Nat.lt_of_le_of_lt
    (Nat.le_trans (dividedBy_le (le_units_powerOfTen _)) (lowered_le d _)) h

end Double

/-! ## Exact decimals -/

namespace Double

open Decimal

variable {d : Double}

/-- The units of a double are read off its magnitude. -/
theorem units_of_magnitude {m s : Nat} (hm : m < 2 ^ 53) (hs : s = 0 ∨ 2 ^ 52 ≤ m)
    (h : d.magnitude = s * 2 ^ 52 + m) : d.units = m * 2 ^ s := by
  obtain ⟨m', s', hunits, hm', hs', hmagnitude⟩ := d.exists_units_eq
  obtain rfl : s = s' := by omega
  obtain rfl : m = m' := by omega
  exact hunits

/-- A number of at most 53 bits, with its highest bit moved to the front. -/
theorem exists_shifted {c u : Nat} (hc : c < 2 ^ 53) (hu : 52 ≤ u) :
    ∃ m s : Nat, c * 2 ^ u = m * 2 ^ s ∧ m < 2 ^ 53 ∧ (s = 0 ∨ 2 ^ 52 ≤ m) ∧ s ≤ u := by
  by_cases hzero : c = 0
  · exact ⟨0, 0, by simp [hzero], by decide, .inl rfl, Nat.zero_le _⟩
  · have hlog : c.log2 < 53 := (Nat.log2_lt hzero).2 hc
    have hlow := Nat.log2_self_le hzero
    have hhigh := Nat.lt_log2_self (n := c)
    refine ⟨c * 2 ^ (52 - c.log2), u - (52 - c.log2), ?_, ?_, .inr ?_, Nat.sub_le _ _⟩
    · rw [Nat.mul_assoc, ← Nat.pow_add, Nat.add_sub_cancel' (by omega)]
    · calc c * 2 ^ (52 - c.log2) < 2 ^ (c.log2 + 1) * 2 ^ (52 - c.log2) :=
            Nat.mul_lt_mul_of_pos_right hhigh (Nat.two_pow_pos _)
        _ = 2 ^ 53 := by rw [← Nat.pow_add, show c.log2 + 1 + (52 - c.log2) = 53 by omega]
    · calc 2 ^ 52 = 2 ^ c.log2 * 2 ^ (52 - c.log2) := by
            rw [← Nat.pow_add, Nat.add_sub_cancel' (by omega)]
        _ ≤ c * 2 ^ (52 - c.log2) := Nat.mul_le_mul_right _ hlow

/-- Integers of at most 53 bits are not rounded. -/
theorem units_ofInt {c : Nat} (hc : c < 2 ^ 53) : (ofInt c).units = c * Nat.pow 2 1074 := by
  have hnumerator : (⟨(c : Int).natAbs, 0⟩ : Decimal).numerator = c := Nat.mul_one _
  have hround : (ofInt c).magnitude = min (magnitudeOfUnits (c * Nat.pow 2 1074) 1) infinite := by
    rw [ofInt, nearest_eq, hnumerator]
    rfl
  have hu : 52 ≤ 1074 ∧ 1074 ≤ 2044 := by decide
  -- No power of that size should be calculated.
  generalize 1074 = u at hround hu ⊢
  obtain ⟨m, s, heq, hm, hs, hle⟩ := exists_shifted hc hu.1
  have hunits : magnitudeOfUnits (c * Nat.pow 2 u) 1 = s * 2 ^ 52 + m :=
    magnitudeOfUnits_of_eq_mul Nat.one_pos (heq.trans (Nat.mul_one _).symm) hm hs
  have hfinite : s * 2 ^ 52 + m ≤ infinite := by
    rw [infinite, Nat.pow_eq]
    omega
  rw [hunits, Nat.min_eq_left hfinite] at hround
  exact (units_of_magnitude hm hs hround).trans heq.symm

/-- Nor are the first powers of ten. -/
theorem units_powerOfTen : ∀ n ≤ 22, (powerOfTen n).units = Nat.pow 10 n * Nat.pow 2 1074 := by
  decide +kernel

end Double

namespace Decimal

open Double

/-- A decimal of at most 53 bits and 22 places is read as the double nearest to it:
    nothing is rounded but its product with the power of ten. -/
theorem approximate_eq_nearest {x : Decimal} (negative : Bool) (hc : x.coefficient < 2 ^ 53)
    (he : x.exponent.natAbs ≤ 22) : x.approximate negative = x.nearest negative := by
  obtain ⟨c, e⟩ := x
  have hunits := units_ofInt hc
  have hround (p : Bool) (m : Nat) :
      Double.ofMagnitude negative (Double.ofMagnitude p m).magnitude = .ofMagnitude negative m := by
    simp only [ofMagnitude, Nat.min_assoc, Nat.min_self]
  have hpos (u : Nat) : 0 < Nat.pow 2 u := Nat.two_pow_pos u
  rw [approximate, nearest_eq, scaled]
  dsimp only at hunits he ⊢
  by_cases hneg : 0 ≤ e
  · obtain ⟨n, rfl⟩ := Int.eq_ofNat_of_zero_le hneg
    rw [Int.natAbs_natCast] at he ⊢
    have hbound : n ≤ powerBound := Nat.le_trans he (by decide)
    rw [if_pos hneg, if_pos hbound, times, hround, hunits, units_powerOfTen n he, numerator,
      denominator, Int.toNat_natCast, Int.toNat_neg_natCast, magnitudeOf]
    generalize 1074 = u
    rw [← magnitudeOfUnits_mul (hpos u) (c * 10 ^ n * Nat.pow 2 u), Nat.pow_zero, Nat.mul_one,
      Nat.mul_mul_mul_comm, Nat.mul_left_comm]
    rfl
  · obtain ⟨n, rfl⟩ : ∃ n : Nat, e = -n := ⟨e.natAbs, by omega⟩
    rw [Int.natAbs_neg, Int.natAbs_natCast] at he ⊢
    have hcount : (n - 1) / powerBound = 0 := Nat.div_eq_of_lt (by rw [powerBound]; omega)
    rw [if_neg hneg, hcount, lowered, Nat.zero_mul, Nat.sub_zero, dividedBy, hround, hunits,
      units_powerOfTen n he, numerator, denominator, Int.neg_neg, Int.toNat_natCast,
      Int.toNat_neg_natCast, Nat.pow_zero, Nat.mul_one]
    generalize 1074 = u
    have hten : 0 < 10 ^ n := Nat.pow_pos (by decide)
    have hratio : c * Nat.pow 2 u * 10 ^ n = c * (10 ^ n * Nat.pow 2 u) := by
      rw [Nat.mul_right_comm, Nat.mul_assoc]
    exact congrArg _ (magnitudeOf_eq (Nat.mul_pos hten (hpos u)) hten hratio)

end Decimal

/-! ## Finite decimals -/

namespace Decimal

open Double

/-- The value of the greatest double but one. -/
def greatestButOne : Nat := (Nat.pow 2 53 - 2) * Nat.pow 2 971

/-- Multiplying with the greatest powers of ten stays finite up to that value. -/
theorem isFinite_times_greatest : ∀ k ≤ powerBound, 289 ≤ k →
    ((ofInt (greatestButOne / Nat.pow 10 k : Nat)).times (powerOfTen k)).isFinite := by
  decide +kernel

theorem isFinite_times_of_le {c k c' k' : Nat} (hc : c ≤ c') (hk : k ≤ k')
    (h : ((ofInt c').times (powerOfTen k')).isFinite) :
    ((ofInt c).times (powerOfTen k)).isFinite := by
  rw [isFinite_iff] at h ⊢
  refine Nat.lt_of_le_of_lt (times_mono (magnitude_nearest_le ?_ _ _)
    (magnitude_nearest_le ?_ _ _)) h
  · simpa [numerator, denominator] using hc
  · simpa [numerator, denominator] using Nat.pow_le_pow_right (by decide) hk

theorem isFinite_times_powerOfTen {c k : Nat} (hc : c < Nat.pow 2 64) (hk : k ≤ powerBound)
    (hle : c * Nat.pow 10 k ≤ greatestButOne) : ((ofInt c).times (powerOfTen k)).isFinite := by
  rcases Nat.lt_or_ge k 289 with hsmall | hgreat
  · -- With the smaller powers no coefficient of 64 bits is too great.
    exact isFinite_times_of_le (Nat.le_sub_one_of_lt hc) (Nat.le_of_lt_succ hsmall)
      (by decide +kernel)
  · have hpos : 0 < Nat.pow 10 k := Nat.pow_pos (by decide)
    exact isFinite_times_of_le ((Nat.le_div_iff_mul_le hpos).2 hle) (Nat.le_refl k)
      (isFinite_times_greatest k hk hgreat)

/-- Powers of ten that are too great for a double are greater than all of them. -/
theorem greatestButOne_lt {c n : Nat} (hc : c ≠ 0) (hn : powerBound < n) :
    greatestButOne < c * 10 ^ n := by
  have hpow {a b : Nat} (h : a ≤ b) : 10 ^ a ≤ c * 10 ^ b :=
    Nat.le_trans (Nat.pow_le_pow_right (by decide) h)
      (Nat.le_mul_of_pos_left _ (Nat.pos_of_ne_zero hc))
  calc greatestButOne < 10 ^ (powerBound + 1) := by decide +kernel
    _ ≤ c * 10 ^ n := hpow hn

/-- Decimals up to the greatest double but one are near finite doubles. -/
theorem isFinite_approximate {x : Decimal} (negative : Bool)
    (hc : x.coefficient < Nat.pow 2 64)
    (hle : 0 ≤ x.exponent → x.coefficient * 10 ^ x.exponent.toNat ≤ greatestButOne) :
    (x.approximate negative).isFinite := by
  have hfinite : (ofInt x.coefficient).isFinite :=
    isFinite_ofInt (by omega) (Int.ofNat_lt.2 hc)
  refine isFinite_ofMagnitude (isFinite_iff.1 ?_)
  by_cases he : 0 ≤ x.exponent
  · obtain ⟨n, hn⟩ := Int.eq_ofNat_of_zero_le he
    have hle := hle he
    rw [hn, Int.toNat_natCast] at hle
    rw [hn, scaled]
    dsimp only
    rw [if_pos (Int.natCast_nonneg n), Int.natAbs_natCast]
    split
    · rename_i hbound
      exact isFinite_times_powerOfTen hc hbound hle
    split
    · exact hfinite
    · rename_i hbound hne
      -- Only zero is not too great with such a power.
      refine absurd (greatestButOne_lt ?_ (Nat.lt_of_not_le hbound)) (Nat.not_lt.2 hle)
      intro hzero
      rw [hzero] at hne
      exact hne rfl
  · exact isFinite_scaled_of_neg hfinite (Int.lt_of_not_ge he)

/-- What is nearer to a smaller double is smaller than the greatest one but one. -/
theorem numerator_lt {x : Decimal} {negative : Bool}
    (h : (x.nearest negative).magnitude < Double.infinite - 2) :
    x.numerator < greatestButOne * x.denominator := by
  by_contra hge
  have hmagnitude : ((⟨greatestButOne, 0⟩ : Decimal).nearest false).magnitude =
      Double.infinite - 2 := by decide +kernel
  have hle : ((⟨greatestButOne, 0⟩ : Decimal).nearest false).magnitude ≤
      (x.nearest negative).magnitude := by
    refine magnitude_nearest_le ?_ _ _
    simpa [numerator, denominator] using hge
  omega

/-! ## Cut digits -/

theorem valueOf_le_append (s t : List Char) : valueOf s ≤ valueOf (s ++ t) := by
  rw [valueOf_append]
  exact Nat.le_trans (Nat.le_mul_of_pos_right _ (Nat.pow_pos (by decide))) (Nat.le_add_right _ _)

theorem valueOf_append_singleton (s : List Char) (c : Char) :
    valueOf (s ++ [c]) = 10 * valueOf s + digitValue c := by
  rw [valueOf, List.foldl_append]
  rfl

theorem cutWhole_eq {done digits : List Char} (h : valueOf (done ++ digits) < Nat.pow 2 64) :
    cutWhole (valueOf done) digits = ⟨valueOf (done ++ digits), 0⟩ := by
  induction digits generalizing done with
  | nil => rw [cutWhole, List.append_nil]
  | cons c digits ih =>
    rw [← List.singleton_append, ← List.append_assoc] at h ⊢
    have hfits := Nat.lt_of_le_of_lt (valueOf_le_append _ _) h
    rw [valueOf_append_singleton] at hfits
    rw [List.singleton_append, cutWhole, if_pos hfits, ← valueOf_append_singleton, ih h]

/-- The digits behind the point are taken from the first one on, and all of them if
    they fit. -/
theorem exists_cutFraction_eq {done : List Char} (e : Int) (digits : List Char)
    (h : valueOf done < Nat.pow 2 64) : ∃ taken others, digits = taken ++ others ∧
      cutFraction ⟨valueOf done, e⟩ digits = ⟨valueOf (done ++ taken), e - taken.length⟩ ∧
      valueOf (done ++ taken) < Nat.pow 2 64 ∧
      (valueOf (done ++ digits) < Nat.pow 2 64 → others = []) := by
  induction digits generalizing done e with
  | nil => exact ⟨[], [], rfl, by simp [cutFraction], by rwa [List.append_nil], fun _ => rfl⟩
  | cons c digits ih =>
    rw [cutFraction]
    dsimp only
    rw [← valueOf_append_singleton]
    split
    · rename_i hfits
      obtain ⟨taken, others, rfl, hcut, htaken, hall⟩ := ih (e - 1) hfits
      rw [List.append_assoc, List.singleton_append] at hcut htaken hall
      refine ⟨c :: taken, others, rfl, ?_, htaken, hall⟩
      rw [hcut, List.length_cons, Int.natCast_add, Int.sub_sub, Int.add_comm 1]
      rfl
    · rename_i hfits
      refine ⟨[], c :: digits, rfl, by simp, by rwa [List.append_nil], fun hall => ?_⟩
      rw [← List.singleton_append, ← List.append_assoc] at hall
      exact absurd (Nat.lt_of_le_of_lt (valueOf_le_append _ _) hall) hfits

/-- What is cut off a number whose integer part fits are digits at the end, and none
    if all digits fit. -/
theorem exists_cut_eq {whole : List Char} (fraction : List Char) (e : Int)
    (h : valueOf whole < Nat.pow 2 64) : ∃ taken others, fraction = taken ++ others ∧
      cut whole fraction e = ofDigits whole taken e ∧
      valueOf (whole ++ taken) < Nat.pow 2 64 ∧
      (valueOf (whole ++ fraction) < Nat.pow 2 64 → others = []) := by
  obtain ⟨taken, others, hfraction, hcut, htaken, hall⟩ := exists_cutFraction_eq 0 fraction h
  refine ⟨taken, others, hfraction, ?_, htaken, hall⟩
  have hwhole : cutWhole 0 whole = ⟨valueOf whole, 0⟩ := @cutWhole_eq [] whole h
  rw [cut, hwhole, hcut, ofDigits, Int.zero_sub, Int.add_comm, Int.sub_eq_add_neg]

/-- Digits that are left out make a number smaller. -/
theorem numerator_ofDigits_le (whole taken others : List Char) (e : Int) :
    (ofDigits whole taken e).numerator * (ofDigits whole (taken ++ others) e).denominator ≤
      (ofDigits whole (taken ++ others) e).numerator * (ofDigits whole taken e).denominator := by
  have hvalue : valueOf (whole ++ taken) * 10 ^ others.length ≤
      valueOf (whole ++ (taken ++ others)) := by
    rw [← List.append_assoc, valueOf_append (whole ++ taken)]
    exact Nat.le_add_right _ _
  have hexponent : (e - taken.length).toNat + (-(e - (taken ++ others).length)).toNat =
      others.length + ((e - (taken ++ others).length).toNat + (-(e - taken.length)).toNat) := by
    rw [List.length_append]
    omega
  simp only [ofDigits, numerator, denominator]
  rw [Nat.mul_assoc, Nat.mul_assoc, ← Nat.pow_add, ← Nat.pow_add, hexponent, Nat.pow_add,
    ← Nat.mul_assoc]
  exact Nat.mul_le_mul_right _ hvalue

end Decimal

/-! ## Written numbers -/

namespace Double

open Decimal

variable {d : Double} {whole point fraction power : List Char} {e : Int}

/-- The shortest decimals of the two greatest doubles. -/
theorem shortest_of_le (h : d.isFinite) (hmagnitude : infinite - 2 ≤ d.magnitude) :
    ∃ c ∈ [17976931348623155, 17976931348623157], d.shortest .even = ⟨c, 292⟩ := by
  have hshortest : ∀ negative : Bool, ∀ n < 2,
      (ofMagnitude negative (infinite - 2 + n)).shortest .even =
        ⟨17976931348623155 + 2 * n, 292⟩ := by decide +kernel
  rw [isFinite_iff] at h
  have hd := hshortest d.negative (d.magnitude - (infinite - 2)) (by omega)
  rw [Nat.add_sub_cancel' hmagnitude, ofMagnitude_magnitude (isFinite_iff.2 h)] at hd
  refine ⟨_, ?_, hd⟩
  rw [List.mem_pair]
  omega

theorem SpelledAs.valueOf_whole_lt (h : d.SpelledAs whole point fraction power e) :
    valueOf whole < Nat.pow 2 64 :=
  calc valueOf whole < 10 ^ whole.length := valueOf_lt h.isWhole.isDigit
    _ ≤ 10 ^ 16 := Nat.pow_le_pow_right (by decide) h.length_le
    _ ≤ Nat.pow 2 64 := by decide

/-- A double that is written with few digits is read from them as it is. -/
theorem approximate_of_spelledAs (h : d.SpelledAs whole point fraction power e)
    (hdigits : valueOf (whole ++ fraction) < 2 ^ 53)
    (hplaces : (e - fraction.length).natAbs ≤ 22) :
    (cut whole fraction e).approximate d.negative = d := by
  obtain ⟨taken, others, rfl, hcut, -, hall⟩ := exists_cut_eq fraction e h.valueOf_whole_lt
  obtain rfl := hall (Nat.lt_trans hdigits (by decide))
  rw [List.append_nil] at hdigits hplaces h
  rw [hcut, approximate_eq_nearest _ hdigits hplaces, h.nearest_eq]

/-- The text of a finite double is read as a finite double. -/
theorem isFinite_approximate_of_spelledAs (hd : d.isFinite)
    (h : d.SpelledAs whole point fraction power e) :
    ((cut whole fraction e).approximate d.negative).isFinite := by
  obtain ⟨taken, others, hfraction, hcut, htaken, hall⟩ :=
    exists_cut_eq fraction e h.valueOf_whole_lt
  rcases h.eq_shortest with rfl | hshortest
  · -- Without a power of ten, the digits behind the point only divide.
    rw [hcut]
    refine isFinite_approximate _ htaken fun he => ?_
    have hzero : ((0 : Int) - taken.length).toNat = 0 := by omega
    rw [ofDigits, hzero, Nat.pow_zero, Nat.mul_one]
    exact Nat.le_trans (Nat.le_of_lt htaken) (by decide +kernel)
  rcases Nat.lt_or_ge d.magnitude (infinite - 2) with hlt | hge
  · rw [hcut]
    refine isFinite_approximate _ htaken fun he => ?_
    have hbound := numerator_lt (by rwa [h.nearest_eq])
    rw [hfraction] at hbound
    have hle := numerator_ofDigits_le whole taken others e
    have hone : (ofDigits whole taken e).denominator = 1 := by
      rw [denominator, Int.toNat_of_nonpos (by omega), Nat.pow_zero]
    rw [hone, Nat.mul_one] at hle
    exact Nat.le_of_lt (Nat.lt_of_mul_lt_mul_right (Nat.lt_of_le_of_lt hle hbound))
  · -- The greatest doubles have few enough digits, so that none are cut off.
    have hgreatest : ∀ negative : Bool, ∀ c ∈ [17976931348623155, 17976931348623157],
        c < Nat.pow 2 64 ∧ (approximate negative ⟨c, 292⟩).isFinite := by decide +kernel
    obtain ⟨c, hmem, hc⟩ := shortest_of_le hd hge
    obtain ⟨hfits, hfinite⟩ := hgreatest d.negative c hmem
    rw [← hshortest] at hc
    have hvalue : valueOf (whole ++ fraction) = c := congrArg Decimal.coefficient hc
    rw [hall (hvalue ▸ hfits), List.append_nil] at hfraction
    rw [hcut, ← hfraction, hc]
    exact hfinite

end Double

end Sift
