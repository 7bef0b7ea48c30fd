import Sift.Proofs.Double.Spelling

/-!
# Numbers with a point or an exponent

The way of JSON to write a finite double: a sign, digits without a zero in front
of others, and digits after a point, or a power of ten, or both.

* `Decimal.Point`, `Decimal.Power`: what may follow the digits;
* `Double.SpelledAs`: what is written of a double, and that the double is the one
  nearest to it; `Double.exists_spelledAs`: that this is so for all finite ones.

The power is that of the first digit. It is small, as the exact decimal of a
double has a bounded number of digits, and the shortest one is not far from it.
-/

namespace Sift

open Text

namespace Decimal

/-! ## Digits in front of a point -/

theorem coefficient_trimmed_eq_zero {x : Decimal} (h : x.trimmed.coefficient = 0) :
    x.trimmed.exponent = 0 := by
  obtain ⟨c, e⟩ := x
  rw [trimmed] at h ⊢
  dsimp only at h ⊢
  split
  · rfl
  · rename_i hc
    rw [if_neg hc] at h
    -- The coefficient is divisible by what it is divided by, so it does not vanish.
    have hdvd := pow_dvd_valueOf (digitsOf c)
    rw [valueOf_digitsOf] at hdvd
    exact absurd (Nat.eq_zero_of_dvd_of_div_eq_zero hdvd h) hc

theorem whole_places {x : Decimal} (h : x.coefficient = 0 → x.exponent ≤ 0) :
    Whole x.places.1 := by
  obtain ⟨c, e⟩ := x
  have hdigits := whole_digitsOf c
  rw [places]
  dsimp only at h ⊢
  split
  · rename_i he
    refine ⟨by simp [hdigits.ne_nil], ?_, fun hzero => ?_⟩
    · exact fun d hd => (List.mem_append.1 hd).elim (hdigits.isDigit d) isDigit_of_mem_zeros
    · rw [List.head?_append_of_ne_nil _ hdigits.ne_nil] at hzero
      have hc : c = 0 := by
        by_contra hc
        exact head?_digitsOf_ne hc hzero
      rw [Int.toNat_of_nonpos (h hc), List.replicate_zero, List.append_nil]
      exact hdigits.eq_of_zero hzero
  · rename_i he
    obtain ⟨k, rfl⟩ : ∃ k : Nat, e = -(k + 1 : Nat) := ⟨(-e - 1).toNat, by omega⟩
    rw [Int.neg_neg, Int.toNat_natCast]
    rcases Nat.lt_or_ge (k + 1) (digitsOf c).length with hlt | hge
    · -- More digits than go behind the point: the first ones stay in front.
      have hnone : k + 1 + 1 - (digitsOf c).length = 0 := by omega
      rw [hnone, List.replicate_zero, List.nil_append]
      refine ⟨?_, fun d hd => hdigits.isDigit d (List.mem_of_mem_take hd), fun hzero => ?_⟩
      · rw [← List.length_pos_iff, List.length_take]
        omega
      · rw [List.head?_take, if_neg (by omega)] at hzero
        have hone := congrArg List.length (hdigits.eq_of_zero hzero)
        rw [List.length_singleton] at hone
        omega
    · -- All digits go behind the point, with a single zero in front.
      obtain ⟨m, hm⟩ : ∃ m, k + 1 + 1 - (digitsOf c).length = m + 1 :=
        ⟨k + 1 - (digitsOf c).length, by omega⟩
      have hlength : (List.replicate (m + 1) '0' ++ digitsOf c).length - (k + 1) = 1 := by
        rw [List.length_append, List.length_replicate]
        omega
      rw [hm, hlength, List.replicate_succ, List.cons_append, List.take_succ_cons,
        List.take_zero]
      exact whole_zero

/-- A decimal below `10 ^ 16` has at most that many digits in front of the point. -/
theorem length_places_le {x : Decimal} (h : x.leading ≤ 15) : x.places.1.length ≤ 16 := by
  obtain ⟨c, e⟩ := x
  rw [leading] at h
  rw [places]
  dsimp only at h ⊢
  split
  · rename_i he
    rw [List.length_append, List.length_replicate]
    omega
  · rename_i he
    rw [List.length_take, List.length_append, List.length_replicate]
    omega

/-! ## Bounds -/

/-- Whether a decimal has at most `n` digits, and an exponent between `-n` and
    `n`. -/
structure Within (n : Nat) (x : Decimal) : Prop where
  coefficient : x.coefficient < 10 ^ n
  le_exponent : -(n : Int) ≤ x.exponent
  exponent_le : x.exponent ≤ n

theorem Within.mono {n k : Nat} {x : Decimal} (h : x.Within n) (hle : n ≤ k) : x.Within k := by
  obtain ⟨hc, hlow, hhigh⟩ := h
  exact ⟨Nat.lt_of_lt_of_le hc (Nat.pow_le_pow_right (by decide) hle), by omega, by omega⟩

theorem Within.length_le {n : Nat} {x : Decimal} (h : x.Within n) (hn : 0 < n) :
    (digitsOf x.coefficient).length ≤ n :=
  (Nat.length_toDigits_le_iff (by decide) hn).2 h.coefficient

theorem within_trimmed {n : Nat} {x : Decimal} (h : x.Within n) (hn : 0 < n) :
    x.trimmed.Within (2 * n) := by
  obtain ⟨c, e⟩ := x
  have hlength := h.length_le hn
  obtain ⟨hc, hlow, hhigh⟩ := h
  have hpow : 10 ^ n ≤ 10 ^ (2 * n) := Nat.pow_le_pow_right (by decide) (by omega)
  rw [trimmed]
  dsimp only at hc hlow hhigh hlength ⊢
  split
  · exact ⟨Nat.pow_pos (by decide), by dsimp only; omega, by dsimp only; omega⟩
  · generalize hzeros : ((Nat.toDigits 10 c).reverse.takeWhile (· == '0')).length = zeros
    have hle : zeros ≤ n := by
      rw [← hzeros]
      refine Nat.le_trans (List.takeWhile_sublist _).length_le ?_
      rw [List.length_reverse]
      exact hlength
    refine ⟨?_, ?_, ?_⟩ <;> dsimp only
    · exact Nat.lt_of_le_of_lt (Nat.div_le_self _ _) (Nat.lt_of_lt_of_le hc hpow)
    · omega
    · omega

theorem within_of_mem_neighbours {n dropped : Nat} {tie : Tie} {x y : Decimal} (h : x.Within n)
    (hdropped : dropped ≤ n) (hn : 0 < n) (hy : y ∈ x.neighbours tie dropped) :
    y.Within (2 * n) := by
  obtain ⟨hc, hlow, hhigh⟩ := h
  have hpow : 10 ^ n < 10 ^ (2 * n) := Nat.pow_lt_pow_right (by decide) (by omega)
  have hle : x.coefficient / Nat.pow 10 dropped ≤ x.coefficient := Nat.div_le_self _ _
  have hdown : Within (2 * n) ⟨x.coefficient / Nat.pow 10 dropped, x.exponent + dropped⟩ := by
    refine ⟨?_, ?_, ?_⟩ <;> dsimp only <;> omega
  have hup : Within (2 * n) ⟨x.coefficient / Nat.pow 10 dropped + 1, x.exponent + dropped⟩ := by
    refine ⟨?_, ?_, ?_⟩ <;> dsimp only <;> omega
  rw [neighbours] at hy
  have hmem : y = ⟨x.coefficient / Nat.pow 10 dropped, x.exponent + dropped⟩ ∨
      y = ⟨x.coefficient / Nat.pow 10 dropped + 1, x.exponent + dropped⟩ := by
    split at hy
    · exact .inl (List.mem_singleton.1 hy)
    · split at hy
      · simpa using hy
      · split at hy
        · exact (by simpa using hy : _ ∨ _).symm
        · split at hy
          · simpa using hy
          · exact (by simpa using hy : _ ∨ _).symm
  rcases hmem with rfl | rfl
  · exact hdown
  · exact hup

theorem leading_of_within {n : Nat} {x : Decimal} (h : x.Within n) (hn : 0 < n) :
    -(n : Int) ≤ x.leading ∧ x.leading ≤ 2 * n := by
  have hlength := h.length_le hn
  have hpos := List.length_pos_iff.2 (digitsOf_ne_nil x.coefficient)
  have hlow := h.le_exponent
  have hhigh := h.exponent_le
  rw [leading]
  omega

/-! ## What follows the digits -/

/-- A point with digits after it, or nothing. -/
inductive Point : List Char → List Char → Prop
  | none : Point [] []
  | some {fraction : List Char} : fraction ≠ [] → (∀ c ∈ fraction, isDigit c) →
    Point ('.' :: fraction) fraction

/-- A power of ten with its sign, or nothing. -/
inductive Power : List Char → Int → Prop
  | none : Power [] 0
  | plus {n : Nat} : n ≤ 9999 → Power ('e' :: '+' :: digitsOf n) n
  | minus {n : Nat} : n ≤ 9999 → Power ('e' :: '-' :: digitsOf n) (-n)

/-- A zero after the point changes nothing. -/
theorem same_ofDigits_zero (whole : List Char) :
    Same (ofDigits whole ['0'] 0) (ofDigits whole [] 0) := by
  have hvalue : valueOf (whole ++ ['0']) = valueOf whole * 10 := valueOf_append_zeros whole 1
  rw [Same, ofDigits, ofDigits, hvalue, List.append_nil]
  simp [numerator, denominator]

theorem exists_scientific_eq {x : Decimal} (h : x.Within 4400) :
    ∃ c point fraction power e, isDigit c ∧ Point point fraction ∧ Power power e ∧ power ≠ [] ∧
      x.scientific = c :: (point ++ power) ∧ ofDigits [c] fraction e = x := by
  obtain ⟨hlow, hhigh⟩ := leading_of_within h (by decide)
  have hpower : Power ('e' :: (if x.leading < 0 then [] else ['+']) ++ signedDigits x.leading)
      x.leading := by
    rw [signedDigits]
    split
    · rename_i hneg
      have he : x.leading = -(x.leading.natAbs : Int) := by omega
      generalize x.leading.natAbs = n at he ⊢
      rw [he]
      exact .minus (by omega)
    · rename_i hneg
      have he : x.leading = (x.leading.natAbs : Int) := by omega
      generalize x.leading.natAbs = n at he ⊢
      rw [he]
      exact .plus (by omega)
  have hofDigits {c : Char} {cs : List Char} (hdigits : digitsOf x.coefficient = c :: cs) :
      ofDigits [c] cs x.leading = x := by
    obtain ⟨coefficient, exponent⟩ := x
    have hexponent : leading ⟨coefficient, exponent⟩ - cs.length = exponent := by
      rw [leading, hdigits, List.length_cons]
      dsimp only
      omega
    rw [ofDigits, hexponent, List.singleton_append, ← hdigits, valueOf_digitsOf]
  rw [scientific]
  split
  · rename_i hdigits
    exact absurd hdigits (digitsOf_ne_nil _)
  · rename_i c hdigits
    have hc : c ∈ digitsOf x.coefficient := hdigits ▸ List.mem_singleton_self c
    exact ⟨c, [], [], _, _, isDigit_of_mem_digitsOf hc, .none, hpower, by simp, rfl,
      hofDigits hdigits⟩
  · rename_i c cs hcs hdigits
    have hmem : ∀ d ∈ c :: cs, isDigit d := fun d hd => isDigit_of_mem_digitsOf (hdigits ▸ hd)
    rw [List.forall_mem_cons] at hmem
    have hne : cs ≠ [] := hcs
    exact ⟨c, '.' :: cs, cs, _, _, hmem.1, .some hne hmem.2, hpower, by simp, rfl,
      hofDigits hdigits⟩

end Decimal

namespace Double

open Decimal

theorem within_exact (d : Double) : d.exact.Within 1100 := by
  obtain ⟨m, s, hparts, hm, -, hmagnitude⟩ := d.exists_parts
  have hs : s ≤ 2048 := by
    have hlt := d.magnitude_lt
    rw [Nat.pow_eq] at hlt
    omega
  rw [exact, hparts]
  dsimp only
  split
  · obtain ⟨k, hk⟩ : ∃ k : Nat, (s : Int) - 1074 = k := ⟨s - 1074, by omega⟩
    rw [hk, Int.toNat_natCast]
    refine ⟨?_, ?_, ?_⟩ <;> dsimp only <;> try omega
    calc m * Nat.pow 2 k ≤ 2 ^ 53 * 2 ^ 974 :=
          Nat.mul_le_mul (Nat.le_of_lt hm) (Nat.pow_le_pow_right (by decide) (by omega))
      _ < 10 ^ 1100 := by decide +kernel
  · obtain ⟨k, hk⟩ : ∃ k : Nat, (s : Int) - 1074 = -k := ⟨1074 - s, by omega⟩
    rw [hk, Int.neg_neg, Int.toNat_natCast]
    refine ⟨?_, ?_, ?_⟩ <;> dsimp only <;> try omega
    calc m * Nat.pow 5 k ≤ 2 ^ 53 * 5 ^ 1074 :=
          Nat.mul_le_mul (Nat.le_of_lt hm) (Nat.pow_le_pow_right (by decide) (by omega))
      _ < 10 ^ 1100 := by decide +kernel

theorem within_shortest (tie : Tie) (d : Double) : (d.shortest tie).Within 4400 := by
  have hexact := d.within_exact
  have hcount : digitCount d.exact.coefficient ≤ 1100 := hexact.length_le (by decide)
  rw [shortest]
  refine within_trimmed (n := 2200) ?_ (by decide)
  cases hfound : (List.range (min 17 (digitCount d.exact.coefficient - 1))).findSome?
      fun n => (d.exact.neighbours tie (digitCount d.exact.coefficient - (n + 1))).find?
        fun y => y.nearest d.negative = d with
  | none =>
    exact hexact.mono (by decide)
  | some y =>
    obtain ⟨n, -, hy⟩ := List.exists_of_findSome?_eq_some hfound
    exact within_of_mem_neighbours hexact (by omega) (by decide) (List.mem_of_find?_eq_some hy)

/-- What is written of a double: digits that fit 64 bits, and a point or a power of
    ten, so that it does not look like an integer. The double is the one nearest to
    it. With a power of ten, it is the shortest decimal itself. -/
structure SpelledAs (d : Double) (whole point fraction power : List Char) (e : Int) : Prop where
  isWhole : Whole whole
  isPoint : Point point fraction
  isPower : Power power e
  ne_nil : point ≠ [] ∨ power ≠ []
  spelled_eq : d.spelled = d.sign ++ (whole ++ (point ++ power))
  nearest_eq : (ofDigits whole fraction e).nearest d.negative = d
  length_le : whole.length ≤ 16
  eq_shortest : e = 0 ∨ ofDigits whole fraction e = d.shortest .even

/-- The text of a finite double: digits around a point, or digits and a power of ten. -/
theorem spelled_eq {d : Double} (h : d.isFinite) : d.spelled = d.sign ++
    (if -5 ≤ (d.shortest .even).leading ∧ (d.shortest .even).leading ≤ 15 then
      (d.shortest .even).places.1 ++ '.' :: (if (d.shortest .even).places.2 = [] then ['0']
        else (d.shortest .even).places.2)
    else (d.shortest .even).scientific) := by
  unfold spelled
  rw [h, Bool.not_true, if_neg Bool.false_ne_true]
  dsimp only
  split
  · obtain ⟨whole, fraction⟩ := (d.shortest .even).places
    cases fraction with
    | nil => exact List.append_assoc ..
    | cons c fraction => exact List.append_assoc ..
  · rfl

theorem exists_spelledAs {d : Double} (h : d.isFinite) :
    ∃ whole point fraction power e, d.SpelledAs whole point fraction power e := by
  have hnearest := nearest_shortest .even h
  have hwhole : Whole (d.shortest .even).places.1 :=
    whole_places fun hc => Int.le_of_eq (coefficient_trimmed_eq_zero hc)
  have hplaces := (d.shortest .even).places_places
  have hspelled := spelled_eq h
  split at hspelled
  · rename_i hleading
    have hlength := length_places_le hleading.2
    split at hspelled
    · rename_i hnil
      rw [hnil] at hplaces
      refine ⟨_, _, ['0'], [], 0, hwhole,
        .some (List.cons_ne_nil _ _) fun _ => isDigit_of_mem_zero, .none,
        .inl (List.cons_ne_nil _ _), ?_, ?_, hlength, .inl rfl⟩
      · rw [hspelled, List.append_nil]
      · rw [nearest_of_same (same_ofDigits_zero _), nearest_of_same hplaces.same, hnearest]
    · rename_i hne
      refine ⟨_, _, _, [], 0, hwhole, .some hne hplaces.isDigit_fraction, .none,
        .inl (List.cons_ne_nil _ _), ?_, ?_, hlength, .inl rfl⟩
      · rw [hspelled, List.append_nil]
      · rw [nearest_of_same hplaces.same, hnearest]
  · obtain ⟨c, point, fraction, power, e, hc, hpoint, hpower, hne, heq, hofDigits⟩ :=
      exists_scientific_eq (d.within_shortest .even)
    have hsingle : Whole [c] := by
      refine ⟨List.cons_ne_nil _ _, by simpa using hc, fun hzero => ?_⟩
      rw [Option.some.inj hzero]
    refine ⟨[c], point, fraction, power, e, hsingle, hpoint, hpower, .inr hne, ?_, ?_,
      by simp, .inr hofDigits⟩
    · rw [hspelled, heq]
      rfl
    · rw [hofDigits, hnearest]

end Double

end Sift
