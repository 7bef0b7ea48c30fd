import Mathlib.Algebra.Group.Nat.Defs
import Sift.Double.Decimal
import Sift.Proofs.Text.Digits

/-!
# Decimals that read back

The double nearest to a decimal depends on nothing but the value of the
decimal: on the ratio of `Decimal.numerator` and `Decimal.denominator`, also
beyond the bounds past which nothing is calculated. So a double is the nearest
one to its exact decimal, and to the shortest one, trimmed or not.

* `Decimal.Same`: decimals of one value;
* `Decimal.magnitudeOf_le_of_le`: greater ratios have greater nearest doubles;
* `Decimal.nearest_eq`: the nearest double, without any bounds;
* `Decimal.nearest_of_same`: it is the same for decimals of one value;
* `Double.nearest_exact`, `Double.nearest_shortest`: the exact and the shortest
  decimal of a finite double read back as this double;
* `Double.isFinite_ofInt`: integers of 64 bits are finite.
-/

namespace Sift

namespace Decimal

/-! ## Magnitudes of ratios -/

theorem quotient_mul {k : Nat} (hk : 0 < k) (n d : Nat) :
    quotient (k * n) (k * d) = quotient n d := by
  have hlt : 2 * (k * (n % d)) < k * d ↔ 2 * (n % d) < d := by
    rw [Nat.mul_left_comm, Nat.mul_lt_mul_left hk]
  have heq : 2 * (k * (n % d)) = k * d ↔ 2 * (n % d) = d := by
    rw [Nat.mul_left_comm, Nat.mul_right_inj (Nat.ne_of_gt hk)]
  rw [quotient, quotient, Nat.mul_div_mul_left _ _ hk, Nat.mul_mod_mul_left]
  simp only [hlt, heq]

theorem magnitudeOfUnits_mul {k : Nat} (hk : 0 < k) (n d : Nat) :
    magnitudeOfUnits (k * n) (k * d) = magnitudeOfUnits n d := by
  rw [magnitudeOfUnits, magnitudeOfUnits]
  simp only [Nat.mul_assoc, Nat.mul_div_mul_left _ _ hk, quotient_mul hk]

/-- Magnitudes depend on ratios only. -/
theorem magnitudeOf_eq {n d n' d' : Nat} (hd : 0 < d) (hd' : 0 < d') (h : n * d' = n' * d) :
    magnitudeOf n d = magnitudeOf n' d' := by
  rw [magnitudeOf, magnitudeOf, ← magnitudeOfUnits_mul hd' _ d, ← magnitudeOfUnits_mul hd _ d',
    ← Nat.mul_assoc, ← Nat.mul_assoc, Nat.mul_comm d' n, h, Nat.mul_comm n' d, Nat.mul_comm d' d]

theorem quotient_eq_of_eq_mul {n d m : Nat} (hd : 0 < d) (h : n = m * d) : quotient n d = m := by
  rw [quotient, h, Nat.mul_div_cancel _ hd, Nat.mul_mod_left]
  exact if_pos (.inl hd)

theorem log2_mul_two_pow_sub {m s : Nat} (hm : m < 2 ^ 53) (hs : s = 0 ∨ 2 ^ 52 ≤ m) :
    (m * 2 ^ s).log2 - 52 = s := by
  rcases hs with rfl | hs
  · -- Zero has no highest bit to count.
    have hlog : m.log2 < 53 ∨ m = 0 := by
      rcases Nat.eq_zero_or_pos m with rfl | hpos
      · exact .inr rfl
      · exact .inl ((Nat.log2_lt (Nat.ne_of_gt hpos)).2 hm)
    rcases hlog with hlog | rfl
    · rw [Nat.pow_zero, Nat.mul_one]
      omega
    · rfl
  · have hpos : m * 2 ^ s ≠ 0 := Nat.ne_of_gt (Nat.mul_pos (by omega) (Nat.two_pow_pos s))
    have hlog : (m * 2 ^ s).log2 = 52 + s := by
      rw [Nat.log2_eq_iff hpos, Nat.pow_add, show 52 + s + 1 = 53 + s by omega, Nat.pow_add]
      exact ⟨Nat.mul_le_mul_right _ hs, Nat.mul_lt_mul_of_pos_right hm (Nat.two_pow_pos s)⟩
    rw [hlog, Nat.add_sub_cancel_left]

/-- The magnitude of `m * 2 ^ s`, measured in the least positive double, if `m`
    has at most 53 bits, and no bit less unless `s` is 0. -/
theorem magnitudeOfUnits_of_eq_mul {n d m s : Nat} (hd : 0 < d) (h : n = m * 2 ^ s * d)
    (hm : m < 2 ^ 53) (hs : s = 0 ∨ 2 ^ 52 ≤ m) : magnitudeOfUnits n d = s * 2 ^ 52 + m := by
  have hquotient : quotient n (d * 2 ^ s) = m :=
    quotient_eq_of_eq_mul (Nat.mul_pos hd (Nat.two_pow_pos s))
      (by rw [h, Nat.mul_assoc, Nat.mul_comm d])
  rw [magnitudeOfUnits]
  simp only [h, Nat.mul_div_cancel _ hd, Nat.pow_eq, log2_mul_two_pow_sub hm hs]
  rw [← h]
  exact congrArg _ hquotient

/-! ## Order -/

theorem quotient_mono {n n' : Nat} (d : Nat) (h : n ≤ n') : quotient n d ≤ quotient n' d := by
  have hdiv : n / d ≤ n' / d := Nat.div_le_div_right h
  have hn := Nat.div_add_mod n d
  have hn' := Nat.div_add_mod n' d
  rw [quotient, quotient]
  -- Only quotients with one integer part can be rounded apart.
  rcases Nat.lt_or_eq_of_le hdiv with hlt | heq
  · split <;> split <;> omega
  · rw [heq] at hn ⊢
    split <;> split <;> omega

theorem le_quotient (n d : Nat) : n / d ≤ quotient n d := by
  rw [quotient]
  split <;> omega

theorem quotient_le (n d : Nat) : quotient n d ≤ n / d + 1 := by
  rw [quotient]
  split <;> omega

/-- What is left of a value after the shift has at most 53 bits. -/
theorem quotient_shift_le (n d : Nat) :
    quotient n (d * 2 ^ ((n / d).log2 - 52)) ≤ 2 ^ 53 := by
  refine Nat.le_trans (quotient_le _ _) ?_
  rw [Nat.succ_le_iff, ← Nat.div_div_eq_div_mul, Nat.div_lt_iff_lt_mul (Nat.two_pow_pos _),
    ← Nat.pow_add]
  exact Nat.lt_of_lt_of_le Nat.lt_log2_self (Nat.pow_le_pow_right (by decide) (by omega))

/-- A value that is shifted keeps its first 53 bits. -/
theorem le_quotient_shift {n d : Nat} (h : 52 ≤ (n / d).log2) :
    2 ^ 52 ≤ quotient n (d * 2 ^ ((n / d).log2 - 52)) := by
  have hpos : n / d ≠ 0 := by
    intro hzero
    rw [hzero] at h
    exact absurd h (by decide)
  refine Nat.le_trans ?_ (le_quotient _ _)
  rw [← Nat.div_div_eq_div_mul, Nat.le_div_iff_mul_le (Nat.two_pow_pos _), ← Nat.pow_add,
    Nat.add_sub_cancel' h]
  exact Nat.log2_self_le hpos

theorem log2_mono {n n' : Nat} (h : n ≤ n') : n.log2 ≤ n'.log2 := by
  by_cases hn : n = 0
  · rw [hn, Nat.log2_zero]
    exact Nat.zero_le _
  · have hn' : n' ≠ 0 := by omega
    exact (Nat.le_log2 hn').2 (Nat.le_trans (Nat.log2_self_le hn) h)

theorem magnitudeOfUnits_mono {n n' : Nat} (d : Nat) (h : n ≤ n') :
    magnitudeOfUnits n d ≤ magnitudeOfUnits n' d := by
  have hlog : (n / d).log2 ≤ (n' / d).log2 := log2_mono (Nat.div_le_div_right h)
  have hle := quotient_shift_le n d
  have hge := le_quotient_shift (n := n') (d := d)
  rw [magnitudeOfUnits, magnitudeOfUnits]
  simp only [Nat.pow_eq]
  rcases Nat.lt_or_ge ((n / d).log2 - 52) ((n' / d).log2 - 52) with hlt | hsame
  · -- The smaller value has at most the first magnitude of the next exponent.
    have hge := hge (by omega)
    generalize quotient n (d * 2 ^ ((n / d).log2 - 52)) = q at *
    generalize quotient n' (d * 2 ^ ((n' / d).log2 - 52)) = q' at *
    omega
  · rw [show (n / d).log2 - 52 = (n' / d).log2 - 52 by omega]
    exact Nat.add_le_add_left (quotient_mono _ h) _

/-- Greater ratios have greater magnitudes. -/
theorem magnitudeOfUnits_le_of_le {n d n' d' : Nat} (hd : 0 < d) (hd' : 0 < d')
    (h : n * d' ≤ n' * d) : magnitudeOfUnits n d ≤ magnitudeOfUnits n' d' := by
  rw [← magnitudeOfUnits_mul hd' n d, ← magnitudeOfUnits_mul hd n' d', Nat.mul_comm d' d]
  exact magnitudeOfUnits_mono _ (by rwa [Nat.mul_comm d', Nat.mul_comm d n'])

theorem magnitudeOf_le_of_le {n d n' d' : Nat} (hd : 0 < d) (hd' : 0 < d')
    (h : n * d' ≤ n' * d) : magnitudeOf n d ≤ magnitudeOf n' d' := by
  refine magnitudeOfUnits_le_of_le hd hd' ?_
  rw [Nat.mul_right_comm, Nat.mul_right_comm n']
  exact Nat.mul_le_mul_right _ h

/-! ## The bounds of the nearest double -/

/-- From `10 ^ 309` on, numbers round to infinity. -/
theorem infinite_le_magnitudeOf {c k : Nat} (hc : c ≠ 0) (hk : 309 ≤ k) :
    Double.infinite ≤ magnitudeOf (c * 10 ^ k) 1 := by
  have hpow {a b : Nat} (h : a ≤ b) : 10 ^ a ≤ c * 10 ^ b :=
    Nat.le_trans (Nat.pow_le_pow_right (by decide) h)
      (Nat.le_mul_of_pos_left _ (Nat.pos_of_ne_zero hc))
  calc Double.infinite ≤ magnitudeOf (10 ^ 309) 1 := by decide +kernel
    _ ≤ magnitudeOf (c * 10 ^ k) 1 :=
        magnitudeOf_le_of_le Nat.one_pos Nat.one_pos (Nat.mul_le_mul_right 1 (hpow hk))

/-- Less than half of the least positive double rounds to zero. -/
theorem magnitudeOfUnits_eq_zero {n d : Nat} (h : 2 * n < d) : magnitudeOfUnits n d = 0 := by
  have hlt : n < d := Nat.lt_of_le_of_lt (Nat.le_mul_of_pos_left _ (by decide)) h
  rw [magnitudeOfUnits]
  simp only [Nat.div_eq_of_lt hlt, Nat.log2_zero, Nat.zero_sub, Nat.zero_mul, Nat.zero_add]
  rw [Nat.pow_eq, Nat.pow_zero, Nat.mul_one, quotient, Nat.div_eq_of_lt hlt, Nat.mod_eq_of_lt hlt]
  exact if_pos (.inl h)

theorem magnitudeOf_zero {d : Nat} (hd : 0 < d) : magnitudeOf 0 d = 0 := by
  simp only [magnitudeOf, Nat.zero_mul]
  exact magnitudeOfUnits_eq_zero hd

/-- Three bits of a number are worth less than one digit. -/
theorem mul_lt_pow_of_log2 {c k p b : Nat} (hp : p * 8 ≤ 10 ^ b) (hpos : 0 < p)
    (hk : b + c.log2 / 3 ≤ k) : c * p < 10 ^ k := by
  have hlog : c.log2 + 1 ≤ 3 * (c.log2 / 3) + 3 := by omega
  calc c * p < 2 ^ (c.log2 + 1) * p := Nat.mul_lt_mul_of_pos_right Nat.lt_log2_self hpos
    _ ≤ 2 ^ (3 * (c.log2 / 3) + 3) * p :=
        Nat.mul_le_mul_right _ (Nat.pow_le_pow_right (by decide) hlog)
    _ = p * 8 * 8 ^ (c.log2 / 3) := by
        rw [Nat.pow_add, Nat.pow_mul, Nat.mul_assoc, Nat.mul_comm, Nat.mul_comm p 8]
    _ ≤ 10 ^ b * 10 ^ (c.log2 / 3) := Nat.mul_le_mul hp (Nat.pow_le_pow_left (by decide) _)
    _ = 10 ^ (b + c.log2 / 3) := by rw [Nat.pow_add]
    _ ≤ 10 ^ k := Nat.pow_le_pow_right (by decide) hk

/-- From `10 ^ -326` down, numbers of few enough bits round to zero. -/
theorem magnitudeOf_eq_zero {c k : Nat} (h : 326 + c.log2 / 3 ≤ k) :
    magnitudeOf c (10 ^ k) = 0 := by
  refine magnitudeOfUnits_eq_zero ?_
  rw [Nat.mul_left_comm]
  exact mul_lt_pow_of_log2 (by decide +kernel) (by decide +kernel) h

/-! ## Values -/

/-- The numerator of the value of a decimal. -/
def numerator (x : Decimal) : Nat := x.coefficient * 10 ^ x.exponent.toNat

/-- The denominator of the value of a decimal. -/
def denominator (x : Decimal) : Nat := 10 ^ (-x.exponent).toNat

theorem denominator_pos (x : Decimal) : 0 < x.denominator := Nat.pow_pos (by decide)

/-- Whether two decimals have the same value. -/
def Same (x y : Decimal) : Prop := x.numerator * y.denominator = y.numerator * x.denominator

theorem ofMagnitude_infinite {negative : Bool} {m : Nat} (h : Double.infinite ≤ m) :
    Double.ofMagnitude negative Double.infinite = .ofMagnitude negative m := by
  simp only [Double.ofMagnitude, Nat.min_self, Nat.min_eq_right h]

/-- The nearest double is that of the ratio, also beyond the bounds. -/
theorem nearest_eq (negative : Bool) (x : Decimal) :
    x.nearest negative = .ofMagnitude negative (magnitudeOf x.numerator x.denominator) := by
  -- The cases are the bounds of `nearest`, of which each cuts off where the
  -- ratio itself rounds to zero or to infinity.
  rw [nearest]
  split
  · rename_i hc
    rw [numerator, hc, Nat.zero_mul, magnitudeOf_zero x.denominator_pos]
  rename_i hc
  split
  · rename_i he
    have hden : x.denominator = 1 := by
      rw [denominator, Int.toNat_of_nonpos (by omega), Nat.pow_zero]
    rw [hden]
    split
    · rename_i hlarge
      exact ofMagnitude_infinite (infinite_le_magnitudeOf hc (by omega))
    · rfl
  · rename_i he
    have hnum : x.numerator = x.coefficient := by
      rw [numerator, Int.toNat_of_nonpos (by omega), Nat.pow_zero, Nat.mul_one]
    rw [hnum]
    split
    · have hsmall : 326 + x.coefficient.log2 / 3 ≤ (-x.exponent).toNat := by omega
      rw [denominator, magnitudeOf_eq_zero hsmall]
    · rfl

theorem nearest_of_same {x y : Decimal} (h : x.Same y) (negative : Bool) :
    x.nearest negative = y.nearest negative := by
  rw [nearest_eq, nearest_eq, magnitudeOf_eq x.denominator_pos y.denominator_pos h]

/-! ### Zeros at the end -/

theorem same_div_pow {c k : Nat} (e : Int) (h : 10 ^ k ∣ c) :
    Same ⟨c / 10 ^ k, e + k⟩ ⟨c, e⟩ := by
  have he : (e + k).toNat + (-e).toNat = e.toNat + (-(e + k)).toNat + k := by omega
  simp only [Same, numerator, denominator]
  calc c / 10 ^ k * 10 ^ (e + k).toNat * 10 ^ (-e).toNat
      = c / 10 ^ k * 10 ^ k * 10 ^ (e.toNat + (-(e + k)).toNat) := by
        rw [Nat.mul_assoc, ← Nat.pow_add, he, Nat.pow_add, Nat.mul_comm (10 ^ _) (10 ^ k),
          Nat.mul_assoc]
    _ = c * 10 ^ e.toNat * 10 ^ (-(e + k)).toNat := by
        rw [Nat.div_mul_cancel h, Nat.pow_add, Nat.mul_assoc]

/-- A number is divisible by as many tens as it has zeros at the end. -/
theorem pow_dvd_valueOf (s : List Char) :
    10 ^ (s.reverse.takeWhile (· == '0')).length ∣ Text.valueOf s := by
  obtain ⟨r, rfl⟩ : ∃ r : List Char, s = r.reverse := ⟨s.reverse, s.reverse_reverse.symm⟩
  have hzeros : r.takeWhile (· == '0') = List.replicate (r.takeWhile (· == '0')).length '0' :=
    List.eq_replicate_of_mem fun c hc => by
      simpa using List.all_eq_true.1 List.all_takeWhile c hc
  have hvalue : Text.valueOf r.reverse = Text.valueOf (r.dropWhile (· == '0')).reverse *
      10 ^ (r.takeWhile (· == '0')).length := by
    rw [← Text.valueOf_append_zeros, ← List.reverse_replicate, ← List.reverse_append, ← hzeros,
      List.takeWhile_append_dropWhile]
  rw [List.reverse_reverse, hvalue]
  exact Nat.dvd_mul_left ..

theorem same_trimmed (x : Decimal) : x.trimmed.Same x := by
  obtain ⟨c, e⟩ := x
  rw [trimmed]
  dsimp only
  split
  · rename_i hc
    rw [hc, Same, numerator, numerator, Nat.zero_mul, Nat.zero_mul, Nat.zero_mul, Nat.zero_mul]
  · refine same_div_pow e ?_
    have hdvd := pow_dvd_valueOf (Text.digitsOf c)
    rwa [Text.valueOf_digitsOf] at hdvd

end Decimal

/-! ## The exact decimal -/

namespace Double

/-- A finite double, measured in the least positive one. -/
theorem exists_parts (d : Double) : ∃ m s : Nat, d.parts = (m, (s : Int) - 1074) ∧
    m < 2 ^ 53 ∧ (s = 0 ∨ 2 ^ 52 ≤ m) ∧ d.magnitude = s * 2 ^ 52 + m := by
  have hdiv := Nat.div_add_mod d.magnitude (2 ^ 52)
  have hmod := Nat.mod_lt d.magnitude (Nat.two_pow_pos 52)
  rw [parts]
  simp only [Nat.pow_eq]
  generalize d.magnitude / 2 ^ 52 = exponent at hdiv ⊢
  generalize d.magnitude % 2 ^ 52 = fraction at hdiv hmod ⊢
  cases exponent with
  | zero => exact ⟨fraction, 0, rfl, by omega, .inl rfl, by omega⟩
  | succ s =>
    refine ⟨2 ^ 52 + fraction, s, ?_, by omega, .inr (by omega), by omega⟩
    rw [if_neg (Nat.succ_ne_zero s)]
    congr 1
    omega

/-! The exact decimal has the value of the double. Here `u` stands for 1074, as
no power of that size should be calculated. -/

theorem units_of_pow_two {m k s u : Nat} (h : s = u + k) :
    (⟨m * Nat.pow 2 k, 0⟩ : Decimal).numerator * Nat.pow 2 u =
      m * 2 ^ s * (⟨m * Nat.pow 2 k, 0⟩ : Decimal).denominator := by
  simp only [Decimal.numerator, Decimal.denominator, Int.toNat_zero, Int.neg_zero, Nat.pow_zero,
    Nat.mul_one]
  change m * 2 ^ k * 2 ^ u = m * 2 ^ s
  rw [Nat.mul_assoc, ← Nat.pow_add, Nat.add_comm k u, h]

theorem units_of_pow_five {m k s u : Nat} (h : u = s + k) :
    (⟨m * Nat.pow 5 k, -k⟩ : Decimal).numerator * Nat.pow 2 u =
      m * 2 ^ s * (⟨m * Nat.pow 5 k, -k⟩ : Decimal).denominator := by
  simp only [Decimal.numerator, Decimal.denominator, Int.neg_neg, Int.toNat_natCast,
    Int.toNat_neg_natCast, Nat.pow_zero, Nat.mul_one]
  change m * 5 ^ k * 2 ^ u = m * 2 ^ s * 10 ^ k
  rw [h, Nat.pow_add, show 10 = 5 * 2 from rfl, Nat.mul_pow, Nat.mul_assoc, Nat.mul_assoc,
    Nat.mul_left_comm (5 ^ k)]

theorem ofMagnitude_magnitude {d : Double} (h : d.isFinite) :
    ofMagnitude d.negative d.magnitude = d := by
  obtain ⟨negative, magnitude, hlt⟩ := d
  simp only [isFinite, decide_eq_true_eq] at h
  simp only [ofMagnitude, Nat.min_eq_left (Nat.le_of_lt h)]

/-- A finite double is the one nearest to its exact decimal. -/
theorem nearest_exact {d : Double} (h : d.isFinite) : d.exact.nearest d.negative = d := by
  obtain ⟨m, s, hparts, hm, hs, hmagnitude⟩ := d.exists_parts
  have hunits : d.exact.numerator * Nat.pow 2 1074 = m * 2 ^ s * d.exact.denominator := by
    rw [exact, hparts]
    dsimp only
    split
    · rename_i he
      obtain ⟨k, hk⟩ : ∃ k : Nat, (s : Int) - 1074 = k := ⟨s - 1074, by omega⟩
      rw [hk, Int.toNat_natCast]
      apply units_of_pow_two
      omega
    · rename_i he
      obtain ⟨k, hk⟩ : ∃ k : Nat, (s : Int) - 1074 = -k := ⟨1074 - s, by omega⟩
      rw [hk, Int.neg_neg, Int.toNat_natCast]
      apply units_of_pow_five
      omega
  have hexact : Decimal.magnitudeOf d.exact.numerator d.exact.denominator = d.magnitude := by
    rw [Decimal.magnitudeOf, hmagnitude]
    exact Decimal.magnitudeOfUnits_of_eq_mul d.exact.denominator_pos hunits hm hs
  rw [Decimal.nearest_eq, hexact, ofMagnitude_magnitude h]

/-- A finite double is the one nearest to its shortest decimal. -/
theorem nearest_shortest (tie : Tie) {d : Double} (h : d.isFinite) :
    (d.shortest tie).nearest d.negative = d := by
  rw [shortest, Decimal.nearest_of_same (Decimal.same_trimmed _)]
  cases hfound : (List.range (min 17 (Decimal.digitCount d.exact.coefficient - 1))).findSome?
      fun n => (d.exact.neighbours tie (Decimal.digitCount d.exact.coefficient - (n + 1))).find?
        fun y => y.nearest d.negative = d with
  | none => exact nearest_exact h
  | some y =>
    -- Whatever was found has been read back before it was taken.
    obtain ⟨n, _, hy⟩ := List.exists_of_findSome?_eq_some hfound
    have hread := List.find?_some hy
    exact of_decide_eq_true hread

/-! ## Integers -/

theorem isFinite_ofMagnitude {negative : Bool} {m : Nat} (h : m < infinite) :
    (ofMagnitude negative m).isFinite := decide_eq_true (Nat.lt_of_le_of_lt (Nat.min_le_left ..) h)

/-- Integers of 64 bits are finite as doubles. -/
theorem isFinite_ofInt {i : Int} (hlow : -(Nat.pow 2 63 : Nat) ≤ i)
    (hhigh : i < (Nat.pow 2 64 : Nat)) : (ofInt i).isFinite := by
  simp only [Nat.pow_eq] at hlow hhigh
  have hnumerator : (⟨i.natAbs, 0⟩ : Decimal).numerator = i.natAbs := Nat.mul_one _
  rw [ofInt, Decimal.nearest_eq, hnumerator]
  refine isFinite_ofMagnitude ?_
  have hle : i.natAbs * 1 ≤ 2 ^ 64 * 1 := by omega
  calc Decimal.magnitudeOf i.natAbs 1
      ≤ Decimal.magnitudeOf (2 ^ 64) 1 := Decimal.magnitudeOf_le_of_le Nat.one_pos Nat.one_pos hle
    _ < infinite := by decide +kernel

end Double

end Sift
