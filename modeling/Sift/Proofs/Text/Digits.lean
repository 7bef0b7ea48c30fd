import Mathlib.Algebra.Group.Nat.Defs
import Mathlib.Data.List.Basic
import Sift.Text.Blank
import Sift.Text.Digits

/-!
# Runs of digits

Decimal digits read back as the number they are written for.

* `valueOf_append`, `valueOf_digitsOf`: the value of digits put together, and
  of the digits of a number;
* `valueOf_lt`: a bound for the value of some digits;
* `length_padded`, `valueOf_padded`: the same with zeros in front;
* `Whole`: digits without a zero in front of others, and `whole_digitsOf`: that
  a number is written in such.
-/

namespace Sift.Text

theorem isDigit_of_core {c : Char} (h : c.isDigit) : isDigit c := by
  rw [Char.isDigit, Bool.and_eq_true, decide_eq_true_eq, decide_eq_true_eq] at h
  rw [isDigit, Bool.and_eq_true, decide_eq_true_eq, decide_eq_true_eq]
  exact h

/-- To test all digits, test ten characters. -/
theorem of_isDigit {p : Char → Bool} (h : "0123456789".toList.all p) {c : Char} (hc : isDigit c) :
    p c := by
  rw [isDigit, Bool.and_eq_true, decide_eq_true_eq, decide_eq_true_eq] at hc
  have hlow : 48 ≤ c.toNat := hc.1
  have hhigh : c.toNat ≤ 57 := hc.2
  -- The digits are the characters from 48 to 57.
  have hmem : c.toNat ∈ (List.range 58).drop 48 := by
    rw [List.mem_drop_iff_getElem]
    exact ⟨c.toNat - 48, by simp; omega, by simp; omega⟩
  have hall : ∀ n ∈ (List.range 58).drop 48, Char.ofNat n ∈ "0123456789".toList := by decide
  rw [← Char.ofNat_toNat c]
  exact List.all_eq_true.1 h _ (hall _ hmem)

theorem isBlank_of_isDigit {c : Char} (h : isDigit c) : isBlank c = false :=
  Bool.not_eq_true' _ ▸ of_isDigit (p := fun c => !isBlank c) (by decide) h

/-! ## Values -/

theorem valueOf_eq (s : List Char) : valueOf s = Nat.ofDigitChars 10 s 0 := rfl

theorem valueOf_append (s t : List Char) :
    valueOf (s ++ t) = valueOf s * 10 ^ t.length + valueOf t := by
  rw [valueOf_eq, valueOf_eq, valueOf_eq, Nat.ofDigitChars_append,
    Nat.ofDigitChars_eq_ofDigitChars_zero, Nat.mul_comm]

theorem valueOf_replicate_zero (n : Nat) : valueOf (List.replicate n '0') = 0 := by
  rw [valueOf_eq, Nat.ofDigitChars_replicate_zero, Nat.mul_zero]

theorem valueOf_digitsOf (n : Nat) : valueOf (digitsOf n) = n := by
  rw [valueOf_eq, digitsOf, Nat.ofDigitChars_ten_toDigits]

theorem valueOf_zeros_append (n : Nat) (s : List Char) :
    valueOf (List.replicate n '0' ++ s) = valueOf s := by
  rw [valueOf_append, valueOf_replicate_zero, Nat.zero_mul, Nat.zero_add]

theorem valueOf_append_zeros (s : List Char) (n : Nat) :
    valueOf (s ++ List.replicate n '0') = valueOf s * 10 ^ n := by
  rw [valueOf_append, valueOf_replicate_zero, List.length_replicate, Nat.add_zero]

theorem digitValue_lt {c : Char} (h : isDigit c) : digitValue c < 10 :=
  of_decide_eq_true (of_isDigit (p := fun c => digitValue c < 10) (by decide) h)

/-- Digits write numbers below the power of ten of their length. -/
theorem valueOf_lt {s : List Char} (h : ∀ c ∈ s, isDigit c) : valueOf s < 10 ^ s.length := by
  induction s with
  | nil => decide
  | cons c s ih =>
    rw [List.forall_mem_cons] at h
    have hfirst : valueOf [c] < 10 := by
      rw [valueOf, List.foldl_cons, List.foldl_nil, Nat.mul_zero, Nat.zero_add]
      exact digitValue_lt h.1
    calc valueOf ([c] ++ s) = valueOf [c] * 10 ^ s.length + valueOf s := valueOf_append [c] s
      _ < valueOf [c] * 10 ^ s.length + 10 ^ s.length := Nat.add_lt_add_left (ih h.2) _
      _ = (valueOf [c] + 1) * 10 ^ s.length := (Nat.succ_mul _ _).symm
      _ ≤ 10 * 10 ^ s.length := Nat.mul_le_mul_right _ hfirst
      _ = 10 ^ (s.length + 1) := (Nat.pow_succ').symm

/-! ## Written numbers -/

theorem isDigit_of_mem_zeros {n : Nat} {c : Char} (h : c ∈ List.replicate n '0') : isDigit c := by
  rw [List.eq_of_mem_replicate h]
  rfl

theorem isDigit_of_mem_digitsOf {n : Nat} {c : Char} (h : c ∈ digitsOf n) : isDigit c :=
  isDigit_of_core (Nat.isDigit_of_mem_toDigits (by decide) (by decide) h)

theorem digitsOf_ne_nil (n : Nat) : digitsOf n ≠ [] := Nat.toDigits_ne_nil

theorem padded_ne_nil (width n : Nat) : padded width n ≠ [] :=
  fun h => digitsOf_ne_nil n (List.append_eq_nil_iff.1 h).2

theorem isDigit_of_mem_padded {width n : Nat} {c : Char} (h : c ∈ padded width n) : isDigit c :=
  (List.mem_append.1 h).elim isDigit_of_mem_zeros isDigit_of_mem_digitsOf

theorem isBlank_of_mem_padded {width n : Nat} {c : Char} (h : c ∈ padded width n) :
    isBlank c = false := isBlank_of_isDigit (isDigit_of_mem_padded h)

theorem valueOf_padded (width n : Nat) : valueOf (padded width n) = n := by
  rw [padded, valueOf_zeros_append, valueOf_digitsOf]

theorem length_padded {width n : Nat} (hw : 0 < width) (h : n < 10 ^ width) :
    (padded width n).length = width := by
  have hlength : (digitsOf n).length ≤ width := (Nat.length_toDigits_le_iff (by decide) hw).2 h
  rw [padded, List.length_append, List.length_replicate, Nat.sub_add_cancel hlength]

/-! ## Zeros in front -/

/-- Digits without a zero in front of other digits. -/
structure Whole (s : List Char) : Prop where
  ne_nil : s ≠ []
  isDigit : ∀ c ∈ s, isDigit c
  eq_of_zero : s.head? = some '0' → s = ['0']

theorem isDigit_of_mem_zero {c : Char} (h : c ∈ ['0']) : isDigit c := by
  rw [List.mem_singleton.1 h]
  rfl

theorem whole_zero : Whole ['0'] :=
  ⟨List.cons_ne_nil _ _, fun _ => isDigit_of_mem_zero, fun _ => rfl⟩

/-- Only the digits of zero start with a zero. -/
theorem head?_digitsOf_ne {n : Nat} (h : n ≠ 0) : (digitsOf n).head? ≠ some '0' := by
  induction n using Nat.strongRecOn with
  | ind n ih =>
    rw [digitsOf]
    rcases Nat.lt_or_ge n 10 with hlt | hge
    · rw [Nat.toDigits_of_lt_base hlt, List.head?_cons, Ne, Option.some.injEq,
        Nat.digitChar_eq_zero]
      exact h
    · rw [Nat.toDigits_of_base_le (by decide) hge,
        List.head?_append_of_ne_nil _ Nat.toDigits_ne_nil]
      exact ih (n / 10) (Nat.div_lt_self (by omega) (by decide)) (by omega)

theorem whole_digitsOf (n : Nat) : Whole (digitsOf n) := by
  refine ⟨digitsOf_ne_nil n, fun c hc => isDigit_of_mem_digitsOf hc, fun hzero => ?_⟩
  by_cases hn : n = 0
  · rw [hn]
    rfl
  · exact absurd hzero (head?_digitsOf_ne hn)

end Sift.Text
