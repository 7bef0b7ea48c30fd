import Sift.Instant.Reader
import Sift.Proofs.Text.Reader

/-!
# The shape of dates

What a text that names an instant looks like, in whichever of its forms: a year
in digits, perhaps with a sign, and a minus behind it.

* `takeNumber_eq_some`, `takeChar_eq_some`: what stands where a number or a
  character was found;
* `exists_of_ofText?`: the year at the start of a text that names an instant;
* `zone_notMem_of_ofLocal?`: that only stamps have the letter of a zone.
-/

namespace Sift.Instant

open Text

theorem takeChar_eq_some {c : Char} {s r : List Char} : takeChar c s = some r ↔ s = c :: r := by
  cases s with
  | nil => simp [takeChar]
  | cons x s =>
    rw [takeChar, Option.ite_none_right_eq_some, Option.some_inj, List.cons.injEq]

theorem takeNumber_eq_some {least most n : Nat} {s r : List Char}
    (h : takeNumber least most s = some (n, r)) :
    ∃ ds, s = ds ++ r ∧ (∀ c ∈ ds, isDigit c) ∧ least ≤ ds.length := by
  rw [takeNumber, Option.ite_none_left_eq_some, Option.some_inj, Prod.mk.injEq] at h
  obtain ⟨hlength, _, hr⟩ := h
  refine ⟨(s.take most).takeWhile isDigit, ?_, fun c hc => List.mem_takeWhile_imp hc,
    Nat.not_lt.1 hlength⟩
  -- The digits are a prefix of the text, so that dropping as many leaves the rest.
  have hprefix : (s.take most).takeWhile isDigit <+: s :=
    (List.takeWhile_prefix _).trans (List.take_prefix _ _)
  rw [← hr]
  exact (List.prefix_iff_eq_append.1 hprefix).symm

theorem trimBlanks_eq_self {s : List Char} (h : ∀ c ∈ s, isBlank c = false) : trimBlanks s = s := by
  have hends {t : List Char} (ht : ∀ c ∈ t, isBlank c = false) : skipBlanks t = t :=
    skipBlanks_of_ends fun c hc => ht c (List.mem_of_mem_head? hc)
  rw [trimBlanks, hends h, hends fun c hc => h c (List.mem_reverse.1 hc), List.reverse_reverse]

theorem exists_of_takeYear {s r : List Char} {year : Int} (h : takeYear s = some (year, r))
    (hs : ∀ c ∈ s, isBlank c = false) :
    ∃ c u, s = c :: (u ++ r) ∧ (isDigit c ∨ c = '+' ∨ c = '-') ∧ ∀ x ∈ u, isDigit x := by
  rw [takeYear, skipBlanks_of_ends fun c hc => hs c (List.mem_of_mem_head? hc)] at h
  split at h
  · obtain ⟨⟨n, r'⟩, hnumber, he⟩ := Option.map_eq_some_iff.1 h
    obtain ⟨rfl, rfl⟩ := Prod.mk.inj he
    obtain ⟨ds, rfl, hds, -⟩ := takeNumber_eq_some hnumber
    exact ⟨_, ds, rfl, .inr (.inl rfl), hds⟩
  · obtain ⟨⟨n, r'⟩, hnumber, he⟩ := Option.map_eq_some_iff.1 h
    obtain ⟨rfl, rfl⟩ := Prod.mk.inj he
    obtain ⟨ds, rfl, hds, -⟩ := takeNumber_eq_some hnumber
    exact ⟨_, ds, rfl, .inr (.inr rfl), hds⟩
  · obtain ⟨⟨n, r'⟩, hnumber, he⟩ := Option.map_eq_some_iff.1 h
    obtain ⟨rfl, rfl⟩ := Prod.mk.inj he
    obtain ⟨ds, rfl, hds, hlength⟩ := takeNumber_eq_some hnumber
    obtain ⟨c, u, rfl⟩ := List.exists_cons_of_length_pos hlength
    rw [List.forall_mem_cons] at hds
    exact ⟨c, u, rfl, .inl hds.1, hds.2⟩

/-- A text without blanks that names an instant starts with the digits of a
    year, perhaps with a sign, and a minus. -/
theorem exists_of_ofText? {s : List Char} {i : Instant} (h : ofText? s = some i)
    (hs : ∀ c ∈ s, isBlank c = false) :
    ∃ c u v, s = c :: (u ++ '-' :: v) ∧ (isDigit c ∨ c = '+' ∨ c = '-') ∧ ∀ x ∈ u, isDigit x := by
  rw [ofText?, trimBlanks_eq_self hs] at h
  split at h
  · rename_i j hstamp
    rw [ofStamp?, Option.bind_eq_bind, Option.bind_eq_some_iff] at hstamp
    obtain ⟨⟨year, r⟩, hyear, hstamp⟩ := hstamp
    obtain ⟨v, hminus, -⟩ := Option.bind_eq_some_iff.1 hstamp
    obtain ⟨ds, rfl, hds, hlength⟩ := takeNumber_eq_some hyear
    obtain ⟨c, u, rfl⟩ := List.exists_cons_of_length_pos (Nat.lt_of_lt_of_le (by decide) hlength)
    rw [List.forall_mem_cons] at hds
    exact ⟨c, u, v, by rw [takeChar_eq_some.1 hminus, List.cons_append], .inl hds.1, hds.2⟩
  · rw [ofLocal?, Option.bind_eq_bind, Option.bind_eq_some_iff] at h
    obtain ⟨⟨year, r⟩, hyear, h⟩ := h
    obtain ⟨v, hminus, -⟩ := Option.bind_eq_some_iff.1 h
    obtain ⟨c, u, hcu, hc, hu⟩ := exists_of_takeYear hyear hs
    exact ⟨c, u, v, by rw [hcu, takeChar_eq_some.1 hminus], hc, hu⟩

/-! ## Texts without a zone -/

section

variable {s r : List Char}

theorem zone_mem_of_takeNumber {least most n : Nat} (h : takeNumber least most s = some (n, r))
    (hs : 'Z' ∈ s) : 'Z' ∈ r := by
  obtain ⟨ds, rfl, hds, -⟩ := takeNumber_eq_some h
  exact (List.mem_append.1 hs).resolve_left fun hz => absurd (hds _ hz) (by decide)

theorem zone_mem_of_takeChar {c : Char} (hc : c ≠ 'Z') (h : takeChar c s = some r)
    (hs : 'Z' ∈ s) : 'Z' ∈ r := by
  rw [takeChar_eq_some.1 h] at hs
  exact (List.mem_cons.1 hs).resolve_left hc.symm

theorem zone_mem_of_skipBlanks (hs : 'Z' ∈ s) : 'Z' ∈ skipBlanks s := by
  obtain ⟨b, hb, he⟩ := exists_eq_append_skipBlanks s
  rw [he] at hs
  exact (List.mem_append.1 hs).resolve_left fun hz => absurd (hb _ hz) (by decide)

theorem zone_mem_of_takeShort {n : Nat} (h : takeShort s = some (n, r)) (hs : 'Z' ∈ s) : 'Z' ∈ r :=
  zone_mem_of_takeNumber h (zone_mem_of_skipBlanks hs)

theorem zone_mem_of_takeYear {year : Int} (h : takeYear s = some (year, r)) (hs : 'Z' ∈ s) :
    'Z' ∈ r := by
  have hskip := zone_mem_of_skipBlanks hs
  rw [takeYear] at h
  split at h
  · rename_i t he
    obtain ⟨⟨n, r'⟩, hnumber, he'⟩ := Option.map_eq_some_iff.1 h
    cases he'
    rw [he] at hskip
    exact zone_mem_of_takeNumber hnumber ((List.mem_cons.1 hskip).resolve_left (by decide))
  · rename_i t he
    obtain ⟨⟨n, r'⟩, hnumber, he'⟩ := Option.map_eq_some_iff.1 h
    cases he'
    rw [he] at hskip
    exact zone_mem_of_takeNumber hnumber ((List.mem_cons.1 hskip).resolve_left (by decide))
  · obtain ⟨⟨n, r'⟩, hnumber, he'⟩ := Option.map_eq_some_iff.1 h
    cases he'
    exact zone_mem_of_takeNumber hnumber hskip

theorem zone_mem_of_takeFraction {n : Nat} (h : takeFraction s = some (n, r)) (hs : 'Z' ∈ s) :
    'Z' ∈ r := by
  unfold takeFraction at h
  split at h
  · rename_i t
    dsimp only at h
    rw [Option.ite_none_left_eq_some] at h
    cases h.2
    have ht : 'Z' ∈ t := (List.mem_cons.1 hs).resolve_left (by decide)
    rw [← List.takeWhile_append_dropWhile (p := isDigit) (l := t)] at ht
    exact (List.mem_append.1 ht).resolve_left fun hz =>
      absurd (List.mem_takeWhile_imp hz) (by decide)
  · cases h
    exact hs

theorem zone_notMem_of_readSeconds {second nanosecond : Nat}
    (h : readSeconds s = some (second, nanosecond)) : 'Z' ∉ s := fun hs => by
  unfold readSeconds at h
  split at h
  · exact absurd hs List.not_mem_nil
  · rename_i t
    obtain ⟨⟨n, r⟩, hshort, h⟩ := Option.bind_eq_some_iff.1 h
    obtain ⟨⟨m, r'⟩, hfraction, h⟩ := Option.bind_eq_some_iff.1 h
    dsimp only at h
    rw [Option.ite_none_right_eq_some, List.isEmpty_iff] at h
    have ht : 'Z' ∈ t := (List.mem_cons.1 hs).resolve_left (by decide)
    have hr := zone_mem_of_takeFraction hfraction (zone_mem_of_takeShort hshort ht)
    rw [h.1] at hr
    exact absurd hr List.not_mem_nil
  · exact absurd h (by simp)

/-- Only a stamp names its zone. -/
theorem zone_notMem_of_ofLocal? {i : Instant} (h : ofLocal? s = some i) : 'Z' ∉ s := fun hs => by
  obtain ⟨⟨year, r₁⟩, hyear, h⟩ := Option.bind_eq_some_iff.1 h
  obtain ⟨r₂, hminus, h⟩ := Option.bind_eq_some_iff.1 h
  obtain ⟨⟨month, r₃⟩, hmonth, h⟩ := Option.bind_eq_some_iff.1 h
  obtain ⟨r₄, hminus', h⟩ := Option.bind_eq_some_iff.1 h
  obtain ⟨⟨day, r₅⟩, hday, h⟩ := Option.bind_eq_some_iff.1 h
  obtain ⟨date, -, h⟩ := Option.bind_eq_some_iff.1 h
  have hrest : 'Z' ∈ r₅ := zone_mem_of_takeShort hday (zone_mem_of_takeChar (by decide) hminus'
    (zone_mem_of_takeShort hmonth (zone_mem_of_takeChar (by decide) hminus
      (zone_mem_of_takeYear hyear hs))))
  dsimp only at h
  split at h
  · exact absurd hrest List.not_mem_nil
  · rename_i t
    obtain ⟨⟨hour, r₆⟩, hhour, h⟩ := Option.bind_eq_some_iff.1 h
    obtain ⟨r₇, hcolon, h⟩ := Option.bind_eq_some_iff.1 h
    obtain ⟨⟨minute, r₈⟩, hminute, h⟩ := Option.bind_eq_some_iff.1 h
    obtain ⟨⟨second, nanosecond⟩, hseconds, h⟩ := Option.bind_eq_some_iff.1 h
    refine zone_notMem_of_readSeconds hseconds (zone_mem_of_takeShort hminute
      (zone_mem_of_takeChar (by decide) hcolon (zone_mem_of_takeShort hhour ?_)))
    exact (List.mem_cons.1 hrest).resolve_left (by decide)
  · exact absurd h (by simp)

end

end Sift.Instant
