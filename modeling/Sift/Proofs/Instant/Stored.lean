import Sift.Proofs.Instant.Stamp

/-!
# Stored instants

The form in which an instant is stored keeps all of it: as many digits of the
fraction of a second as there are, in groups of three, and a leap second as
second 60. That leaves nothing out for a year of four digits and for a leap
second where clocks have one, at the end of a minute.

* `Instant.Proper`: the instants with leap seconds where clocks have them, and
  `Instant.proper_of_ofText?`, `Instant.proper_iff_exists_ofText?`: that these are
  read and no others;
* `Instant.takeFraction_writtenFraction`: a written fraction of a second reads
  back;
* `Instant.ofText?_written`: an instant reads back with any name of UTC behind it,
  and `Instant.ofText?_zulu`: so does a stored instant;
* `Instant.zulu_misplacedLeapSecond`: a leap second elsewhere does not.
-/

namespace Sift.Instant

open Text

/-! ## Leap seconds -/

/-- Whether the instant, if it is a leap second, is at the end of a minute. -/
def Proper (i : Instant) : Prop := i.isLeap → i.second.val % 60 = 59

theorem proper_of_lt {i : Instant} (h : i.nanosecond.val < 1000000000) : i.Proper := by
  intro hleap
  rw [isLeap, decide_eq_true_eq] at hleap
  exact absurd h (Nat.not_lt.2 hleap)

theorem proper_of_of? {date : Date} {hour minute second nanosecond : Nat} {i : Instant}
    (h : of? date hour minute second nanosecond = some i) : i.Proper := by
  rw [of?, Option.dite_none_right_eq_some] at h
  obtain ⟨hparts, h⟩ := h
  split at h
  · intro _
    have hsecond : hour * 3600 + minute * 60 + 59 = i.second.val :=
      congrArg (fun i : Instant => i.second.val) (Option.some.inj h)
    omega
  · have hnanosecond : nanosecond = i.nanosecond.val :=
      congrArg (fun i : Instant => i.nanosecond.val) (Option.some.inj h)
    exact proper_of_lt (hnanosecond ▸ hparts.2.2.2)

/-- Zones are whole minutes, so they do not move a leap second within its
    minute. -/
theorem proper_earlierBy {i : Instant} (h : i.Proper) (minutes : Int) :
    (i.earlierBy minutes).Proper := by
  intro hleap
  have hsecond := h hleap
  have hlt := i.second.isLt
  change (((i.second.val : Int) - 60 * minutes) % 86400).toNat % 60 = 59
  omega

theorem proper_of_ofStamp? {s : List Char} {i : Instant} (h : ofStamp? s = some i) : i.Proper := by
  obtain ⟨⟨year, s₁⟩, -, h⟩ := Option.bind_eq_some_iff.1 h
  obtain ⟨s₂, -, h⟩ := Option.bind_eq_some_iff.1 h
  obtain ⟨⟨month, s₃⟩, -, h⟩ := Option.bind_eq_some_iff.1 h
  obtain ⟨s₄, -, h⟩ := Option.bind_eq_some_iff.1 h
  obtain ⟨⟨day, s₅⟩, -, h⟩ := Option.bind_eq_some_iff.1 h
  obtain ⟨s₆, -, h⟩ := Option.bind_eq_some_iff.1 h
  obtain ⟨⟨hour, s₇⟩, -, h⟩ := Option.bind_eq_some_iff.1 h
  obtain ⟨s₈, -, h⟩ := Option.bind_eq_some_iff.1 h
  obtain ⟨⟨minute, s₉⟩, -, h⟩ := Option.bind_eq_some_iff.1 h
  obtain ⟨s₁₀, -, h⟩ := Option.bind_eq_some_iff.1 h
  obtain ⟨⟨second, s₁₁⟩, -, h⟩ := Option.bind_eq_some_iff.1 h
  obtain ⟨⟨nanosecond, s₁₂⟩, -, h⟩ := Option.bind_eq_some_iff.1 h
  obtain ⟨minutes, -, h⟩ := Option.bind_eq_some_iff.1 h
  obtain ⟨date, -, h⟩ := Option.bind_eq_some_iff.1 h
  obtain ⟨j, hj, h⟩ := Option.bind_eq_some_iff.1 h
  cases h
  exact proper_earlierBy (proper_of_of? hj) minutes

theorem proper_of_ofLocal? {s : List Char} {i : Instant} (h : ofLocal? s = some i) :
    i.Proper := by
  obtain ⟨⟨year, s₁⟩, -, h⟩ := Option.bind_eq_some_iff.1 h
  obtain ⟨s₂, -, h⟩ := Option.bind_eq_some_iff.1 h
  obtain ⟨⟨month, s₃⟩, -, h⟩ := Option.bind_eq_some_iff.1 h
  obtain ⟨s₄, -, h⟩ := Option.bind_eq_some_iff.1 h
  obtain ⟨⟨day, s₅⟩, -, h⟩ := Option.bind_eq_some_iff.1 h
  obtain ⟨date, -, h⟩ := Option.bind_eq_some_iff.1 h
  dsimp only at h
  split at h
  · cases h
    exact proper_of_lt (show 0 < 1000000000 by decide)
  · obtain ⟨⟨hour, s₆⟩, -, h⟩ := Option.bind_eq_some_iff.1 h
    obtain ⟨s₇, -, h⟩ := Option.bind_eq_some_iff.1 h
    obtain ⟨⟨minute, s₈⟩, -, h⟩ := Option.bind_eq_some_iff.1 h
    obtain ⟨⟨second, nanosecond⟩, -, h⟩ := Option.bind_eq_some_iff.1 h
    exact proper_of_of? h
  · exact absurd h (by simp)

/-- The leap seconds that are read are at the end of a minute. -/
theorem proper_of_ofText? {s : List Char} {i : Instant} (h : ofText? s = some i) : i.Proper := by
  rw [ofText?] at h
  split at h
  · rename_i hstamp
    cases h
    exact proper_of_ofStamp? hstamp
  · exact proper_of_ofLocal? h

/-! ## Fractions of a second -/

section

variable {r : List Char}

theorem nanosecondsOf_padded {width n : Nat} (hwidth : 0 < width ∧ width ≤ 9)
    (h : n < 10 ^ width) : nanosecondsOf (padded width n) = n * 10 ^ (9 - width) := by
  have hlength := length_padded hwidth.1 h
  rw [nanosecondsOf, List.take_append, hlength, List.take_of_length_le (by omega),
    List.take_replicate, Nat.min_eq_left (by omega), valueOf_append_zeros, valueOf_padded]

theorem takeFraction_digits {ds : List Char} (hne : ds ≠ []) (hds : ∀ c ∈ ds, isDigit c)
    (hr : Ends isDigit r) : takeFraction ('.' :: (ds ++ r)) = some (nanosecondsOf ds, r) := by
  rw [takeFraction]
  rw [takeWhile_append_of_ends hds hr, dropWhile_append_of_ends hds hr, if_neg]
  rw [List.isEmpty_iff]
  exact hne

theorem takeFraction_of_ends (hr : Ends (fun c => isDigit c || c = '.') r) :
    takeFraction r = some (0, r) := by
  unfold takeFraction
  split
  · exact absurd (hr '.' rfl) (by decide)
  · rfl

theorem takeFraction_padded {width n : Nat} (hwidth : 0 < width ∧ width ≤ 9) (h : n < 10 ^ width)
    (hr : Ends isDigit r) :
    takeFraction ('.' :: (padded width n ++ r)) = some (n * 10 ^ (9 - width), r) := by
  rw [takeFraction_digits (padded_ne_nil width n) (fun _ => isDigit_of_mem_padded) hr,
    nanosecondsOf_padded hwidth h]

/-- A written fraction of a second reads back, in front of anything that does
    not carry it on. -/
theorem takeFraction_writtenFraction (i : Instant) (hr : Ends (fun c => isDigit c || c = '.') r) :
    takeFraction (i.writtenFraction ++ r) = some (i.nanosecond.val % 1000000000, r) := by
  have hends : Ends isDigit r := fun c hc => (Bool.or_eq_false_iff.1 (hr c hc)).1
  have hlt := Nat.mod_lt i.nanosecond.val (show 0 < 1000000000 by decide)
  rw [writtenFraction]
  generalize i.nanosecond.val % 1000000000 = n at hlt ⊢
  split
  · rename_i hzero
    rw [hzero, List.nil_append, takeFraction_of_ends hr]
  -- The digits that are left out are zeros.
  split
  · rw [List.cons_append, takeFraction_padded (by decide) (by omega) hends]
    congr 2
    omega
  split
  · rw [List.cons_append, takeFraction_padded (by decide) (by omega) hends]
    congr 2
    omega
  · rw [List.cons_append, takeFraction_padded (by decide) (by omega) hends]
    congr 2
    omega

end

/-! ## Whole instants -/

/-- Whether the year is written in four digits. -/
def FourDigitYear (i : Instant) : Prop := 0 ≤ i.date.year ∧ i.date.year ≤ 9999

instance (i : Instant) : Decidable i.FourDigitYear :=
  inferInstanceAs (Decidable (0 ≤ i.date.year ∧ i.date.year ≤ 9999))

theorem of_mem_writtenFraction {i : Instant} {c : Char} (h : c ∈ i.writtenFraction) :
    isDigit c ∨ c = '.' := by
  have hpoint {width n : Nat} (h : c ∈ '.' :: padded width n) : isDigit c ∨ c = '.' :=
    (List.mem_cons.1 h).symm.imp_left isDigit_of_mem_padded
  rw [writtenFraction] at h
  split at h
  · exact absurd h List.not_mem_nil
  split at h
  · exact hpoint h
  split at h
  · exact hpoint h
  · exact hpoint h

theorem isBlank_of_mem_written {i : Instant} {c : Char} (h : c ∈ i.written ++ i.writtenFraction) :
    isBlank c = false := by
  rcases List.mem_append.1 h with h | h
  · rcases of_mem_displayed (List.mem_append_left ['Z'] h) with h | rfl | rfl | rfl | rfl | rfl
    · exact isBlank_of_isDigit h
    all_goals rfl
  · rcases of_mem_writtenFraction h with h | rfl
    · exact isBlank_of_isDigit h
    · rfl

/-- An instant of a year of four digits reads back to the nanosecond, leap seconds
    included, whatever name of UTC is written behind it. -/
theorem ofText?_written {i : Instant} (h : i.Proper) (hyear : i.FourDigitYear) {zone : List Char}
    (hzone : readZone zone = some 0) (hends : Ends (fun c => isDigit c || c = '.') zone)
    (hblank : ∀ c ∈ zone, isBlank c = false) :
    ofText? (i.written ++ i.writtenFraction ++ zone) = some i := by
  have hstamp : ofStamp? (i.written ++ i.writtenFraction ++ zone) = some i := by
    rw [List.append_assoc, ofStamp?_written hyear (takeFraction_writtenFraction i hends) hzone,
      of?_parts h, Option.map_some, earlierBy_zero]
  have htrim := trimBlanks_eq_self (s := i.written ++ i.writtenFraction ++ zone) fun c hc =>
    (List.mem_append.1 hc).elim isBlank_of_mem_written (hblank c)
  rw [ofText?, htrim, hstamp]

/-- A stored instant reads back to the nanosecond, leap seconds included, if its
    year has four digits. -/
theorem ofText?_zulu {i : Instant} (h : i.Proper) (hyear : i.FourDigitYear) :
    ofText? i.zulu = some i :=
  ofText?_written h hyear rfl (ends_cons.2 (by decide)) (isBlank_of_all rfl)

/-- A quarter of a second into the leap second at the end of June 2015. -/
def inLeapSecond : Instant where
  date := ⟨2015, 6, 30, by decide, by decide⟩
  second := Fin.last 86399
  nanosecond := ⟨1250000000, by decide⟩

example : ofText? inLeapSecond.zulu = some inLeapSecond := ofText?_zulu (fun _ => rfl) (by decide)

/-- The proper instants of these years are those that texts name. -/
theorem proper_iff_exists_ofText? {i : Instant} (hyear : i.FourDigitYear) :
    i.Proper ↔ ∃ s, ofText? s = some i :=
  ⟨fun h => ⟨i.zulu, ofText?_zulu h hyear⟩, fun ⟨_, h⟩ => proper_of_ofText? h⟩

/-- A leap second where clocks have none, within a minute. -/
def misplacedLeapSecond : Instant where
  date := inLeapSecond.date
  second := ⟨36004, by decide⟩
  nanosecond := ⟨1333333333, by decide⟩

/-- The instant that is written in the same way. -/
def afterMisplaced : Instant where
  date := inLeapSecond.date
  second := ⟨36005, by decide⟩
  nanosecond := ⟨333333333, by decide⟩

theorem zulu_misplacedLeapSecond : misplacedLeapSecond.zulu = afterMisplaced.zulu := by decide

end Sift.Instant
