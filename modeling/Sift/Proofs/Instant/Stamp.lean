import Mathlib.Data.List.TakeWhile
import Sift.Instant.Printer
import Sift.Instant.Reader
import Sift.Proofs.Instant.Shape
import Sift.Proofs.Text.Digits

/-!
# Stamps that read back

A written instant is a stamp: with any fraction of a second and any zone behind
it, it reads as the parts that it was written from.

* `Instant.ofStamp?_writtenDate`, `Instant.ofStampOn?_writtenTime`: a stamp reads
  as its parts, if there is an instant with these;
* `Instant.ofStamp?_written`: what a written instant reads as;
* `Instant.of?_parts`: the parts make the instant up again, unless it is a leap
  second in the middle of a minute;
* `Instant.ofText?_displayed`: the form for queries reads back, for instants
  without a fraction of a second (`Instant.Displayable`), and
  `Instant.ofText?_displayed_iff`: for no others.
-/

namespace Sift

open Text

/-! ## Dates -/

/-- The parts of a date as they are written, whether or not there is a day with
    these. -/
def writtenDate (year month day : Nat) : List Char :=
  padded 4 year ++ '-' :: padded 2 month ++ '-' :: padded 2 day

theorem writtenDate_append (year month day : Nat) (r : List Char) :
    writtenDate year month day ++ r =
      padded 4 year ++ '-' :: (padded 2 month ++ '-' :: (padded 2 day ++ r)) := by
  simp only [writtenDate, List.append_assoc, List.cons_append]

namespace Date

variable (d : Date)

theorem month_lt : d.month < 100 := by
  have hmonth := d.month_mem
  omega

theorem day_lt : d.day < 100 := by
  have hday := d.day_mem
  have hdays : daysIn d.year d.month ≤ 31 := by
    unfold daysIn
    split
    · split <;> decide
    · split <;> decide
  omega

theorem written_eq (hyear : 0 ≤ d.year ∧ d.year ≤ 9999) :
    d.written = writtenDate d.year.natAbs d.month d.day := by
  rw [written, writtenYear, if_pos hyear, writtenDate]

/-- A date of a year of four digits is made up again of its parts. -/
theorem of?_parts (hyear : 0 ≤ d.year ∧ d.year ≤ 9999) :
    of? d.year.natAbs d.month d.day = some d := by
  have hrange : inRange d.year := by
    rw [inRange, Bool.and_eq_true, decide_eq_true_eq, decide_eq_true_eq]
    omega
  rw [Int.natAbs_of_nonneg hyear.1, of?, hrange, Bool.not_true, if_neg Bool.false_ne_true,
    dif_pos d.month_mem, dif_pos d.day_mem]

end Date

namespace Instant

/-! ## Parts of a stamp -/

theorem takeNumber_padded {least width n : Nat} (hw : 0 < width) (hleast : least ≤ width)
    (h : n < 10 ^ width) (r : List Char) :
    takeNumber least width (padded width n ++ r) = some (n, r) := by
  have hlength := length_padded hw h
  have hdigits : (padded width n).takeWhile isDigit = padded width n :=
    List.takeWhile_eq_self_iff.2 fun _ => isDigit_of_mem_padded
  rw [takeNumber, List.take_left' hlength, hdigits, hlength, if_neg (Nat.not_lt.2 hleast),
    valueOf_padded, List.drop_left' hlength]

theorem takeNumber_two {n : Nat} (h : n < 100) (r : List Char) :
    takeNumber 2 2 (padded 2 n ++ r) = some (n, r) :=
  takeNumber_padded (by decide) (Nat.le_refl _) h r

theorem takeChar_cons (c : Char) (r : List Char) : takeChar c (c :: r) = some r := if_pos rfl

/-- The parts of a time as they are written. -/
def writtenTime (hour minute second : Nat) : List Char :=
  padded 2 hour ++ ':' :: padded 2 minute ++ ':' :: padded 2 second

theorem writtenTime_append (hour minute second : Nat) (r : List Char) :
    writtenTime hour minute second ++ r =
      padded 2 hour ++ ':' :: (padded 2 minute ++ ':' :: (padded 2 second ++ r)) := by
  simp only [writtenTime, List.append_assoc, List.cons_append]

/-- What a stamp reads as from behind a date. -/
def ofStampOn? (date? : Option Date) (s : List Char) : Option Instant := do
  let s ← takeJoin s
  let (hour, s) ← takeNumber 2 2 s
  let s ← takeChar ':' s
  let (minute, s) ← takeNumber 2 2 s
  let s ← takeChar ':' s
  let (second, s) ← takeNumber 2 2 s
  let (nanosecond, s) ← takeFraction s
  let minutes ← readZone s
  let date ← date?
  let i ← of? date hour minute second nanosecond
  return i.earlierBy minutes

section

variable {year month day hour minute second : Nat}

theorem ofStamp?_writtenDate (hyear : year < 10000) (hmonth : month < 100) (hday : day < 100)
    (r : List Char) :
    ofStamp? (writtenDate year month day ++ r) = ofStampOn? (Date.of? year month day) r := by
  -- The parts come off one after the other, each with what parts it from the next.
  rw [ofStamp?, writtenDate_append, takeNumber_padded (by decide) (Nat.le_refl _) hyear]
  dsimp only [Option.bind_eq_bind, Option.bind_some]
  rw [takeChar_cons, Option.bind_some, takeNumber_two hmonth, Option.bind_some, takeChar_cons,
    Option.bind_some, takeNumber_two hday, Option.bind_some]
  rfl

theorem ofStampOn?_writtenTime {date? : Option Date} {r s : List Char} {nanosecond : Nat}
    (hhour : hour < 100) (hminute : minute < 100) (hsecond : second < 100)
    (hr : takeFraction r = some (nanosecond, s)) :
    ofStampOn? date? ('T' :: (writtenTime hour minute second ++ r)) =
      (readZone s).bind fun minutes => date?.bind fun date =>
        (of? date hour minute second nanosecond).map (earlierBy minutes) := by
  rw [ofStampOn?, writtenTime_append, takeJoin, if_pos (.inl rfl)]
  dsimp only [Option.bind_eq_bind, Option.bind_some]
  rw [takeNumber_two hhour, Option.bind_some, takeChar_cons, Option.bind_some,
    takeNumber_two hminute, Option.bind_some, takeChar_cons, Option.bind_some,
    takeNumber_two hsecond, Option.bind_some, hr, Option.bind_some]
  simp only [Option.map_eq_bind]
  rfl

end

theorem earlierBy_zero (i : Instant) : i.earlierBy 0 = i := by
  obtain ⟨date, second, nanosecond⟩ := i
  have hlt := second.isLt
  have hdate : ¬(second.val : Int) - 60 * 0 < 0 ∧ ¬86400 ≤ (second.val : Int) - 60 * 0 := by omega
  rw [earlierBy]
  simp only [if_neg hdate.1, if_neg hdate.2]
  congr 1
  refine Fin.ext ?_
  dsimp only
  omega

theorem ofStamp?_date {d : Date} (hyear : 0 ≤ d.year ∧ d.year ≤ 9999) (r : List Char) :
    ofStamp? (d.written ++ r) = ofStampOn? (some d) r := by
  rw [d.written_eq hyear, ofStamp?_writtenDate (by omega) d.month_lt d.day_lt,
    d.of?_parts hyear]

/-- The second of a minute, counting leap seconds. -/
def secondOfMinute (i : Instant) : Nat := i.second.val % 60 + if i.isLeap then 1 else 0

/-- A written instant with a fraction of a second and a zone behind it reads as
    its parts, moved by the zone. -/
theorem ofStamp?_written {i : Instant} (hyear : 0 ≤ i.date.year ∧ i.date.year ≤ 9999)
    {r s : List Char} {nanosecond : Nat} {minutes : Int}
    (hr : takeFraction r = some (nanosecond, s)) (hs : readZone s = some minutes) :
    ofStamp? (i.written ++ r) =
      (of? i.date (i.second.val / 3600) (i.second.val / 60 % 60) i.secondOfMinute nanosecond).map
        (earlierBy minutes) := by
  have hsecond := i.second.isLt
  have hleap : i.secondOfMinute ≤ 60 := by
    rw [secondOfMinute]
    split <;> omega
  have hwritten : i.written ++ r = i.date.written ++ 'T' ::
      (writtenTime (i.second.val / 3600) (i.second.val / 60 % 60) i.secondOfMinute ++ r) := by
    simp only [written, writtenTime, secondOfMinute, List.append_assoc, List.cons_append]
  rw [hwritten, ofStamp?_date hyear,
    ofStampOn?_writtenTime (by omega) (by omega) (by omega) hr, hs, Option.bind_some,
    Option.bind_some]

/-- An instant whose leap second, if it is one, ends a minute is made up again
    of its parts. -/
theorem of?_parts {i : Instant} (h : i.isLeap → i.second.val % 60 = 59) :
    of? i.date (i.second.val / 3600) (i.second.val / 60 % 60) i.secondOfMinute
      (i.nanosecond.val % 1000000000) = some i := by
  have hsecond := i.second.isLt
  have hnanosecond := i.nanosecond.isLt
  by_cases hleap : i.isLeap
  · -- Second 60 is second 59 with a billion nanoseconds more.
    have hlarge : 1000000000 ≤ i.nanosecond.val := of_decide_eq_true hleap
    have hend := h hleap
    rw [secondOfMinute, if_pos hleap, hend, of?, dif_pos (by omega), dif_pos rfl]
    refine congrArg some ?_
    obtain ⟨date, second, nanosecond⟩ := i
    congr 1
    · exact Fin.ext (by dsimp only at hend ⊢; omega)
    · exact Fin.ext (by dsimp only at hlarge hnanosecond ⊢; omega)
  · have hsmall : ¬1000000000 ≤ i.nanosecond.val := fun h => hleap (decide_eq_true h)
    rw [secondOfMinute, if_neg hleap, Nat.add_zero, of?, dif_pos (by omega), dif_neg (by omega)]
    refine congrArg some ?_
    obtain ⟨date, second, nanosecond⟩ := i
    congr 1
    · exact Fin.ext (by dsimp only; omega)
    · exact Fin.ext (by dsimp only at hsmall ⊢; omega)

/-! ## Instants in queries -/

/-- The instants that are written in full in a query: of a year of four digits,
    without a fraction of a second, and, if it is a leap second, at the end of a
    minute. -/
structure Displayable (i : Instant) : Prop where
  year : 0 ≤ i.date.year ∧ i.date.year ≤ 9999
  whole : i.nanosecond.val % 1000000000 = 0
  leap : i.isLeap → i.second.val % 60 = 59

theorem of_mem_writtenYear {year : Int} {c : Char} (h : c ∈ writtenYear year) :
    isDigit c ∨ c = '-' ∨ c = '+' := by
  rw [writtenYear] at h
  split at h
  · exact .inl (isDigit_of_mem_padded h)
  · rcases List.mem_cons.1 h with rfl | h
    · split
      · exact .inr (.inl rfl)
      · exact .inr (.inr rfl)
    · exact .inl (isDigit_of_mem_padded h)

/-- The characters of a displayed instant. -/
theorem of_mem_displayed {i : Instant} {c : Char} (hc : c ∈ i.displayed) :
    isDigit c ∨ c = '-' ∨ c = '+' ∨ c = 'T' ∨ c = ':' ∨ c = 'Z' := by
  rw [displayed, written, Date.written] at hc
  simp only [List.mem_append, List.mem_cons, List.not_mem_nil, or_false, or_assoc] at hc
  rcases hc with hc | rfl | hc | rfl | hc | rfl | hc | rfl | hc | rfl | hc | rfl
  · exact (of_mem_writtenYear hc).imp_right (Or.imp_right .inl)
  all_goals first
    | exact .inl (isDigit_of_mem_padded hc)
    | simp

/-- A displayed instant starts with its year. -/
theorem exists_displayed_eq (i : Instant) :
    ∃ c s, i.displayed = c :: s ∧ (isDigit c ∨ c = '-' ∨ c = '+') := by
  have hne : writtenYear i.date.year ≠ [] := by
    rw [writtenYear]
    split
    · exact padded_ne_nil 4 _
    · exact List.cons_ne_nil _ _
  obtain ⟨c, s, hyear⟩ := List.exists_cons_of_ne_nil hne
  have hc : isDigit c ∨ c = '-' ∨ c = '+' := of_mem_writtenYear (hyear ▸ List.mem_cons_self)
  rw [displayed, written, Date.written, hyear]
  exact ⟨c, _, rfl, hc⟩

theorem trimBlanks_displayed (i : Instant) : trimBlanks i.displayed = i.displayed := by
  refine trimBlanks_eq_self fun c hc => ?_
  rcases of_mem_displayed hc with hc | rfl | rfl | rfl | rfl | rfl
  · exact isBlank_of_isDigit hc
  all_goals rfl

/-- An instant of a year of four digits without a fraction of a second reads
    back. -/
theorem ofText?_displayed {i : Instant} (h : i.Displayable) : ofText? i.displayed = some i := by
  have hstamp : ofStamp? i.displayed = some i := by
    have hparts := of?_parts h.leap
    rw [h.whole] at hparts
    rw [displayed, ofStamp?_written h.year rfl rfl, hparts, Option.map_some, earlierBy_zero]
  rw [ofText?, trimBlanks_displayed, hstamp]

/-- What reads back as a stamp was written in full. -/
theorem displayable_of_ofStamp? {i : Instant} (hyear : 0 ≤ i.date.year ∧ i.date.year ≤ 9999)
    (h : ofStamp? i.displayed = some i) : i.Displayable := by
  rw [displayed, ofStamp?_written hyear rfl rfl, Option.map_eq_some_iff] at h
  obtain ⟨j, hj, he⟩ := h
  rw [earlierBy_zero] at he
  rw [he, of?, Option.dite_none_right_eq_some] at hj
  obtain ⟨_, hj⟩ := hj
  split at hj
  · rename_i hsixty
    have hnanosecond : 1000000000 + 0 = i.nanosecond.val :=
      congrArg (fun i : Instant => i.nanosecond.val) (Option.some.inj hj)
    refine ⟨hyear, by omega, fun hleap => ?_⟩
    rw [secondOfMinute, if_pos hleap] at hsixty
    omega
  · have hnanosecond : 0 = i.nanosecond.val :=
      congrArg (fun i : Instant => i.nanosecond.val) (Option.some.inj hj)
    refine ⟨hyear, by omega, fun hleap => ?_⟩
    rw [isLeap, decide_eq_true_eq] at hleap
    omega

/-- Years beyond four digits have a sign, and no stamp does. -/
theorem ofStamp?_displayed_eq_none {i : Instant}
    (hyear : ¬(0 ≤ i.date.year ∧ i.date.year ≤ 9999)) : ofStamp? i.displayed = none := by
  rw [displayed, written, Date.written, writtenYear, if_neg hyear]
  split <;> rfl

/-- The instants that read back from their form in queries are the ones that are
    written in full. -/
theorem ofText?_displayed_iff {i : Instant} :
    ofText? i.displayed = some i ↔ i.Displayable := by
  refine ⟨fun h => ?_, ofText?_displayed⟩
  rw [ofText?, trimBlanks_displayed] at h
  split at h
  · rename_i j hstamp
    by_cases hyear : 0 ≤ i.date.year ∧ i.date.year ≤ 9999
    · exact displayable_of_ofStamp? hyear (hstamp.trans h)
    · rw [ofStamp?_displayed_eq_none hyear] at hstamp
      exact absurd hstamp (by simp)
  · have hzone : 'Z' ∈ i.displayed := List.mem_append_right _ (List.mem_singleton_self _)
    exact absurd hzone (zone_notMem_of_ofLocal? h)

end Instant

end Sift
