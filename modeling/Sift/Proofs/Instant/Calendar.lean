import Sift.Instant.Basic

/-!
# Days and seconds that are counted

The days of the calendar are numbered without gaps: the day after has the next
number, the day before the one before, and no two days have the same. The seconds
of all days are therefore numbered too, and to move an instant by minutes is to
move its number, from one day, month or year into another.

* `Date.dayNumber_next`, `Date.dayNumber_previous`, `Date.dayNumber_injective`:
  the numbers of days;
* `Instant.seconds`: the number of the second of an instant;
* `Instant.After`, `Instant.After.unique`: one instant some seconds after another
  one, and that there is only one;
* `Instant.after_earlierBy`: the instant some minutes earlier is that many minutes
  earlier.
-/

namespace Sift

namespace Date

/-! ## Months -/

theorem daysBeforeMonth_one (year : Int) : daysBeforeMonth year 1 = 0 := rfl

theorem daysBeforeMonth_succ (year : Int) {month : Nat} (h : 1 ≤ month) :
    daysBeforeMonth year (month + 1) = daysBeforeMonth year month + daysIn year month := by
  obtain ⟨m, rfl⟩ := Nat.exists_eq_add_of_le' h
  rfl

/-- A month ends before a later one begins. -/
theorem daysBeforeMonth_add_daysIn_le (year : Int) {month month' : Nat} (h : 1 ≤ month)
    (hlt : month < month') :
    daysBeforeMonth year month + daysIn year month ≤ daysBeforeMonth year month' := by
  induction month' with
  | zero => exact absurd hlt (Nat.not_lt_zero _)
  | succ n ih =>
    rcases Nat.lt_succ_iff_lt_or_eq.1 hlt with hn | rfl
    · rw [daysBeforeMonth_succ year (by omega)]
      exact Nat.le_add_right_of_le (ih hn)
    · exact Nat.le_of_eq (daysBeforeMonth_succ year h).symm

/-- The days of a year, counted month by month. -/
theorem daysBeforeMonth_thirteen (year : Int) :
    daysBeforeMonth year 13 = 365 + if isLeapYear year then 1 else 0 := by
  cases hleap : isLeapYear year <;> simp [daysBeforeMonth, daysIn, hleap]

/-! ## Years -/

theorem isLeapYear_iff (year : Int) :
    isLeapYear year ↔ year % 4 = 0 ∧ (year % 100 ≠ 0 ∨ year % 400 = 0) := by
  simp [isLeapYear]

/-- The days of a year, counted from its beginning to the beginning of the next. -/
theorem daysBefore_succ (year : Int) :
    daysBefore (year + 1) = daysBefore year + daysBeforeMonth year 13 := by
  rw [daysBeforeMonth_thirteen, daysBefore, daysBefore]
  split
  · rename_i hleap
    rw [isLeapYear_iff] at hleap
    omega
  · rename_i hleap
    rw [isLeapYear_iff] at hleap
    omega

/-- The last month of a year ends where the next year begins. -/
theorem daysBefore_add_december (year : Int) :
    daysBefore year + (daysBeforeMonth year 12 + daysIn year 12) = daysBefore (year + 1) := by
  have hsucc : daysBeforeMonth year 13 = daysBeforeMonth year 12 + daysIn year 12 := rfl
  rw [daysBefore_succ, hsucc, Int.natCast_add]

theorem daysBefore_mono {year year' : Int} (h : year ≤ year') :
    daysBefore year ≤ daysBefore year' := by
  rw [daysBefore, daysBefore]
  omega

/-! ## Days -/

section

variable (d : Date)

/-- A day is in its year. -/
theorem dayNumber_mem :
    daysBefore d.year ≤ d.dayNumber ∧ d.dayNumber < daysBefore (d.year + 1) := by
  have hmonth := d.month_mem
  have hday := d.day_mem
  have hend : daysBeforeMonth d.year d.month + daysIn d.year d.month ≤ daysBeforeMonth d.year 13 :=
    daysBeforeMonth_add_daysIn_le d.year hmonth.1 (by omega)
  rw [daysBefore_succ, dayNumber]
  omega

theorem dayNumber_next : d.next.dayNumber = d.dayNumber + 1 := by
  have hmonth := d.month_mem
  have hday := d.day_mem
  rw [next]
  split
  · simp only [dayNumber]
    omega
  split
  · -- The first day of the month after.
    have hsucc := daysBeforeMonth_succ d.year hmonth.1
    simp only [dayNumber]
    omega
  · -- The first day of the year after.
    have hlast : d.month = 12 := by omega
    have hend : d.day = daysIn d.year 12 := by
      rw [← hlast]
      omega
    have hyear := daysBefore_add_december d.year
    simp only [dayNumber, hlast, hend, daysBeforeMonth_one]
    omega

theorem dayNumber_previous : d.previous.dayNumber = d.dayNumber - 1 := by
  have hmonth := d.month_mem
  have hday := d.day_mem
  rw [previous]
  split
  · simp only [dayNumber]
    omega
  split
  · -- The last day of the month before.
    have hsucc := daysBeforeMonth_succ d.year (show 1 ≤ d.month - 1 by omega)
    rw [Nat.sub_add_cancel hmonth.1] at hsucc
    simp only [dayNumber]
    omega
  · -- The last day of the year before.
    have hfirst : d.month = 1 := by omega
    have hyear := daysBefore_add_december (d.year - 1)
    rw [Int.sub_add_cancel] at hyear
    simp only [dayNumber, hfirst, daysBeforeMonth_one]
    omega

end

/-- Each day has a number of its own. -/
theorem dayNumber_injective {d e : Date} (h : d.dayNumber = e.dayNumber) : d = e := by
  have hyear : d.year = e.year := by
    have hd := d.dayNumber_mem
    have he := e.dayNumber_mem
    rcases Int.lt_trichotomy d.year e.year with hlt | heq | hlt
    · have hle : daysBefore (d.year + 1) ≤ daysBefore e.year := daysBefore_mono hlt
      omega
    · exact heq
    · have hle : daysBefore (e.year + 1) ≤ daysBefore d.year := daysBefore_mono hlt
      omega
  obtain ⟨year, month, day, hmonth, hday⟩ := d
  obtain ⟨year', month', day', hmonth', hday'⟩ := e
  obtain rfl : year = year' := hyear
  rw [dayNumber, dayNumber] at h
  dsimp only at h hday hday'
  obtain rfl : month = month' := by
    rcases Nat.lt_trichotomy month month' with hlt | heq | hlt
    · have hle := daysBeforeMonth_add_daysIn_le year hmonth.1 hlt
      omega
    · exact heq
    · have hle := daysBeforeMonth_add_daysIn_le year hmonth'.1 hlt
      omega
  obtain rfl : day = day' := by omega
  rfl

end Date

namespace Instant

/-- The number of seconds since the beginning of year 0, of which a leap second is
    none. -/
def seconds (i : Instant) : Int := i.date.dayNumber * 86400 + i.second.val

/-- An instant so many seconds after another one, at the same nanosecond, and in a
    leap second just if the other one is. -/
structure After (seconds : Int) (i j : Instant) : Prop where
  seconds_eq : j.seconds = i.seconds + seconds
  nanosecond_eq : j.nanosecond = i.nanosecond
  isLeap_eq : j.isLeap = i.isLeap

theorem eq_of_seconds_eq {i j : Instant} (h : i.seconds = j.seconds)
    (hnanosecond : i.nanosecond = j.nanosecond) : i = j := by
  obtain ⟨date, second, nanosecond⟩ := i
  obtain ⟨date', second', nanosecond'⟩ := j
  rw [seconds, seconds] at h
  have hlt := second.isLt
  have hlt' := second'.isLt
  dsimp only at h hnanosecond
  obtain rfl : date = date' := Date.dayNumber_injective (by omega)
  obtain rfl : second = second' := Fin.ext (by omega)
  rw [hnanosecond]

/-- There is one instant so many seconds after another one. -/
theorem After.unique {seconds : Int} {i j k : Instant} (hj : After seconds i j)
    (hk : After seconds i k) : j = k :=
  eq_of_seconds_eq (hj.seconds_eq.trans hk.seconds_eq.symm)
    (hj.nanosecond_eq.trans hk.nanosecond_eq.symm)

/-- For less than a day of minutes, the instant that many minutes earlier is the
    one that many minutes before, whichever day that is. -/
theorem after_earlierBy {minutes : Int} (i : Instant) (h : -1440 < minutes ∧ minutes < 1440) :
    After (-(60 * minutes)) i (i.earlierBy minutes) := by
  refine ⟨?_, rfl, rfl⟩
  have hlt := i.second.isLt
  rw [earlierBy, seconds, seconds]
  dsimp only
  split
  · rw [Date.dayNumber_previous]
    omega
  split
  · rw [Date.dayNumber_next]
    omega
  · omega

end Instant

end Sift
