/-!
# Calendar dates

Days of the Gregorian calendar, carried on without end in both directions; the
year before year 1 is year 0.

* `Date`: a year, a month and a day of that month;
* `Date.next`, `Date.previous`: the neighbouring days;
* `Date.dayNumber`: the number of days since the first day of year 0.
-/

namespace Sift

/-- The years divisible by 4, of the full centuries only those by 400. -/
def isLeapYear (year : Int) : Bool :=
  year % 4 == 0 && (year % 100 != 0 || year % 400 == 0)

/-- The number of days of a month. -/
def daysIn (year : Int) (month : Nat) : Nat :=
  if month = 2 then if isLeapYear year then 29 else 28
  else if month = 4 ∨ month = 6 ∨ month = 9 ∨ month = 11 then 30
  else 31

theorem le_daysIn (year : Int) (month : Nat) : 28 ≤ daysIn year month := by
  unfold daysIn
  split
  · split <;> omega
  · split <;> omega

/-- A day of the calendar. -/
structure Date where
  year : Int
  month : Nat
  day : Nat
  month_mem : 1 ≤ month ∧ month ≤ 12
  day_mem : 1 ≤ day ∧ day ≤ daysIn year month
deriving DecidableEq

namespace Date

/-- The years that dates are read in. -/
def inRange (year : Int) : Bool := -262143 ≤ year && year ≤ 262142

/-- The date with these parts, if its month and day exist and its year is in
    range. -/
def of? (year : Int) (month day : Nat) : Option Date :=
  if !inRange year then none
  else if hm : 1 ≤ month ∧ month ≤ 12 then
    if hd : 1 ≤ day ∧ day ≤ daysIn year month then some ⟨year, month, day, hm, hd⟩ else none
  else none

/-- The day after. -/
def next (d : Date) : Date :=
  if h : d.day < daysIn d.year d.month then
    ⟨d.year, d.month, d.day + 1, d.month_mem, by omega, by omega⟩
  else if hm : d.month < 12 then
    ⟨d.year, d.month + 1, 1, by omega, by omega,
      Nat.le_trans (by decide) (le_daysIn d.year (d.month + 1))⟩
  else
    ⟨d.year + 1, 1, 1, by omega, by omega, Nat.le_trans (by decide) (le_daysIn (d.year + 1) 1)⟩

/-- The day before. -/
def previous (d : Date) : Date :=
  if h : 1 < d.day then
    ⟨d.year, d.month, d.day - 1, d.month_mem, by omega, by have := d.day_mem; omega⟩
  else if hm : 1 < d.month then
    ⟨d.year, d.month - 1, daysIn d.year (d.month - 1), by have := d.month_mem; omega,
      Nat.le_trans (by decide) (le_daysIn d.year (d.month - 1)), Nat.le_refl _⟩
  else
    ⟨d.year - 1, 12, daysIn (d.year - 1) 12, by omega,
      Nat.le_trans (by decide) (le_daysIn (d.year - 1) 12), Nat.le_refl _⟩

/-- The number of days from the first day of year 0 to the first day of a
    year. -/
def daysBefore (year : Int) : Int :=
  365 * year + (year + 3) / 4 - (year + 99) / 100 + (year + 399) / 400

/-- The number of days from the first day of a year to the first day of a
    month. -/
def daysBeforeMonth (year : Int) : Nat → Nat
  | 0 | 1 => 0
  | month + 2 => daysBeforeMonth year (month + 1) + daysIn year (month + 1)

/-- The number of days since the first day of year 0. -/
def dayNumber (d : Date) : Int :=
  daysBefore d.year + daysBeforeMonth d.year d.month + d.day - 1

/-- Dates by year, month and day. -/
def compare (a b : Date) : Ordering :=
  (Ord.compare a.year b.year).then ((Ord.compare a.month b.month).then (Ord.compare a.day b.day))

end Date

end Sift
