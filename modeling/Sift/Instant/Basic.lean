import Sift.Instant.Date

/-!
# Instants

Points in time in UTC, to the nanosecond. A leap second has no second of its
own: it is the second before it, with the nanoseconds counted on past the
first billion.

* `Instant`: a day, a second of the day, and nanoseconds;
* `Instant.earlierBy`: an instant some minutes before another one;
* `Instant.milliseconds`: the milliseconds since 1970, rounded down.
-/

namespace Sift

/-- A point in time. -/
structure Instant where
  date : Date
  second : Fin 86400
  nanosecond : Fin 2000000000
deriving DecidableEq

namespace Instant

/-- The first second of a day. -/
def midnight (date : Date) : Instant := ⟨date, 0, 0⟩

/-- The time `hour:minute:second` of a day, if there is one; second 60 is the
    leap second after second 59. -/
def of? (date : Date) (hour minute second nanosecond : Nat) : Option Instant :=
  if h : hour < 24 ∧ minute < 60 ∧ second ≤ 60 ∧ nanosecond < 1000000000 then
    if hs : second = 60 then
      some ⟨date, ⟨hour * 3600 + minute * 60 + 59, by omega⟩,
        ⟨1000000000 + nanosecond, by omega⟩⟩
    else
      some ⟨date, ⟨hour * 3600 + minute * 60 + second, by omega⟩, ⟨nanosecond, by omega⟩⟩
  else none

/-- Whether this is a leap second. -/
def isLeap (i : Instant) : Bool := 1000000000 ≤ i.nanosecond.val

/-- The instant some minutes earlier, or later if they are negative, for less
    than a day of minutes. -/
def earlierBy (minutes : Int) (i : Instant) : Instant :=
  let t : Int := i.second.val - 60 * minutes
  let date := if t < 0 then i.date.previous else if 86400 ≤ t then i.date.next else i.date
  ⟨date, ⟨(t % 86400).toNat, by omega⟩, i.nanosecond⟩

/-- The milliseconds since the first day of 1970, rounded down. A leap second
    counts on into the second after it. -/
def milliseconds (i : Instant) : Int :=
  ((i.date.dayNumber - 719528) * 86400 + i.second.val) * 1000 + i.nanosecond.val / 1000000

/-- Instants by day, second and nanosecond. -/
def compare (a b : Instant) : Ordering :=
  (a.date.compare b.date).then
    ((Ord.compare a.second.val b.second.val).then
      (Ord.compare a.nanosecond.val b.nanosecond.val))

end Instant

end Sift
