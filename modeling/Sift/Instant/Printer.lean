import Sift.Instant.Basic
import Sift.Text.Digits

/-!
# Writing instants

Three written forms of an instant. All have the year in four digits, or signed
where four digits do not do, and a leap second as second 60.

* `Instant.zulu`: with the fraction of a second, for storing:
  `2024-01-15T10:00:00.500Z`;
* `Instant.labelled`: the same with an offset, for listing:
  `2024-01-15T10:00:00.500+00:00`;
* `Instant.displayed`: without the fraction, for queries:
  `2024-01-15T10:00:00Z`.
-/

namespace Sift

open Text

/-- A year in four digits, with a sign beyond them. -/
def writtenYear (year : Int) : List Char :=
  if 0 ≤ year ∧ year ≤ 9999 then padded 4 year.natAbs
  else (if year < 0 then '-' else '+') :: padded 4 year.natAbs

/-- A date as `2024-01-15`. -/
def Date.written (d : Date) : List Char :=
  writtenYear d.year ++ '-' :: padded 2 d.month ++ '-' :: padded 2 d.day

namespace Instant

/-- The day and the time to the second. -/
def written (i : Instant) : List Char :=
  let second := i.second.val % 60 + if i.isLeap then 1 else 0
  i.date.written ++ 'T' :: padded 2 (i.second.val / 3600) ++
    ':' :: padded 2 (i.second.val / 60 % 60) ++ ':' :: padded 2 second

/-- The fraction of a second, in groups of three digits. -/
def writtenFraction (i : Instant) : List Char :=
  let n := i.nanosecond.val % 1000000000
  if n = 0 then []
  else if n % 1000000 = 0 then '.' :: padded 3 (n / 1000000)
  else if n % 1000 = 0 then '.' :: padded 6 (n / 1000)
  else '.' :: padded 9 n

/-- The form in which instants are stored. -/
def zulu (i : Instant) : List Char := i.written ++ i.writtenFraction ++ ['Z']

/-- The form in which instants are listed. -/
def labelled (i : Instant) : List Char := i.written ++ i.writtenFraction ++ "+00:00".toList

/-- The form in which instants stand in queries. -/
def displayed (i : Instant) : List Char := i.written ++ ['Z']

end Instant

end Sift
