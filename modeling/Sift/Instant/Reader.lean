import Sift.Instant.Basic
import Sift.Text.Blank
import Sift.Text.Digits

/-!
# Reading instants

The texts that name an instant: a *stamp* with a fixed number of digits and a
time zone, a date and a time without a zone, taken as UTC, or a bare date,
taken as its midnight. Only stamps have a zone, and only the others allow short
numbers, blanks before a number, and years beyond four digits.

* `Instant.ofStamp?`: `2024-01-15T12:00:00.5+02:00`;
* `Instant.ofLocal?`: `2024-01-15T12:00:00.5`, `2024-01-15T12:00`,
  `2024-01-15`;
* `Instant.ofText?`: either, with blanks around it.
-/

namespace Sift.Instant

open Text

/-- What follows the character `c`. -/
def takeChar (c : Char) : List Char → Option (List Char)
  | [] => none
  | x :: r => if x = c then some r else none

/-- A number of at least `least` and at most `most` digits. -/
def takeNumber (least most : Nat) (s : List Char) : Option (Nat × List Char) :=
  let digits := (s.take most).takeWhile isDigit
  if digits.length < least then none else some (valueOf digits, s.drop digits.length)

/-- The nanoseconds of the digits after a point: the first nine count. -/
def nanosecondsOf (digits : List Char) : Nat :=
  valueOf ((digits ++ List.replicate 9 '0').take 9)

/-- A fraction of a second: a point and at least one digit, or nothing. -/
def takeFraction : List Char → Option (Nat × List Char)
  | '.' :: r =>
    let digits := r.takeWhile isDigit
    if digits.isEmpty then none else some (nanosecondsOf digits, r.dropWhile isDigit)
  | s => some (0, s)

/-- A time zone to the end of the text, in minutes east of UTC. -/
def readZone : List Char → Option Int
  | [] => none
  | c :: r =>
    if c = 'Z' ∨ c = 'z' then if r.isEmpty then some 0 else none
    else do
      let east ← if c = '+' then some true else if c = '-' ∨ c = '\u2212' then some false else none
      let (hours, r) ← takeNumber 2 2 r
      let r ← takeChar ':' r
      let (minutes, r) ← takeNumber 2 2 r
      if hours < 24 ∧ minutes < 60 ∧ r.isEmpty then
        let total : Int := hours * 60 + minutes
        some (if east then total else -total)
      else none

/-- The day and the time of a stamp are joined by `T`, in either letter case,
    or by a space. -/
def takeJoin : List Char → Option (List Char)
  | [] => none
  | c :: r => if c = 'T' ∨ c = 't' ∨ c = ' ' then some r else none

/-- Reads a stamp. -/
def ofStamp? (s : List Char) : Option Instant := do
  let (year, s) ← takeNumber 4 4 s
  let s ← takeChar '-' s
  let (month, s) ← takeNumber 2 2 s
  let s ← takeChar '-' s
  let (day, s) ← takeNumber 2 2 s
  let s ← takeJoin s
  let (hour, s) ← takeNumber 2 2 s
  let s ← takeChar ':' s
  let (minute, s) ← takeNumber 2 2 s
  let s ← takeChar ':' s
  let (second, s) ← takeNumber 2 2 s
  let (nanosecond, s) ← takeFraction s
  let minutes ← readZone s
  let date ← Date.of? year month day
  let i ← Instant.of? date hour minute second nanosecond
  return i.earlierBy minutes

/-- A year: up to four digits, or any number of digits after a sign. -/
def takeYear (s : List Char) : Option (Int × List Char) :=
  match skipBlanks s with
  | '+' :: r => (takeNumber 1 r.length r).map fun (n, r) => ((n : Int), r)
  | '-' :: r => (takeNumber 1 r.length r).map fun (n, r) => (-(n : Int), r)
  | s => (takeNumber 1 4 s).map fun (n, r) => ((n : Int), r)

/-- A number of one or two digits, with blanks before it. -/
def takeShort (s : List Char) : Option (Nat × List Char) := takeNumber 1 2 (skipBlanks s)

/-- The seconds of a time, with a fraction, to the end of the text; without
    any, the minute begins. -/
def readSeconds : List Char → Option (Nat × Nat)
  | [] => some (0, 0)
  | ':' :: s => do
    let (second, s) ← takeShort s
    let (nanosecond, s) ← takeFraction s
    if s.isEmpty then some (second, nanosecond) else none
  | _ => none

/-- Reads a date, with or without a time, as UTC. -/
def ofLocal? (s : List Char) : Option Instant := do
  let (year, s) ← takeYear s
  let s ← takeChar '-' s
  let (month, s) ← takeShort s
  let s ← takeChar '-' s
  let (day, s) ← takeShort s
  let date ← Date.of? year month day
  match s with
  | [] => return midnight date
  | 'T' :: s =>
    let (hour, s) ← takeShort s
    let s ← takeChar ':' s
    let (minute, s) ← takeShort s
    let (second, nanosecond) ← readSeconds s
    Instant.of? date hour minute second nanosecond
  | _ => none

/-- Reads an instant, with any blanks around it. -/
def ofText? (s : List Char) : Option Instant :=
  let s := trimBlanks s
  match ofStamp? s with
  | some i => some i
  | none => ofLocal? s

end Sift.Instant
