import Sift.Proofs.Instant.Forms
import Sift.Proofs.Instant.Stored

/-!
# Labels of instants

Instants are listed under labels that tell them apart, in any year: a year that
does not have four digits is written with its sign, and then with as many digits
as it takes. The parts of a label come off one after the other, so that it says
what the instant is. Leap seconds must be where clocks have them, since the label
of any other one is that of the second after it.

* `Instant.takeYear_writtenYear`: a written year reads back, with or without a
  sign;
* `Date.written_append_inj`: a written date ends where it says;
* `Instant.labelled_injective`: different instants have different labels.
-/

namespace Sift

open Text

namespace Instant

variable {r r' : List Char}

/-- A signed year is read up to its last digit. -/
theorem takeYear_signed (n : Nat) (hr : Ends isDigit r) :
    takeYear ('-' :: (padded 4 n ++ r)) = some (-(n : Int), r) ∧
      takeYear ('+' :: (padded 4 n ++ r)) = some ((n : Int), r) := by
  have hdigits : (padded 4 n ++ r).takeWhile isDigit = padded 4 n :=
    takeWhile_append_of_ends (fun _ => isDigit_of_mem_padded) hr
  have hpos := List.length_pos_iff.2 (padded_ne_nil 4 n)
  have hnumber : takeNumber 1 (padded 4 n ++ r).length (padded 4 n ++ r) = some (n, r) := by
    rw [takeNumber, List.take_length, hdigits, if_neg (by omega), valueOf_padded, List.drop_left]
  constructor
  · change (takeNumber 1 (padded 4 n ++ r).length (padded 4 n ++ r)).map _ = _
    rw [hnumber, Option.map_some]
  · change (takeNumber 1 (padded 4 n ++ r).length (padded 4 n ++ r)).map _ = _
    rw [hnumber, Option.map_some]

/-- A written year reads back, whatever follows it but digits. -/
theorem takeYear_writtenYear (year : Int) (hr : Ends isDigit r) :
    takeYear (writtenYear year ++ r) = some (year, r) := by
  rw [writtenYear]
  split
  · rename_i hyear
    rw [takeYear_padded (by omega), Int.natAbs_of_nonneg hyear.1]
  · split
    · rename_i hneg
      have habs : -(year.natAbs : Int) = year := by omega
      rw [List.cons_append, (takeYear_signed _ hr).1, habs]
    · rename_i hneg
      have habs : (year.natAbs : Int) = year := by omega
      rw [List.cons_append, (takeYear_signed _ hr).2, habs]

theorem padded_two_append_inj {m n : Nat} (hm : m < 100) (hn : n < 100)
    (h : padded 2 m ++ r = padded 2 n ++ r') : m = n ∧ r = r' := by
  have hread := congrArg (takeNumber 2 2) h
  rw [takeNumber_two hm, takeNumber_two hn] at hread
  simpa using hread

end Instant

/-- What stands behind a date tells where the date ends, and so which one it is. -/
theorem Date.written_append_inj {d e : Date} {r r' : List Char}
    (h : d.written ++ r = e.written ++ r') : d = e ∧ r = r' := by
  have hparts (d : Date) (r : List Char) : d.written ++ r =
      writtenYear d.year ++ '-' :: (padded 2 d.month ++ '-' :: (padded 2 d.day ++ r)) := by
    simp only [written, List.append_assoc, List.cons_append]
  have hminus {s : List Char} : Ends isDigit ('-' :: s) := ends_cons.2 rfl
  have hread := congrArg Instant.takeYear h
  rw [hparts, hparts, Instant.takeYear_writtenYear _ hminus,
    Instant.takeYear_writtenYear _ hminus, Option.some_inj, Prod.mk.injEq, List.cons.injEq] at hread
  obtain ⟨hyear, -, hread⟩ := hread
  obtain ⟨hmonth, hread⟩ := Instant.padded_two_append_inj d.month_lt e.month_lt hread
  obtain ⟨hday, hr⟩ := Instant.padded_two_append_inj d.day_lt e.day_lt (List.cons.inj hread).2
  refine ⟨?_, hr⟩
  obtain ⟨year, month, day, _, _⟩ := d
  obtain ⟨year', month', day', _, _⟩ := e
  obtain rfl : year = year' := hyear
  obtain rfl : month = month' := hmonth
  obtain rfl : day = day' := hday
  rfl

namespace Instant

/-- What a label has behind its date reads as the instant on this date. -/
theorem exists_labelled_eq {i : Instant} (h : i.Proper) :
    ∃ r, i.labelled = i.date.written ++ r ∧ ofStampOn? (some i.date) r = some i := by
  have hsecond := i.second.isLt
  have hleap : i.secondOfMinute ≤ 60 := by
    rw [secondOfMinute]
    split <;> omega
  have hzone : Ends (fun c => isDigit c || c = '.') "+00:00".toList := ends_cons.2 (by decide)
  have hfraction := takeFraction_writtenFraction i hzone
  refine ⟨'T' :: (writtenTime (i.second.val / 3600) (i.second.val / 60 % 60) i.secondOfMinute ++
    (i.writtenFraction ++ "+00:00".toList)), ?_, ?_⟩
  · simp only [labelled, written, writtenTime, secondOfMinute, List.append_assoc, List.cons_append]
  · rw [ofStampOn?_writtenTime (by omega) (by omega) (by omega) hfraction,
      show readZone "+00:00".toList = some 0 from rfl, Option.bind_some, Option.bind_some,
      of?_parts h, Option.map_some, earlierBy_zero]

/-- Different instants have different labels. -/
theorem labelled_injective {i j : Instant} (hi : i.Proper) (hj : j.Proper)
    (h : i.labelled = j.labelled) : i = j := by
  obtain ⟨r, hlabel, hread⟩ := exists_labelled_eq hi
  obtain ⟨r', hlabel', hread'⟩ := exists_labelled_eq hj
  rw [hlabel, hlabel'] at h
  obtain ⟨hdate, rfl⟩ := Date.written_append_inj h
  rw [hdate, hread', Option.some_inj] at hread
  exact hread.symm

end Instant

end Sift
