import Sift.Proofs.Instant.Stored
import Sift.Tally

/-!
# Written instants that read back

An instant that was read once is stored, listed and put into queries in forms that
read again: to the nanosecond from a stored value and from a label, to the second
from a query. This takes a year of four digits, and that leap seconds are where
clocks have them, as in all instants that are read.

* `Instant.Grouped`, `Instant.grouped_writtenFraction`: the fractions of a second
  that are written;
* `Instant.whole`, `Instant.displayable_whole`: what is left without the fraction
  is written in full in a query;
* `Instant.ofText?_stored_and_label_and_query`: what the written forms read as.
-/

namespace Sift.Instant

open Text

/-- The written fractions of a second: none, or a point and three, six or nine
    digits. -/
def Grouped (fraction : List Char) : Prop :=
  fraction = [] ∨ ∃ ds, fraction = '.' :: ds ∧ (∀ c ∈ ds, isDigit c) ∧
    (ds.length = 3 ∨ ds.length = 6 ∨ ds.length = 9)

theorem grouped_writtenFraction (i : Instant) : Grouped i.writtenFraction := by
  have hlt := Nat.mod_lt i.nanosecond.val (show 0 < 1000000000 by decide)
  have hdigits {width n : Nat} : ∀ c ∈ padded width n, isDigit c :=
    fun _ => isDigit_of_mem_padded
  rw [writtenFraction]
  generalize i.nanosecond.val % 1000000000 = n at hlt ⊢
  split
  · exact .inl rfl
  split
  · exact .inr ⟨_, rfl, hdigits, .inl (length_padded (by decide) (by omega))⟩
  split
  · exact .inr ⟨_, rfl, hdigits, .inr (.inl (length_padded (by decide) (by omega)))⟩
  · exact .inr ⟨_, rfl, hdigits, .inr (.inr (length_padded (by decide) (by omega)))⟩

/-- The instant without the fraction of its second. A leap second stays one. -/
def whole (i : Instant) : Instant where
  date := i.date
  second := i.second
  nanosecond := ⟨i.nanosecond.val - i.nanosecond.val % 1000000000,
    Nat.lt_of_le_of_lt (Nat.sub_le _ _) i.nanosecond.isLt⟩

theorem isLeap_whole (i : Instant) : i.whole.isLeap = i.isLeap := by
  rw [isLeap, isLeap, whole, decide_eq_decide]
  dsimp only
  omega

theorem written_whole (i : Instant) : i.whole.written = i.written := by
  rw [written, written, isLeap_whole]
  rfl

/-- The second of an instant that was read is written in full in a query. -/
theorem displayable_whole {i : Instant} (h : i.Proper) (hyear : i.FourDigitYear) :
    i.whole.Displayable := by
  refine ⟨hyear, ?_, fun hleap => h (i.isLeap_whole ▸ hleap)⟩
  rw [whole]
  dsimp only
  omega

/-- An instant that was read, and is of a year of four digits, reads back from the
    text that is stored of it and from the label that it is listed under, both
    with the same fraction of a second, and without this fraction from the text
    that stands for it in a query. -/
theorem ofText?_stored_and_label_and_query {s : List Char} {i : Instant} (h : ofText? s = some i)
    (hyear : i.FourDigitYear) :
    ∃ fraction, Grouped fraction ∧
      ((Value.date i).toJson = .text (String.ofList (i.written ++ fraction ++ ['Z'])) ∧
        ofText? (i.written ++ fraction ++ ['Z']) = some i) ∧
      ((∀ n, Count.label ⟨.date i, n⟩ =
          String.ofList (i.written ++ fraction ++ "+00:00".toList)) ∧
        ofText? (i.written ++ fraction ++ "+00:00".toList) = some i) ∧
      (Operand.date i).written = i.written ++ ['Z'] ∧
        ofText? (i.written ++ ['Z']) = some i.whole := by
  have hproper := proper_of_ofText? h
  have hquery := ofText?_displayed (displayable_whole hproper hyear)
  rw [displayed, written_whole] at hquery
  refine ⟨i.writtenFraction, grouped_writtenFraction i, ⟨rfl, ?_⟩, ⟨fun _ => rfl, ?_⟩, rfl, hquery⟩
  · exact ofText?_zulu hproper hyear
  · exact ofText?_written hproper hyear rfl (ends_cons.2 (by decide)) (isBlank_of_all rfl)

/-- An instant in a leap second, two hours behind where it is read, with a
    fraction of seven digits. -/
theorem ofText?_stored_and_label_and_query_inLeapSecond :
    ofText? "2015-07-01T01:59:60.2500000+02:00".toList = some inLeapSecond ∧
    inLeapSecond.FourDigitYear ∧
    ∃ fraction, Grouped fraction ∧
      ((Value.date inLeapSecond).toJson =
          .text (String.ofList (inLeapSecond.written ++ fraction ++ ['Z'])) ∧
        ofText? (inLeapSecond.written ++ fraction ++ ['Z']) = some inLeapSecond) ∧
      ((∀ n, Count.label ⟨.date inLeapSecond, n⟩ =
          String.ofList (inLeapSecond.written ++ fraction ++ "+00:00".toList)) ∧
        ofText? (inLeapSecond.written ++ fraction ++ "+00:00".toList) = some inLeapSecond) ∧
      (Operand.date inLeapSecond).written = inLeapSecond.written ++ ['Z'] ∧
        ofText? (inLeapSecond.written ++ ['Z']) = some inLeapSecond.whole := by
  have hread : ofText? "2015-07-01T01:59:60.2500000+02:00".toList = some inLeapSecond := by decide
  have hyear : inLeapSecond.FourDigitYear := by decide
  exact ⟨hread, hyear, ofText?_stored_and_label_and_query hread hyear⟩

end Sift.Instant
