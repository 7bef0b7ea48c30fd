import Sift.Proofs.Instant.Calendar
import Sift.Proofs.Instant.Stored

/-!
# Forms that agree

The same day and time may be written with a zone, as a stamp, or without one, and
the readers of the two forms are different grammars. They agree all the same: a
text is read as a stamp just if there is a zone in it, both take the day, the time
and the fraction of a second from the same places, and the zone does nothing but
move the instant.

* `Instant.Clock`, `Instant.Offset`: times of a day and zones, as they are written;
* `Instant.ofLocal?_writtenDate`, `Instant.ofLocalOn?_writtenTime`: how a text
  without a zone is read;
* `Instant.ofText?_local`, `Instant.ofText?_stamp`: what a day and a time read as
  without a zone and with one;
* `Instant.ofText?_writtenDate_eq_none`: no text reads that starts with the parts
  of a day that does not exist;
* `Instant.ofText?_forms_agree`: the readings of all forms.
-/

namespace Sift

open Text

theorem Date.parts_of_of? {year : Int} {month day : Nat} {d : Date}
    (h : of? year month day = some d) : d.year = year ∧ d.month = month ∧ d.day = day := by
  rw [of?, Option.ite_none_left_eq_some] at h
  obtain ⟨-, h⟩ := h
  rw [Option.dite_none_right_eq_some] at h
  obtain ⟨_, h⟩ := h
  rw [Option.dite_none_right_eq_some] at h
  obtain ⟨_, h⟩ := h
  cases h
  exact ⟨rfl, rfl, rfl⟩

namespace Instant

/-! ## Times and zones -/

/-- A time of a day as it is written: an hour, a minute, a second, of which the
    leap second is number 60, and the digits of a fraction of the second, if there
    are any. -/
structure Clock where
  hour : Nat
  minute : Nat
  second : Nat
  digits : List Char
  hour_lt : hour < 24
  minute_lt : minute < 60
  second_le : second ≤ 60
  isDigit : ∀ c ∈ digits, Text.isDigit c

/-- A zone as it is written: a sign, hours and minutes. -/
structure Offset where
  isWest : Bool
  hours : Nat
  minutes : Nat
  hours_lt : hours < 24
  minutes_lt : minutes < 60

/-- The minutes of a zone east of UTC. -/
def Offset.east (z : Offset) : Int :=
  let total : Int := z.hours * 60 + z.minutes
  if z.isWest then -total else total

/-- A zone as `+02:00`. -/
def Offset.written (z : Offset) : List Char :=
  (if z.isWest then '-' else '+') :: padded 2 z.hours ++ ':' :: padded 2 z.minutes

theorem Offset.east_mem (z : Offset) : -1440 < z.east ∧ z.east < 1440 := by
  have hhours := z.hours_lt
  have hminutes := z.minutes_lt
  rw [east]
  split
  · omega
  · omega

theorem readZone_written (z : Offset) : readZone z.written = some z.east := by
  obtain ⟨isWest, hours, minutes, hhours, hminutes⟩ := z
  have hfirst := takeNumber_two (show hours < 100 by omega) (':' :: padded 2 minutes)
  have hlast := takeNumber_two (show minutes < 100 by omega) []
  rw [List.append_nil] at hlast
  rw [Offset.written, Offset.east]
  cases isWest with
  | true => simp [readZone, hfirst, takeChar_cons, hlast, hhours, hminutes]
  | false => simp [readZone, hfirst, takeChar_cons, hlast, hhours, hminutes]

theorem isBlank_of_mem_offset {z : Offset} {c : Char} (h : c ∈ z.written) : isBlank c = false := by
  rw [Offset.written, List.cons_append, List.mem_cons, List.mem_append, List.mem_cons] at h
  rcases h with rfl | h | rfl | h
  · split <;> rfl
  · exact isBlank_of_mem_padded h
  · rfl
  · exact isBlank_of_mem_padded h

theorem ends_offset (z : Offset) : Ends (fun c => Text.isDigit c || c = '.') z.written := by
  rw [Offset.written, List.cons_append, ends_cons]
  split <;> decide

theorem nanosecondsOf_lt {ds : List Char} (h : ∀ c ∈ ds, Text.isDigit c) :
    nanosecondsOf ds < 1000000000 := by
  have hdigits : ∀ c ∈ (ds ++ List.replicate 9 '0').take 9, Text.isDigit c := by
    intro c hc
    exact (List.mem_append.1 (List.mem_of_mem_take hc)).elim (h c) isDigit_of_mem_zeros
  have hlength : ((ds ++ List.replicate 9 '0').take 9).length = 9 := by simp
  have hlt := valueOf_lt hdigits
  rwa [hlength] at hlt

namespace Clock

variable (t : Clock)

/-- The fraction of a second: nothing, or a point and its digits. -/
def fraction : List Char := if t.digits = [] then [] else '.' :: t.digits

/-- A time as `12:00:00.5`. -/
def written : List Char := writtenTime t.hour t.minute t.second ++ t.fraction

/-- The instant at a time of a day of UTC. -/
def on (d : Date) : Instant where
  date := d
  second := ⟨t.hour * 3600 + t.minute * 60 + min t.second 59, by
    have hhour := t.hour_lt
    have hminute := t.minute_lt
    omega⟩
  nanosecond := ⟨nanosecondsOf t.digits + if t.second = 60 then 1000000000 else 0, by
    have hlt := nanosecondsOf_lt t.isDigit
    split <;> omega⟩

theorem of?_eq_some (d : Date) :
    of? d t.hour t.minute t.second (nanosecondsOf t.digits) = some (t.on d) := by
  have hsecond := t.second_le
  rw [of?, dif_pos ⟨t.hour_lt, t.minute_lt, t.second_le, nanosecondsOf_lt t.isDigit⟩]
  split
  · rename_i hleap
    simp [on, hleap, Nat.add_comm]
  · rename_i hleap
    have hle : t.second ≤ 59 := by omega
    simp [on, hleap, Nat.min_eq_left hle]

/-- The fraction is read in front of anything that does not carry it on. -/
theorem takeFraction_fraction {r : List Char} (hr : Ends (fun c => Text.isDigit c || c = '.') r) :
    takeFraction (t.fraction ++ r) = some (nanosecondsOf t.digits, r) := by
  have hends : Ends Text.isDigit r := fun c hc => (Bool.or_eq_false_iff.1 (hr c hc)).1
  rw [fraction]
  split
  · rename_i hnil
    rw [List.nil_append, takeFraction_of_ends hr, hnil]
    rfl
  · rename_i hne
    exact takeFraction_digits hne t.isDigit hends

theorem isBlank_of_mem {c : Char} (h : c ∈ t.written) : isBlank c = false := by
  rw [written, writtenTime, fraction] at h
  simp only [List.mem_append, List.mem_cons, or_assoc] at h
  rcases h with h | rfl | h | rfl | h | h
  · exact isBlank_of_mem_padded h
  · rfl
  · exact isBlank_of_mem_padded h
  · rfl
  · exact isBlank_of_mem_padded h
  · split at h
    · exact absurd h List.not_mem_nil
    · rcases List.mem_cons.1 h with rfl | h
      · rfl
      · exact isBlank_of_isDigit (t.isDigit c h)

end Clock

/-! ## Texts without a zone -/

section

variable {year month day hour minute second n : Nat} {d : Date}

theorem skipBlanks_padded (width n : Nat) (r : List Char) :
    skipBlanks (padded width n ++ r) = padded width n ++ r :=
  skipBlanks_of_ends (ends_append (padded_ne_nil width n) fun _ => isBlank_of_mem_padded)

theorem takeShort_padded (h : n < 100) (r : List Char) :
    takeShort (padded 2 n ++ r) = some (n, r) := by
  rw [takeShort, skipBlanks_padded, takeNumber_padded (by decide) (by decide) h]

theorem takeYear_padded (h : year < 10000) (r : List Char) :
    takeYear (padded 4 year ++ r) = some ((year : Int), r) := by
  have hnumber : takeNumber 1 4 (padded 4 year ++ r) = some (year, r) :=
    takeNumber_padded (by decide) (by decide) h r
  obtain ⟨c, u, hpadded⟩ := List.exists_cons_of_ne_nil (padded_ne_nil 4 year)
  have hc : Text.isDigit c := isDigit_of_mem_padded (hpadded ▸ List.mem_cons_self)
  rw [takeYear, skipBlanks_padded]
  -- A digit is not a sign.
  split
  · rename_i he
    rw [hpadded, List.cons_append, List.cons.injEq] at he
    rw [he.1] at hc
    exact absurd hc (by decide)
  · rename_i he
    rw [hpadded, List.cons_append, List.cons.injEq] at he
    rw [he.1] at hc
    exact absurd hc (by decide)
  · rw [hnumber]
    rfl

/-- What a text without a zone reads as from behind its date. -/
def ofLocalOn? (date : Date) : List Char → Option Instant
  | [] => some (midnight date)
  | 'T' :: s => do
    let (hour, s) ← takeShort s
    let s ← takeChar ':' s
    let (minute, s) ← takeShort s
    let (second, nanosecond) ← readSeconds s
    of? date hour minute second nanosecond
  | _ => none

theorem ofLocal?_writtenDate (hyear : year < 10000) (hmonth : month < 100) (hday : day < 100)
    (r : List Char) : ofLocal? (writtenDate year month day ++ r) =
      (Date.of? year month day).bind fun date => ofLocalOn? date r := by
  rw [ofLocal?, writtenDate_append, takeYear_padded hyear]
  dsimp only [Option.bind_eq_bind, Option.bind_some]
  rw [takeChar_cons, Option.bind_some, takeShort_padded hmonth, Option.bind_some, takeChar_cons,
    Option.bind_some, takeShort_padded hday, Option.bind_some]
  rfl

theorem ofLocalOn?_writtenTime {r : List Char} {nanosecond : Nat} (hhour : hour < 100)
    (hminute : minute < 100) (hsecond : second < 100)
    (hr : takeFraction r = some (nanosecond, [])) :
    ofLocalOn? d ('T' :: (writtenTime hour minute second ++ r)) =
      of? d hour minute second nanosecond := by
  have hseconds : readSeconds (':' :: (padded 2 second ++ r)) = some (second, nanosecond) := by
    rw [readSeconds, takeShort_padded hsecond]
    dsimp only [Option.bind_eq_bind, Option.bind_some]
    rw [hr]
    rfl
  rw [writtenTime_append, ofLocalOn?, takeShort_padded hhour]
  dsimp only [Option.bind_eq_bind, Option.bind_some]
  rw [takeChar_cons, Option.bind_some, takeShort_padded hminute, Option.bind_some, hseconds,
    Option.bind_some]

theorem ofLocal?_date (hyear : 0 ≤ d.year ∧ d.year ≤ 9999) (r : List Char) :
    ofLocal? (d.written ++ r) = ofLocalOn? d r := by
  rw [d.written_eq hyear, ofLocal?_writtenDate (by omega) d.month_lt d.day_lt, d.of?_parts hyear,
    Option.bind_some]

end

/-! ## Whole texts -/

section

variable {year month day : Nat} {d : Date}

theorem isBlank_of_mem_writtenDate {c : Char} (h : c ∈ writtenDate year month day) :
    isBlank c = false := by
  rw [writtenDate] at h
  simp only [List.mem_append, List.mem_cons, or_assoc] at h
  rcases h with h | rfl | h | rfl | h
  · exact isBlank_of_mem_padded h
  · rfl
  · exact isBlank_of_mem_padded h
  · rfl
  · exact isBlank_of_mem_padded h

theorem trimBlanks_date (hyear : 0 ≤ d.year ∧ d.year ≤ 9999) {s : List Char}
    (hs : ∀ c ∈ s, isBlank c = false) : trimBlanks (d.written ++ s) = d.written ++ s := by
  refine trimBlanks_eq_self fun c hc => ?_
  rw [d.written_eq hyear] at hc
  exact (List.mem_append.1 hc).elim isBlank_of_mem_writtenDate (hs c)

/-- With a zone, the instant at the time of the day is moved by the zone. -/
theorem ofText?_stamp (hyear : 0 ≤ d.year ∧ d.year ≤ 9999) (t : Clock) {zone : List Char}
    {minutes : Int} (hzone : readZone zone = some minutes)
    (hends : Ends (fun c => Text.isDigit c || c = '.') zone)
    (hblank : ∀ c ∈ zone, isBlank c = false) :
    ofText? (d.written ++ 'T' :: t.written ++ zone) = some ((t.on d).earlierBy minutes) := by
  have hhour := t.hour_lt
  have hminute := t.minute_lt
  have hsecond := t.second_le
  have hstamp : ofStamp? (d.written ++ 'T' :: (t.written ++ zone)) =
      some ((t.on d).earlierBy minutes) := by
    rw [ofStamp?_date hyear, Clock.written, List.append_assoc,
      ofStampOn?_writtenTime (by omega) (by omega) (by omega) (t.takeFraction_fraction hends),
      hzone, Option.bind_some, Option.bind_some, t.of?_eq_some, Option.map_some]
  have hrest : ∀ c ∈ 'T' :: (t.written ++ zone), isBlank c = false := by
    rw [List.forall_mem_cons]
    exact ⟨rfl, fun c hc => (List.mem_append.1 hc).elim t.isBlank_of_mem (hblank c)⟩
  have htrim := trimBlanks_date hyear hrest
  rw [List.append_assoc, List.cons_append, ofText?, htrim, hstamp]

theorem ofText?_utc (hyear : 0 ≤ d.year ∧ d.year ≤ 9999) (t : Clock) {zone : List Char}
    (hzone : readZone zone = some 0) (hends : Ends (fun c => Text.isDigit c || c = '.') zone)
    (hblank : ∀ c ∈ zone, isBlank c = false) :
    ofText? (d.written ++ 'T' :: t.written ++ zone) = some (t.on d) := by
  rw [ofText?_stamp hyear t hzone hends hblank, earlierBy_zero]

/-- Without a zone, the time is one of UTC: the text is no stamp. -/
theorem ofText?_local (hyear : 0 ≤ d.year ∧ d.year ≤ 9999) (t : Clock) :
    ofText? (d.written ++ 'T' :: t.written) = some (t.on d) := by
  have hhour := t.hour_lt
  have hminute := t.minute_lt
  have hsecond := t.second_le
  have hfraction : takeFraction t.fraction = some (nanosecondsOf t.digits, []) := by
    have h := t.takeFraction_fraction (r := []) ends_nil
    rwa [List.append_nil] at h
  have hstamp : ofStamp? (d.written ++ 'T' :: t.written) = none := by
    rw [ofStamp?_date hyear, Clock.written,
      ofStampOn?_writtenTime (by omega) (by omega) (by omega) hfraction]
    rfl
  have hlocal : ofLocal? (d.written ++ 'T' :: t.written) = some (t.on d) := by
    rw [ofLocal?_date hyear, Clock.written,
      ofLocalOn?_writtenTime (by omega) (by omega) (by omega) hfraction, t.of?_eq_some]
  have hrest : ∀ c ∈ 'T' :: t.written, isBlank c = false :=
    List.forall_mem_cons.2 ⟨rfl, fun _ => t.isBlank_of_mem⟩
  have htrim := trimBlanks_date hyear hrest
  rw [ofText?, htrim, hstamp, hlocal]

/-- The beginning of a day, in each of its spellings. -/
theorem ofText?_midnight (hyear : 0 ≤ d.year ∧ d.year ≤ 9999) :
    ∀ time ∈ ["", "T00:00", "T00:00:00", "T00:00:00.0"],
      ofText? (d.written ++ time.toList) = some (midnight d) := by
  have hread {s : List Char} (hs : ∀ c ∈ s, isBlank c = false)
      (hstamp : ofStampOn? (some d) s = none) (hlocal : ofLocalOn? d s = some (midnight d)) :
      ofText? (d.written ++ s) = some (midnight d) := by
    rw [ofText?, trimBlanks_date hyear hs, ofStamp?_date hyear, hstamp, ofLocal?_date hyear, hlocal]
  intro time htime
  simp only [List.mem_cons, List.not_mem_nil, or_false] at htime
  rcases htime with rfl | rfl | rfl | rfl
  all_goals exact hread (isBlank_of_all rfl) rfl rfl

theorem ofStampOn?_none (s : List Char) : ofStampOn? none s = none := by
  simp [ofStampOn?]

/-- A text that starts with a day that does not exist is no instant, whatever
    follows. -/
theorem ofText?_writtenDate_eq_none (hyear : year < 10000) (hmonth : month < 100)
    (hday : day < 100) (hno : ¬∃ d : Date, d.year = year ∧ d.month = month ∧ d.day = day)
    (r : List Char) : ofText? (writtenDate year month day ++ r) = none := by
  have hnone : Date.of? year month day = none :=
    Option.eq_none_iff_forall_ne_some.2 fun d hd => hno ⟨d, Date.parts_of_of? hd⟩
  have hne : writtenDate year month day ≠ [] := by
    simp [writtenDate]
  obtain ⟨r', htrim⟩ := exists_trimBlanks_append hne (fun _ => isBlank_of_mem_writtenDate) r
  rw [ofText?, htrim, ofStamp?_writtenDate hyear hmonth hday, hnone, ofStampOn?_none,
    ofLocal?_writtenDate hyear hmonth hday, hnone, Option.bind_none]

end

/-- The forms of an instant agree. A day of a year of four digits and a time of it,
    with any fraction of a second and leap seconds included, name an instant without
    a zone, which is the one at this time of UTC; with a zone, they name the one
    instant that is the minutes of the zone earlier, on whichever day that is, at the
    same nanosecond and in a leap second just if the other one is; and with a name
    of UTC, they name the same instant as without. The spellings of the beginning of
    a day name the same instant. Blanks around a text change nothing, and no text
    names an instant that starts with the parts of a day that does not exist. -/
theorem ofText?_forms_agree :
    (∀ d : Date, 0 ≤ d.year ∧ d.year ≤ 9999 →
      (∀ t : Clock, ofText? (d.written ++ 'T' :: t.written) = some (t.on d) ∧
        (∀ z : Offset, ∃ i, ofText? (d.written ++ 'T' :: t.written ++ z.written) = some i ∧
          ∀ j, After (-(60 * z.east)) (t.on d) j ↔ j = i) ∧
        ∀ utc ∈ ["Z", "+00:00"],
          ofText? (d.written ++ 'T' :: t.written ++ utc.toList) = some (t.on d)) ∧
      ∀ time ∈ ["", "T00:00", "T00:00:00", "T00:00:00.0"],
        ofText? (d.written ++ time.toList) = some (midnight d)) ∧
    (∀ s b b' : List Char, Blank b → Blank b' → ofText? (b ++ s ++ b') = ofText? s) ∧
    ∀ year month day : Nat, year < 10000 → month < 100 → day < 100 →
      (¬∃ d : Date, d.year = year ∧ d.month = month ∧ d.day = day) →
      ∀ r, ofText? (writtenDate year month day ++ r) = none := by
  refine ⟨fun d hyear => ⟨fun t => ?_, ofText?_midnight hyear⟩, fun s b b' hb hb' => ?_, ?_⟩
  · refine ⟨ofText?_local hyear t, fun z => ?_, fun utc hutc => ?_⟩
    · have hread := ofText?_stamp hyear t (readZone_written z) (ends_offset z)
        fun _ => isBlank_of_mem_offset
      have hafter := (t.on d).after_earlierBy z.east_mem
      exact ⟨_, hread, fun j => ⟨fun hj => hj.unique hafter, fun hj => hj ▸ hafter⟩⟩
    · simp only [List.mem_cons, List.not_mem_nil, or_false] at hutc
      rcases hutc with rfl | rfl
      · exact ofText?_utc hyear t rfl (ends_cons.2 (by decide)) (isBlank_of_all rfl)
      · exact ofText?_utc hyear t rfl (ends_cons.2 (by decide)) (isBlank_of_all rfl)
  · rw [ofText?, trimBlanks_append hb hb', ← ofText?]
  · intro year month day hyear hmonth hday hno r
    exact ofText?_writtenDate_eq_none hyear hmonth hday hno r

/-- A quarter of a second into a leap second, with a digit too many for
    nanoseconds. -/
def leapSecond : Clock :=
  ⟨23, 59, 60, "2500000009".toList, by decide, by decide, by decide, List.all_eq_true.1 rfl⟩

/-- Five hours and a half west of UTC. -/
def inTheWest : Offset := ⟨true, 5, 30, by decide, by decide⟩

/-- The leap second at the end of June 2015, the one in the west, which is in July,
    and a day that did not exist. -/
theorem ofText?_forms_agree_leapSecond :
    (0 ≤ inLeapSecond.date.year ∧ inLeapSecond.date.year ≤ 9999) ∧
    ofText? "2015-06-30T23:59:60.2500000009".toList = some inLeapSecond ∧
    (∃ i, ofText? "2015-06-30T23:59:60.2500000009-05:30".toList = some i ∧
      i.date.month = 7 ∧ i.date.day = 1 ∧ i.second.val = 19799 ∧ i.isLeap) ∧
    ofText? "\u3000 2015-06-30T23:59:60.2500000009Z\t".toList = some inLeapSecond ∧
    ofText? "2015-06-30T00:00".toList = some (midnight inLeapSecond.date) ∧
    ofText? "2015-02-29T23:59:60.25-05:30".toList = none := by
  have hyear : 0 ≤ inLeapSecond.date.year ∧ inLeapSecond.date.year ≤ 9999 := by decide
  obtain ⟨hforms, hblank, hno⟩ := ofText?_forms_agree
  obtain ⟨htimes, hmidnight⟩ := hforms inLeapSecond.date hyear
  obtain ⟨hlocal, hzones, hutc⟩ := htimes leapSecond
  obtain ⟨i, hwest, hafter⟩ := hzones inTheWest
  have hlater : (leapSecond.on inLeapSecond.date).earlierBy inTheWest.east = i :=
    (hafter _).1 (after_earlierBy _ inTheWest.east_mem)
  have hnone : ¬∃ d : Date, d.year = (2015 : Nat) ∧ d.month = 2 ∧ d.day = 29 := by
    rintro ⟨d, hy, hm, hd⟩
    have hday := d.day_mem.2
    rw [hy, hm, hd] at hday
    exact absurd hday (by decide)
  have hbefore : Blank ['\u3000', ' '] := List.all_eq_true.1 rfl
  have hbehind : Blank ['\t'] := List.all_eq_true.1 rfl
  have htrimmed := (hblank _ _ _ hbefore hbehind).trans (hutc "Z" (by decide))
  subst hlater
  exact ⟨hyear, hlocal, ⟨_, hwest, rfl, rfl, rfl, rfl⟩, htrimmed, hmidnight "T00:00" (by decide),
    hno 2015 2 29 (by decide) (by decide) (by decide) hnone _⟩

end Instant

end Sift
