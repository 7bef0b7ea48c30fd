import Mathlib.Data.List.Forall2
import Sift.Proofs.Selection.Splits

/-!
# The order of dates

Equality and the ordering comparators have tests of their own for dates, and
take different operands, but there is one comparison of milliseconds behind all
of them (`Condition.holds_dateCondition`). So a date is before an instant, at it or
after it, and only another millisecond makes a difference to that.

* `Operand.Names`: the operands that name an instant;
* `dateCondition`: the conditions on how dates stand to an instant, and
  `Filter.select_dateCondition`: what they keep of the rows with dates;
* `Filter.splits_dated`: which of them split these rows;
* `Filter.exists_kept_of_forall₂`: rows may be replaced by rows that a condition
  cannot tell from them;
* `Filter.splits_dated_and_select_eq`: what all this is for selections.
-/

namespace Sift

/-! ## Dates and instants -/

/-- The instant of a date. -/
def Value.instant? : Value → Option Instant
  | date i => some i
  | _ => none

theorem Value.instant?_eq_some_iff {v : Value} {i : Instant} :
    v.instant? = some i ↔ v = .date i := by
  cases v <;> simp [instant?]

/-- The same value, or a date in the same millisecond. -/
inductive Value.SameTime : Value → Value → Prop
  | refl (v : Value) : SameTime v v
  | date {i j : Instant} : i.milliseconds = j.milliseconds → SameTime (.date i) (.date j)

/-- The operands that name an instant: the instant, and the texts that read as
    it. -/
inductive Operand.Names (i : Instant) : Operand → Prop
  | date : Names i (.date i)
  | text {s : String} : Instant.ofText? s.toList = some i → Names i (.text s)

theorem Operand.Names.asDate?_eq {x : Operand} {i : Instant} (h : x.Names i) :
    x.asDate? = some i := by
  cases h with
  | date => rfl
  | text h => exact h

namespace Comparator

/-- The comparators for dates. -/
def forDates : List Comparator := [before, equals, after, onOrBefore, onOrAfter]

/-- How the milliseconds of a date must compare with those of an instant. -/
def relates : Comparator → Int → Int → Bool
  | before, s, t => s < t
  | equals, s, t => s = t
  | after, s, t => t < s
  | onOrBefore, s, t => s ≤ t
  | onOrAfter, s, t => t ≤ s
  | _, _, _ => false

/-- The comparators of which any milliseconds satisfy exactly one. -/
def alternatives : List (List Comparator) :=
  [[before, equals, after], [onOrBefore, after], [before, onOrAfter]]

theorem countP_relates {comparators : List Comparator} (h : comparators ∈ alternatives)
    (s t : Int) : (comparators.countP fun comparator => comparator.relates s t) = 1 := by
  simp only [alternatives, List.mem_cons, List.not_mem_nil, or_false] at h
  rcases h with rfl | rfl | rfl <;>
    simp only [List.countP_cons, List.countP_nil, relates, decide_eq_true_eq] <;>
    split_ifs <;> omega

theorem mem_forDates {comparators : List Comparator} (h : comparators ∈ alternatives) :
    ∀ comparator ∈ comparators, comparator ∈ forDates := by
  simp only [alternatives, List.mem_cons, List.not_mem_nil, or_false] at h
  rcases h with rfl | rfl | rfl <;> decide

theorem relates_and_relates (s t : Int) :
    (onOrBefore.relates s t && onOrAfter.relates s t) = equals.relates s t := by
  rw [relates, relates, relates, ← Bool.decide_and, decide_eq_decide]
  omega

end Comparator

/-- The condition on how the date under a property stands to an instant. It asks
    for the order with any operand that names the instant, but for equality with
    the instant itself. -/
def dateCondition (property : String) (x : Operand) (i : Instant) (comparator : Comparator) :
    Condition :=
  ⟨property, comparator, some (if comparator = .equals then .date i else x)⟩

variable {property : String} {x : Operand} {i : Instant} {comparator : Comparator}
  {mode : DateEquality}

namespace Condition

theorem withDate_of_names (hx : x.Names i) (test : Instant → Bool) :
    withDate (some x) test = test i := by
  rw [withDate, Option.bind_some, hx.asDate?_eq, Option.any_some]

/-- All of the conditions compare milliseconds, and nothing but dates satisfies
    them. Only equality depends on the mode. -/
theorem holds_dateCondition (hc : comparator ∈ Comparator.forDates) (hx : x.Names i)
    (hmode : comparator = .equals → mode = .instant) (property : String) (v : Value) :
    (dateCondition property x i comparator).holds mode v =
      v.instant?.any fun j => comparator.relates j.milliseconds i.milliseconds := by
  simp only [Comparator.forDates, List.mem_cons, List.not_mem_nil, or_false] at hc
  rcases hc with rfl | rfl | rfl | rfl | rfl
  case inr.inl =>
    obtain rfl := hmode rfl
    cases v <;> rfl
  all_goals
    refine (withDate_of_names hx _).trans ?_
    cases v <;> rfl

/-- On or before an instant and on or after it is at it. -/
theorem holds_onOrBefore_and_onOrAfter (hx : x.Names i) (mode : DateEquality) (property : String)
    (v : Value) : (holds mode ⟨property, .onOrBefore, some x⟩ v &&
      holds mode ⟨property, .onOrAfter, some x⟩ v) =
        holds .instant ⟨property, .equals, some (.date i)⟩ v := by
  have honOrBefore := @holds_dateCondition x i .onOrBefore mode (by decide) hx
    (fun h => nomatch h) property v
  have honOrAfter := @holds_dateCondition x i .onOrAfter mode (by decide) hx
    (fun h => nomatch h) property v
  have hequals := @holds_dateCondition x i .equals .instant (by decide) hx (fun _ => rfl) property v
  refine (congrArg₂ (· && ·) honOrBefore honOrAfter).trans (Eq.trans ?_ hequals.symm)
  cases v.instant? with
  | none => rfl
  | some j => exact Comparator.relates_and_relates _ _

end Condition

theorem Value.SameTime.any_instant?_eq {v w : Value} (h : v.SameTime w) (relation : Int → Bool) :
    (v.instant?.any fun j => relation j.milliseconds) =
      w.instant?.any fun j => relation j.milliseconds := by
  cases h with
  | refl => rfl
  | date h => exact congrArg relation h

/-! ## Selections -/

namespace Filter

variable {α β : Type} [Row α] [Row β]

/-- The rows with a date under a property. -/
def datedRows (property : String) (rows : List α) : List α :=
  rows.filter fun row => (Row.value row property).instant?.isSome

theorem mem_datedRows {rows : List α} {row : α} :
    row ∈ datedRows property rows ↔ row ∈ rows ∧ ∃ j, Row.value row property = .date j := by
  rw [datedRows, List.mem_filter, Option.isSome_iff_exists]
  simp only [Value.instant?_eq_some_iff]

/-- What the conditions on dates keep are rows with dates. -/
theorem select_dateCondition (hc : comparator ∈ Comparator.forDates) (hx : x.Names i)
    (hmode : comparator = .equals → mode = .instant) (property : String) (rows : List α) :
    (condition (dateCondition property x i comparator)).select mode rows =
      (datedRows property rows).filter fun row => (Row.value row property).instant?.any fun j =>
        comparator.relates j.milliseconds i.milliseconds := by
  rw [select_condition, Condition.select, datedRows, List.filter_filter]
  refine List.filter_congr fun row _ => ?_
  refine (Condition.holds_dateCondition hc hx hmode property (Row.value row property)).trans ?_
  cases (Row.value row property).instant? with
  | none => rfl
  | some j => rw [Option.isSome_some, Bool.and_true]

/-- Comparators of which any milliseconds satisfy exactly one split the rows with
    dates. -/
theorem splits_dated {comparators : List Comparator} (h : comparators ∈ Comparator.alternatives)
    (hx : x.Names i) (property : String) (rows : List α) :
    Splits (datedRows property rows) (comparators.map fun comparator =>
      (condition (dateCondition property x i comparator)).select .instant rows) := by
  have hselect : (comparators.map fun comparator =>
      (condition (dateCondition property x i comparator)).select .instant rows) =
        (comparators.map fun comparator (row : α) => (Row.value row property).instant?.any fun j =>
          comparator.relates j.milliseconds i.milliseconds).map fun test =>
            (datedRows property rows).filter test := by
    rw [List.map_map]
    exact List.map_congr_left fun comparator hc =>
      select_dateCondition (Comparator.mem_forDates h comparator hc) hx (fun _ => rfl) property rows
  rw [hselect]
  refine splits_filter fun row hrow => ?_
  obtain ⟨-, j, hj⟩ := mem_datedRows.1 hrow
  rw [List.countP_map]
  simp only [Function.comp_def, hj]
  exact Comparator.countP_relates h j.milliseconds i.milliseconds

/-- Of rows that are replaced by rows that a condition cannot tell from them, one
    by one, the replacements are kept of those that are kept. -/
theorem exists_kept_of_forall₂ {c : Condition} {rows : List α} {others : List β}
    (h : List.Forall₂ (fun row other => c.holds mode (Row.value row c.property) =
      c.holds mode (Row.value other c.property)) rows others) :
    ∃ kept : List (α × β), kept.Sublist (rows.zip others) ∧
      kept.map Prod.fst = (condition c).select mode rows ∧
      kept.map Prod.snd = (condition c).select mode others := by
  rw [select_condition, select_condition, Condition.select, Condition.select]
  induction h with
  | nil => exact ⟨[], .slnil, rfl, rfl⟩
  | @cons row other rows others hrow _ ih =>
    obtain ⟨kept, hkept, hrows, hothers⟩ := ih
    simp only [List.filter_cons, ← hrow]
    split
    · exact ⟨(row, other) :: kept, hkept.cons_cons _, congrArg _ hrows, congrArg _ hothers⟩
    · exact ⟨kept, hkept.cons _, hrows, hothers⟩

/-- The two comparators that admit the instant keep the rows at it, one after the
    other. -/
theorem select_onOrBefore_and_onOrAfter (hx : x.Names i) (mode : DateEquality) (property : String)
    (rows : List α) :
    (group .and [condition ⟨property, .onOrBefore, some x⟩,
        condition ⟨property, .onOrAfter, some x⟩]).select mode rows =
      (condition ⟨property, .equals, some (.date i)⟩).select .instant rows := by
  refine (select_and_conditions mode [⟨property, .onOrBefore, some x⟩,
    ⟨property, .onOrAfter, some x⟩] rows).trans ?_
  rw [select_condition, Condition.select]
  refine List.filter_congr fun row _ => ?_
  rw [List.all_cons, List.all_cons, List.all_nil, Bool.and_true]
  exact Condition.holds_onOrBefore_and_onOrAfter hx mode property (Row.value row property)

/-- Of rows with dates that are replaced by dates in the same millisecond, the
    replacements are kept of those that are kept. -/
theorem exists_kept_of_sameTime (hc : comparator ∈ Comparator.forDates) (hx : x.Names i)
    {rows : List α} {others : List β} (h : List.Forall₂ (fun row other =>
      (Row.value row property).SameTime (Row.value other property)) rows others) :
    ∃ kept : List (α × β), kept.Sublist (rows.zip others) ∧
      kept.map Prod.fst =
        (condition (dateCondition property x i comparator)).select .instant rows ∧
      kept.map Prod.snd =
        (condition (dateCondition property x i comparator)).select .instant others := by
  refine exists_kept_of_forall₂ (h.imp fun row other hsame => ?_)
  have hholds := Condition.holds_dateCondition hc hx (fun _ => rfl) property
  exact (hholds _).trans ((hsame.any_instant?_eq (comparator.relates · i.milliseconds)).trans
    (hholds _).symm)

/-- An instant splits the rows with dates into those before it, at it and after it,
    and the other comparators for the order keep what one of these leaves; together
    they keep the rows at the instant. No comparator keeps rows without dates, the
    order does not depend on the mode, and nothing changes if an instant in the
    same millisecond is put in the place of the instant or of a date. -/
theorem splits_dated_and_select_eq (property : String) (rows : List α) {x : Operand} {i : Instant}
    (hx : x.Names i) :
    Splits (datedRows property rows)
      [(condition ⟨property, .before, some x⟩).select .instant rows,
        (condition ⟨property, .equals, some (.date i)⟩).select .instant rows,
        (condition ⟨property, .after, some x⟩).select .instant rows] ∧
    Splits (datedRows property rows)
      [(condition ⟨property, .onOrBefore, some x⟩).select .instant rows,
        (condition ⟨property, .after, some x⟩).select .instant rows] ∧
    Splits (datedRows property rows)
      [(condition ⟨property, .before, some x⟩).select .instant rows,
        (condition ⟨property, .onOrAfter, some x⟩).select .instant rows] ∧
    (∀ mode, (group .and [condition ⟨property, .onOrBefore, some x⟩,
        condition ⟨property, .onOrAfter, some x⟩]).select mode rows =
      (condition ⟨property, .equals, some (.date i)⟩).select .instant rows) ∧
    ∀ comparator ∈ Comparator.forDates,
      (comparator ≠ .equals → ∀ mode,
        (condition ⟨property, comparator, some x⟩).select mode rows =
          (condition ⟨property, comparator, some x⟩).select .instant rows) ∧
      (∀ row ∈ (condition (dateCondition property x i comparator)).select .instant rows,
        ∃ j, Row.value row property = .date j) ∧
      (∀ y j, y.Names j → j.milliseconds = i.milliseconds →
        (condition (dateCondition property y j comparator)).select .instant rows =
          (condition (dateCondition property x i comparator)).select .instant rows) ∧
      ∀ (β : Type) [Row β] (others : List β), List.Forall₂ (fun row other =>
          (Row.value row property).SameTime (Row.value other property)) rows others →
        ∃ kept : List (α × β), kept.Sublist (rows.zip others) ∧
          kept.map Prod.fst =
            (condition (dateCondition property x i comparator)).select .instant rows ∧
          kept.map Prod.snd =
            (condition (dateCondition property x i comparator)).select .instant others := by
  refine ⟨@splits_dated x i α _ [.before, .equals, .after] (by decide) hx property rows,
    @splits_dated x i α _ [.onOrBefore, .after] (by decide) hx property rows,
    @splits_dated x i α _ [.before, .onOrAfter] (by decide) hx property rows,
    fun mode => select_onOrBefore_and_onOrAfter hx mode property rows,
    fun comparator hc => ⟨?mode, ?dates, ?instants, ?replaced⟩⟩
  case mode =>
    intro hne mode
    have hselect (mode) := @select_dateCondition x i comparator mode α _ hc hx
      (fun h => absurd h hne) property rows
    rw [dateCondition, if_neg hne] at hselect
    exact (hselect mode).trans (hselect .instant).symm
  case dates =>
    intro row hrow
    rw [select_dateCondition hc hx fun _ => rfl] at hrow
    exact (mem_datedRows.1 (List.mem_filter.1 hrow).1).2
  case instants =>
    intro y j hy hj
    rw [select_dateCondition hc hx fun _ => rfl, select_dateCondition hc hy fun _ => rfl, hj]
  case replaced => exact fun β _ others hothers => exists_kept_of_sameTime hc hx hothers

/-- The end of 2016 as a text. -/
def yearEndText : String := "2016-12-31T23:59:60.00025Z"

/-- The end of 2016, in a leap second, which counts on into the next year. -/
def yearEnd : Instant := (Instant.ofText? yearEndText.toList).get (by decide)

/-- The start of 2017, in the same millisecond. -/
def yearStart : Instant := (Instant.ofText? "2017-01-01T00:00:00.0009Z".toList).get (by decide)

/-- Arrivals, two of them with the same identity, around the turn of the year; one
    is a text, and one has no time. -/
def arrivals : List Record :=
  [.set "at" (.date yearStart) (.new "a"),
    .set "at" (.date (.midnight yearStart.date.next)) (.new "b"),
    .set "at" (.date (.midnight yearEnd.date)) (.new "a"),
    .set "at" (.text "2016-12-31") (.new "c"), .new "d"]

/-- The same arrivals, the first of them in the year before. -/
def retimed : List Record := .set "at" (.date yearEnd) (.new "a") :: arrivals.tail

theorem splits_dated_and_select_eq_arrivals :
    (Operand.text yearEndText).Names yearEnd ∧
      Splits (datedRows "at" arrivals)
        [(condition ⟨"at", .before, some (.text yearEndText)⟩).select .instant arrivals,
          (condition ⟨"at", .equals, some (.date yearEnd)⟩).select .instant arrivals,
          (condition ⟨"at", .after, some (.text yearEndText)⟩).select .instant arrivals] ∧
      .onOrBefore ∈ Comparator.forDates ∧
      (Operand.date yearStart).Names yearStart ∧ yearStart.milliseconds = yearEnd.milliseconds ∧
      (condition ⟨"at", .onOrBefore, some (.date yearStart)⟩).select .instant arrivals =
        (condition ⟨"at", .onOrBefore, some (.text yearEndText)⟩).select .instant arrivals ∧
      List.Forall₂ (fun row other => (Row.value row "at").SameTime (Row.value other "at"))
        arrivals retimed ∧
      ∃ kept : List (Record × Record), kept.Sublist (arrivals.zip retimed) ∧
        kept.map Prod.fst =
          (condition ⟨"at", .onOrBefore, some (.text yearEndText)⟩).select .instant arrivals ∧
        kept.map Prod.snd =
          (condition ⟨"at", .onOrBefore, some (.text yearEndText)⟩).select .instant retimed := by
  have hx : (Operand.text yearEndText).Names yearEnd := .text (by decide)
  have hc : .onOrBefore ∈ Comparator.forDates := by decide
  have hsame : yearStart.milliseconds = yearEnd.milliseconds := by decide
  have hretimed : List.Forall₂ (fun row other => (Row.value row "at").SameTime
      (Row.value other "at")) arrivals retimed :=
    .cons (.date hsame) (.cons (.refl _) (.cons (.refl _) (.cons (.refl _)
      (.cons (.refl _) .nil))))
  obtain ⟨hsplits, _, _, _, hdates⟩ := splits_dated_and_select_eq "at" arrivals hx
  obtain ⟨_, _, hinstants, hrows⟩ := hdates _ hc
  exact ⟨hx, hsplits, hc, .date, hsame, hinstants _ _ .date hsame, hretimed,
    hrows Record retimed hretimed⟩

-- On or before the leap second are the day that it ends and the start of the next one.
example : ((condition ⟨"at", .onOrBefore, some (.text yearEndText)⟩).select .identity
    arrivals).map Row.id = ["a", "a"] := by decide

end Filter

end Sift
