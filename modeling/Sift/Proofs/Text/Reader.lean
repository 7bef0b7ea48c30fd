import Mathlib.Data.List.DropRight
import Mathlib.Data.List.TakeWhile
import Sift.Text.Blank
import Sift.Text.Reader

/-!
# Reading with a rest

What readers do on a text with anything behind it, as long as this does not
carry the text on.

* `Ends`: the rests that do not carry a run of characters on;
* `Blank`, `skipBlanks_append`, `trimBlanks_append`: blanks in front of a text and
  around it;
* `wordOf_append`, `keyword_append`: words and keywords in front of such rests;
* `of_wordOf`, `of_keyword`: the other way round, what stands where a word or a
  keyword was found;
* `Steps`: the rounds of a repetition, and `many_eq_ok_iff`: that it goes
  through them;
* `many_eq`: a repetition by its first round;
* `byteCount_append`: the bytes of a text.
-/

namespace Sift.Text

variable {p : Char → Bool} {s r : List Char}

/-- Whether a run of characters of the class `p` ends in front of a text. -/
def Ends (p : Char → Bool) (r : List Char) : Prop := ∀ c ∈ r.head?, p c = false

theorem ends_nil : Ends p [] := fun _ h => nomatch h

theorem ends_cons {c : Char} : Ends p (c :: r) ↔ p c = false :=
  ⟨fun h => h c rfl, fun h _ hc => Option.some.inj hc ▸ h⟩

theorem ends_append (hs : s ≠ []) (h : ∀ c ∈ s, p c = false) : Ends p (s ++ r) := by
  cases s with
  | nil => exact absurd rfl hs
  | cons c s => exact ends_cons.2 (h c List.mem_cons_self)

theorem stopAt_ne_ok {ε α : Type} {reason : ε} {x : α} : stopAt reason s ≠ .ok x := by
  simp [stopAt]

/-! ## Words -/

theorem takeWhile_append_of_ends (hs : ∀ c ∈ s, p c) (hr : Ends p r) :
    (s ++ r).takeWhile p = s := by
  rw [List.takeWhile_append_of_pos hs]
  cases r with
  | nil => rw [List.takeWhile_nil, List.append_nil]
  | cons c r => rw [List.takeWhile_cons_of_neg (by simp [ends_cons.1 hr]), List.append_nil]

theorem dropWhile_append_of_ends (hs : ∀ c ∈ s, p c) (hr : Ends p r) :
    (s ++ r).dropWhile p = r := by
  rw [List.dropWhile_append_of_pos hs]
  cases r with
  | nil => rw [List.dropWhile_nil]
  | cons c r => rw [List.dropWhile_cons_of_neg (by simp [ends_cons.1 hr])]

theorem wordOf_append (hs : ∀ c ∈ s, p c) (hr : Ends p r) : wordOf p (s ++ r) = (s, r) := by
  rw [wordOf, takeWhile_append_of_ends hs hr, dropWhile_append_of_ends hs hr]

theorem skipBlanks_of_ends (h : Ends isBlank s) : skipBlanks s = s :=
  dropWhile_append_of_ends (s := []) (fun _ hc => absurd hc List.not_mem_nil) h

theorem skipBlanks_space : skipBlanks (' ' :: s) = skipBlanks s := rfl

theorem of_wordOf {w : List Char} (h : wordOf p s = (w, r)) :
    s = w ++ r ∧ (∀ c ∈ w, p c) ∧ Ends p r := by
  rw [wordOf, Prod.mk.injEq] at h
  obtain ⟨rfl, rfl⟩ := h
  refine ⟨List.takeWhile_append_dropWhile.symm, fun c hc => List.mem_takeWhile_imp hc, ?_⟩
  intro c hc
  have hnot := List.head?_dropWhile_not p s
  rwa [Option.mem_def.1 hc] at hnot

/-! ## Blanks -/

/-- Whether a text is all blank. -/
def Blank (b : List Char) : Prop := ∀ c ∈ b, isBlank c

theorem skipBlanks_append {b : List Char} (hb : Blank b) : skipBlanks (b ++ s) = skipBlanks s :=
  List.dropWhile_append_of_pos hb

theorem skipBlanks_of_blank {b : List Char} (hb : Blank b) : skipBlanks b = [] :=
  List.dropWhile_eq_nil_iff.2 hb

theorem skipBlanks_skipBlanks (s : List Char) : skipBlanks (skipBlanks s) = skipBlanks s :=
  List.dropWhile_idempotent _ _

/-- A text is its blanks and what follows them. -/
theorem exists_eq_append_skipBlanks (s : List Char) : ∃ b, Blank b ∧ s = b ++ skipBlanks s :=
  ⟨s.takeWhile isBlank, fun _ hc => List.mem_takeWhile_imp hc,
    List.takeWhile_append_dropWhile.symm⟩

theorem isBlank_of_all (h : s.all fun c => !isBlank c) : ∀ c ∈ s, isBlank c = false :=
  fun c hc => Bool.not_eq_true' _ ▸ List.all_eq_true.1 h c hc

theorem ends_skipBlanks (s : List Char) : Ends isBlank (skipBlanks s) := by
  intro c hc
  have hnot := List.head?_dropWhile_not isBlank s
  rwa [← skipBlanks, Option.mem_def.1 hc] at hnot

/-- Blanks around a text are trimmed off with its own. -/
theorem trimBlanks_append {b b' : List Char} (hb : Blank b) (hb' : Blank b') :
    trimBlanks (b ++ s ++ b') = trimBlanks s := by
  obtain ⟨a, ha, hs⟩ := exists_eq_append_skipBlanks s
  have hreverse : Blank b'.reverse := fun c hc => hb' c (List.mem_reverse.1 hc)
  have hskip : skipBlanks (b ++ s ++ b') = skipBlanks (skipBlanks s ++ b') := by
    rw [List.append_assoc, skipBlanks_append hb, hs, List.append_assoc, skipBlanks_append ha,
      skipBlanks_append ha, skipBlanks_skipBlanks]
  rw [trimBlanks, trimBlanks, hskip]
  have hends := ends_skipBlanks s
  cases hrest : skipBlanks s with
  | nil => rw [List.nil_append, skipBlanks_of_blank hb']
  | cons c t =>
    rw [hrest] at hends
    have hkept : skipBlanks (c :: t ++ b') = c :: t ++ b' := skipBlanks_of_ends hends
    rw [hkept, List.reverse_append, skipBlanks_append hreverse]

/-- What stands in front of a text without blanks is kept when it is trimmed. -/
theorem exists_trimBlanks_append (hs : s ≠ []) (hblank : ∀ c ∈ s, isBlank c = false)
    (r : List Char) : ∃ r', trimBlanks (s ++ r) = s ++ r' := by
  obtain ⟨b, hb, hr⟩ := exists_eq_append_skipBlanks r.reverse
  have hends : Ends isBlank (skipBlanks r.reverse ++ s.reverse) := by
    have hrest := ends_skipBlanks r.reverse
    cases h : skipBlanks r.reverse with
    | nil =>
      rw [List.nil_append, ← List.append_nil s.reverse]
      exact ends_append (fun hnil => hs (List.reverse_eq_nil_iff.1 hnil))
        fun c hc => hblank c (List.mem_reverse.1 hc)
    | cons c t =>
      rw [h] at hrest
      exact hrest
  refine ⟨(skipBlanks r.reverse).reverse, ?_⟩
  rw [trimBlanks, skipBlanks_of_ends (ends_append hs hblank), List.reverse_append, hr,
    List.append_assoc, skipBlanks_append hb, skipBlanks_append hb, skipBlanks_skipBlanks,
    skipBlanks_of_ends hends, List.reverse_append, List.reverse_reverse]

/-! ## Keywords -/

theorem keyword_append {word w : List Char} (hw : lowerAscii w = word) (hr : Ends p r) :
    keyword p word (w ++ r) = some r := by
  have hlength : word.length = w.length := by rw [← hw, lowerAscii, List.length_map]
  have hliteral : literalAnyCase word (w ++ r) = some r := by
    rw [literalAnyCase, hlength, List.take_left, List.drop_left, if_pos hw]
  rw [keyword, hliteral]
  cases r with
  | nil => rfl
  | cons c r =>
    dsimp only
    rw [ends_cons.1 hr, if_neg Bool.false_ne_true]

theorem keyword_cons_eq_none {k c : Char} {word : List Char} (h : c.toLower ≠ k) :
    keyword p (k :: word) (c :: s) = none := by
  have hliteral : literalAnyCase (k :: word) (c :: s) = none := by
    rw [literalAnyCase, if_neg]
    rw [List.length_cons, List.take_succ_cons, lowerAscii, List.map_cons]
    exact fun he => h (List.cons.inj he).1
  rw [keyword, hliteral]

theorem of_keyword {word : List Char} (h : keyword p word s = some r) :
    ∃ w, s = w ++ r ∧ lowerAscii w = word ∧ Ends p r := by
  rw [keyword] at h
  cases hliteral : literalAnyCase word s with
  | none =>
    rw [hliteral] at h
    exact absurd h (by simp)
  | some t =>
    rw [hliteral] at h
    rw [literalAnyCase, Option.ite_none_right_eq_some] at hliteral
    obtain ⟨hw, ht⟩ := hliteral
    have hs : s = s.take word.length ++ t := by
      rw [← Option.some.inj ht, List.take_append_drop]
    cases t with
    | nil =>
      obtain rfl := Option.some.inj h
      exact ⟨_, hs, hw, ends_nil⟩
    | cons c t =>
      dsimp only at h
      split at h
      · exact absurd h (by simp)
      · rename_i hc
        obtain rfl := Option.some.inj h
        exact ⟨_, hs, hw, ends_cons.2 (Bool.eq_false_iff.2 hc)⟩

/-! ## Repetition -/

variable {ε α : Type} {step : List Char → Except (Fault ε) (Option (α × List Char))}

/-- The rounds of a repetition: what the steps from one text to another one find
    before one finds nothing. -/
inductive Steps (step : List Char → Except (Fault ε) (Option (α × List Char))) :
    List Char → List α → List Char → Prop
  | done {s : List Char} : step s = .ok none → Steps step s [] s
  | next {s r t : List Char} {x : α} {xs : List α} : step s = .ok (some (x, r)) →
    r.length < s.length → Steps step r xs t → Steps step s (x :: xs) t

theorem manyWithin_eq_of_steps {s t : List Char} {xs : List α} (h : Steps step s xs t)
    {clock : List Char} (hclock : s.length ≤ clock.length) (found : List α) :
    manyWithin step clock found s = .ok (found.reverse ++ xs, t) := by
  -- Every round takes one character from the clock, and at least one from the text.
  induction h generalizing clock found with
  | done hs =>
    rw [List.append_nil]
    cases clock with
    | nil => rw [manyWithin]
    | cons c clock => rw [manyWithin, hs]
  | next hs hr _ ih =>
    cases clock with
    | nil => exact absurd (Nat.lt_of_lt_of_le hr hclock) (Nat.not_lt_zero _)
    | cons c clock =>
      rw [manyWithin, hs]
      dsimp only
      rw [ih (Nat.le_of_lt_succ (Nat.lt_of_lt_of_le hr hclock)), List.reverse_cons,
        List.append_assoc, List.singleton_append]

theorem many_eq_of_steps {s t : List Char} {xs : List α} (h : Steps step s xs t) :
    many step s = .ok (xs, t) := by
  rw [many, manyWithin_eq_of_steps h (Nat.le_refl _), List.reverse_nil, List.nil_append]

theorem steps_of_manyWithin (hnil : step [] = .ok none)
    (hshort : ∀ s x r, step s = .ok (some (x, r)) → r.length < s.length)
    {clock s t : List Char} {found ys : List α} (hclock : s.length ≤ clock.length)
    (h : manyWithin step clock found s = .ok (ys, t)) :
    ∃ xs, ys = found.reverse ++ xs ∧ Steps step s xs t := by
  induction clock generalizing found s with
  | nil =>
    obtain rfl := List.eq_nil_of_length_eq_zero (Nat.le_zero.1 hclock)
    rw [manyWithin] at h
    cases h
    exact ⟨[], (List.append_nil _).symm, .done hnil⟩
  | cons c clock ih =>
    rw [manyWithin] at h
    split at h
    · exact absurd h (by simp)
    · rename_i hs
      cases h
      exact ⟨[], (List.append_nil _).symm, .done hs⟩
    · rename_i x r hs
      have hr := hshort s x r hs
      obtain ⟨xs, rfl, hsteps⟩ := ih (Nat.le_of_lt_succ (Nat.lt_of_lt_of_le hr hclock)) h
      exact ⟨x :: xs, by rw [List.reverse_cons, List.append_assoc, List.singleton_append],
        .next hs hr hsteps⟩

theorem step_of_mem_manyWithin {clock s t : List Char} {found xs : List α} {x : α}
    (h : manyWithin step clock found s = .ok (xs, t)) (hx : x ∈ xs) :
    x ∈ found ∨ ∃ s r, step s = .ok (some (x, r)) := by
  induction clock generalizing found s with
  | nil =>
    rw [manyWithin] at h
    cases h
    exact .inl (List.mem_reverse.1 hx)
  | cons c clock ih =>
    rw [manyWithin] at h
    split at h
    · exact absurd h (by simp)
    · cases h
      exact .inl (List.mem_reverse.1 hx)
    · rename_i y r hs
      rcases ih h with hfound | hlater
      · rcases List.mem_cons.1 hfound with rfl | hfound
        · exact .inr ⟨s, r, hs⟩
        · exact .inl hfound
      · exact .inr hlater

/-- What a repetition gives was found by its steps. -/
theorem step_of_mem_many {s t : List Char} {xs : List α} {x : α} (h : many step s = .ok (xs, t))
    (hx : x ∈ xs) : ∃ s r, step s = .ok (some (x, r)) :=
  (step_of_mem_manyWithin h hx).resolve_left List.not_mem_nil

/-- A repetition goes through its rounds, if a step that finds something reads
    some of the text. -/
theorem many_eq_ok_iff (hnil : step [] = .ok none)
    (hshort : ∀ s x r, step s = .ok (some (x, r)) → r.length < s.length) {s t : List Char}
    {xs : List α} : many step s = .ok (xs, t) ↔ Steps step s xs t := by
  refine ⟨fun h => ?_, many_eq_of_steps⟩
  obtain ⟨_, rfl, hsteps⟩ := steps_of_manyWithin hnil hshort (Nat.le_refl _) h
  exact hsteps

theorem manyWithin_found (clock found s : List _) : manyWithin step clock found s =
    (manyWithin step clock [] s).map fun xt => (found.reverse ++ xt.1, xt.2) := by
  induction clock generalizing found s with
  | nil => rw [manyWithin, manyWithin, Except.map, List.reverse_nil, List.append_nil]
  | cons c clock ih =>
    rw [manyWithin, manyWithin]
    split
    · rfl
    · rw [Except.map, List.reverse_nil, List.append_nil]
    · rename_i x r _
      rw [ih (x :: found), ih [x]]
      cases manyWithin step clock [] r with
      | error e => rfl
      | ok xt => simp [Except.map]

/-- A clock that is long enough does not matter. -/
theorem manyWithin_clock (hnil : step [] = .ok none)
    (hshort : ∀ s x r, step s = .ok (some (x, r)) → r.length < s.length)
    {clock clock' s : List Char} (h : s.length ≤ clock.length) (h' : s.length ≤ clock'.length)
    (found : List α) : manyWithin step clock found s = manyWithin step clock' found s := by
  have hdone (clock : List Char) (found : List α) :
      manyWithin step clock found [] = .ok (found.reverse, []) := by
    cases clock with
    | nil => rw [manyWithin]
    | cons c clock => rw [manyWithin, hnil]
  induction clock generalizing clock' found s with
  | nil => rw [List.eq_nil_of_length_eq_zero (Nat.le_zero.1 h), hdone, hdone]
  | cons c clock ih =>
    cases clock' with
    | nil => rw [List.eq_nil_of_length_eq_zero (Nat.le_zero.1 h'), hdone, hdone]
    | cons c' clock' =>
      rw [manyWithin, manyWithin]
      split
      · rfl
      · rfl
      · rename_i x r hs
        have hr := hshort s x r hs
        exact ih (Nat.le_of_lt_succ (Nat.lt_of_lt_of_le hr h))
          (Nat.le_of_lt_succ (Nat.lt_of_lt_of_le hr h')) _

/-- A repetition by its first round, if a step that finds something reads some
    of the text. -/
theorem many_eq (hnil : step [] = .ok none)
    (hshort : ∀ s x r, step s = .ok (some (x, r)) → r.length < s.length) (s : List Char) :
    many step s = match step s with
      | .error e => .error e
      | .ok none => .ok ([], s)
      | .ok (some (x, r)) => (many step r).map fun xt => (x :: xt.1, xt.2) := by
  cases s with
  | nil => rw [hnil, many, manyWithin, List.reverse_nil]
  | cons c s =>
    rw [many, manyWithin]
    cases hs : step (c :: s) with
    | error e => rfl
    | ok found? =>
      cases found? with
      | none => rfl
      | some found =>
        have hr := Nat.le_of_lt_succ (hshort _ found.1 found.2 hs)
        dsimp only
        rw [manyWithin_found, manyWithin_clock hnil hshort hr (Nat.le_refl _)]
        rfl

/-! ## Bytes -/

theorem byteCount_cons (c : Char) (s : List Char) :
    byteCount (c :: s) = c.utf8Size + byteCount s := rfl

theorem byteCount_append (s r : List Char) : byteCount (s ++ r) = byteCount s + byteCount r := by
  induction s with
  | nil => exact (Nat.zero_add _).symm
  | cons c s ih => rw [List.cons_append, byteCount_cons, byteCount_cons, ih, Nat.add_assoc]

theorem length_le_byteCount (s : List Char) : s.length ≤ byteCount s := by
  induction s with
  | nil => exact Nat.le_refl _
  | cons c s ih =>
    rw [List.length_cons, byteCount_cons, Nat.add_comm]
    exact Nat.add_le_add c.utf8Size_pos ih

end Sift.Text
