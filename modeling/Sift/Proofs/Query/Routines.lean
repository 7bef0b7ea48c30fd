import Mathlib.Data.String.Basic
import Sift.Proofs.Text.Reader
import Sift.Query.Cursor

/-!
# Where a cursor goes

A cursor never goes back, and wherever it moves or looks no character is split.
What a routine does is what a reader does on the text ahead of the cursor, whose
place follows from how much of the text is left. A step, one routine after the
other and a loop keep all this, so it holds of whatever is made of them.

* `Goes`: the logs of a cursor on its way from one place to another one;
* `Setting.place`: the place where a text is ahead of the cursor, and
  `isBoundary_place`: that no character is split there;
* `Follows`: whether a routine does what a reader does;
* `follows_advance`, `follows_cut`: single steps;
* `Follows.bind`, `follows_loop`: routines one after the other, and loops.
-/

namespace Sift.Query.Cursor

open Text

variable {α β : Type}

/-! ## Logs -/

/-- What a cursor notes on its way from one place of a text to another one: it
    looks only between characters and moves only forwards, and a further round
    or an expression in parentheses begins where the cursor stands, past the
    beginning of the last round or the outer expression. -/
inductive Goes (text : String) : Nat → List Event → Nat → Prop
  | stays {p : Nat} : isBoundary text p → Goes text p [] p
  | looks {p q r : Nat} {log : List Event} : isBoundary text q → Goes text p log r →
    Goes text p (.look q :: log) r
  | moves {p q r : Nat} {log : List Event} : isBoundary text p → p ≤ q → Goes text q log r →
    Goes text p (.move p q :: log) r
  | rounds {p q r : Nat} {log : List Event} : q < p → Goes text p log r →
    Goes text p (.round q p :: log) r
  | nests {p q r : Nat} {log : List Event} : q < p → Goes text p log r →
    Goes text p (.nested q p :: log) r

namespace Goes

variable {text : String} {p q r : Nat} {log log' : List Event}

theorem append (h : Goes text p log q) (h' : Goes text q log' r) :
    Goes text p (log ++ log') r := by
  induction h with
  | stays _ => exact h'
  | looks hq _ ih => exact .looks hq (ih h')
  | moves hp hpq _ ih => exact .moves hp hpq (ih h')
  | rounds hq _ ih => exact .rounds hq (ih h')
  | nests hq _ ih => exact .nests hq (ih h')

theorem isBoundary (h : Goes text p log q) : isBoundary text p ∧ isBoundary text q := by
  induction h with
  | stays hp => exact ⟨hp, hp⟩
  | looks _ _ ih => exact ih
  | moves hp _ _ ih => exact ⟨hp, ih.2⟩
  | rounds _ _ ih => exact ih
  | nests _ _ ih => exact ih

end Goes

/-! ## Places -/

theorem byteCount_eq_utf8Len (s : List Char) : byteCount s = String.utf8Len s := by
  induction s with
  | nil => rfl
  | cons c s ih => rw [byteCount_cons, ih, String.utf8Len_cons, Nat.add_comm]

theorem byteCount_toList (text : String) : byteCount text.toList = text.utf8ByteSize := by
  rw [byteCount_eq_utf8Len, String.utf8Len_toList]

theorem isBoundary_iff {text : String} {p : Nat} : isBoundary text p ↔
    ∃ b s, text.toList = b ++ s ∧ p = byteCount b := by
  rw [isBoundary, String.Pos.Raw.isValid_eq_true_iff, String.Pos.Raw.isValid_iff_exists_append]
  constructor
  · rintro ⟨b, s, rfl, h⟩
    refine ⟨b.toList, s.toList, String.toList_append, ?_⟩
    rw [byteCount_toList]
    exact congrArg String.Pos.Raw.byteIdx h
  · rintro ⟨b, s, h, rfl⟩
    refine ⟨String.ofList b, String.ofList s, ?_, ?_⟩
    · rw [← String.ofList_append, ← h, String.ofList_toList]
    · rw [byteCount_eq_utf8Len, String.rawEndPos_ofList]

variable {setting : Setting} {s t r w : List Char}

/-- The place where `s`, which the text ends with, is ahead of the cursor. -/
def Setting.place (setting : Setting) (s : List Char) : Nat :=
  setting.text.utf8ByteSize - byteCount s

theorem place_eq (b : List Char) (h : setting.text.toList = b ++ s) :
    setting.place s = byteCount b := by
  rw [Setting.place, ← byteCount_toList, h, byteCount_append, Nat.add_sub_cancel]

theorem place_text : setting.place setting.text.toList = 0 := by
  rw [Setting.place, byteCount_toList, Nat.sub_self]

theorem place_nil : setting.place [] = setting.text.utf8ByteSize := rfl

theorem isBoundary_place (h : s <:+ setting.text.toList) :
    isBoundary setting.text (setting.place s) := by
  obtain ⟨b, hb⟩ := h
  exact isBoundary_iff.2 ⟨b, s, hb.symm, place_eq b hb.symm⟩

theorem place_append (h : w ++ s <:+ setting.text.toList) :
    setting.place s = setting.place (w ++ s) + byteCount w := by
  obtain ⟨b, hb⟩ := h
  rw [place_eq b hb.symm, place_eq (b ++ w) (by rw [List.append_assoc, hb]), byteCount_append]

theorem place_lt (h : w ++ s <:+ setting.text.toList) (hw : w ≠ []) :
    setting.place (w ++ s) < setting.place s := by
  rw [place_append h]
  exact Nat.lt_add_of_pos_right
    (Nat.lt_of_lt_of_le (List.length_pos_of_ne_nil hw) (length_le_byteCount w))

/-- Whether a cursor has a text ahead of it, with enough time for a loop to go
    over all of its characters. -/
structure Ahead (setting : Setting) (s : List Char) : Prop where
  suffix : s <:+ setting.text.toList
  length_lt : s.length < setting.clock

theorem Ahead.of_suffix (h : Ahead setting s) (ht : t <:+ s) : Ahead setting t :=
  ⟨ht.trans h.suffix, Nat.lt_of_le_of_lt ht.length_le h.length_lt⟩

/-! ## Routines and readers -/

/-- Whether a trip from the place where `s` is ahead comes to what a reader
    gives on `s`. -/
inductive Outcome (setting : Setting) (s : List Char) :
    Trip α → Except (Fault Reason) (α × List Char) → Prop
  | value {x : α} {t : List Char} {log : List Event} : t <:+ s →
    Goes setting.text (setting.place s) log (setting.place t) →
    Outcome setting s ⟨log, .value x (setting.place t)⟩ (.ok (x, t))
  | failure {f : Fault Reason} {log : List Event} :
    Goes setting.text (setting.place s) log (f.offset setting.text.toList) →
    Outcome setting s ⟨log, .failure ⟨f.reason, f.offset setting.text.toList⟩⟩ (.error f)

/-- Whether a routine does on the text `s` ahead of the cursor what a reader
    does that gives `result` on it. -/
def Follows (setting : Setting) (m : Routine α) (s : List Char)
    (result : Except (Fault Reason) (α × List Char)) : Prop :=
  Ahead setting s → Outcome setting s (m setting (setting.place s)) result

variable {result : Except (Fault Reason) (α × List Char)}
  {result' : Except (Fault Reason) (β × List Char)} {m : Routine α} {next : α → Routine β}

theorem follows_pure (x : α) : Follows setting (pure x) s (.ok (x, s)) := fun h =>
  .value (List.suffix_refl s) (.stays (isBoundary_place h.suffix))

/-- A routine leaves an end of the text ahead. -/
theorem Follows.suffix {x : α} (hm : Follows setting m s (.ok (x, t))) (h : Ahead setting s) :
    t <:+ s := by
  have hend := hm h
  generalize m setting (setting.place s) = trip at hend
  cases hend with
  | value ht _ => exact ht

theorem Follows.bind {g : α × List Char → Except (Fault Reason) (β × List Char)}
    (hm : Follows setting m s result)
    (hnext : ∀ x t, result = .ok (x, t) → t <:+ s → Follows setting (next x) t (g (x, t))) :
    Follows setting (m >>= next) s (result >>= g) := by
  intro h
  have hfirst := hm h
  change Outcome setting s (m.andThen next setting (setting.place s)) _
  rw [Routine.andThen]
  generalize m setting (setting.place s) = trip at hfirst
  cases hfirst with
  | failure hgoes => exact .failure hgoes
  | @value x t log ht hgoes =>
    have hsecond := hnext x t rfl ht (h.of_suffix ht)
    change Outcome setting s _ (g (x, t))
    dsimp only
    generalize next x setting (setting.place t) = trip at hsecond
    generalize g (x, t) = final at hsecond
    cases hsecond with
    | failure hgoes' => exact .failure (hgoes.append hgoes')
    | value hu hgoes' => exact .value (hu.trans ht) (hgoes.append hgoes')

/-- A routine that gives a value, and what follows. -/
theorem Follows.then {x : α} (hm : Follows setting m s (.ok (x, t)))
    (hnext : t <:+ s → Follows setting (next x) t result') :
    Follows setting (m >>= next) s result' :=
  hm.bind (g := fun _ => result') fun _ _ he ht => by
    cases he
    exact hnext ht

/-- A routine that fails, and what would follow. -/
theorem Follows.stop {f : Fault Reason} (hm : Follows setting m s (.error f)) :
    Follows setting (m >>= next) s (.error f) :=
  hm.bind (g := fun _ => .error f) fun _ _ he => nomatch he

/-- A test that is passed, and what follows then. -/
theorem Follows.yes {test : Routine Bool} {yes no : Routine α}
    (htest : Follows setting test s (.ok (true, t)))
    (hyes : t <:+ s → Follows setting yes t result) :
    Follows setting (test >>= fun answer => if answer then yes else no) s result :=
  htest.then fun ht => hyes ht

/-- A test that is not passed, and what follows then. -/
theorem Follows.no {test : Routine Bool} {yes no : Routine α}
    (htest : Follows setting test s (.ok (false, t)))
    (hno : t <:+ s → Follows setting no t result) :
    Follows setting (test >>= fun answer => if answer then yes else no) s result :=
  htest.then fun ht => hno ht

theorem Follows.map {f : α → β} (hm : Follows setting m s result) :
    Follows setting (m >>= fun x => pure (f x)) s (result.map fun xt => (f xt.1, xt.2)) := by
  have hall : Follows setting (m >>= fun x => pure (f x)) s
      (result >>= fun xt => .ok (f xt.1, xt.2)) := hm.bind fun x t _ _ => follows_pure (f x)
  cases result with
  | error f => exact hall
  | ok xt => exact hall

/-! ## Steps -/

theorem follows_setting : Follows setting Cursor.setting s (.ok (setting, s)) := fun h =>
  .value (List.suffix_refl s) (.stays (isBoundary_place h.suffix))

theorem follows_here : Follows setting here s (.ok (setting.place s, s)) := fun h =>
  .value (List.suffix_refl s) (.stays (isBoundary_place h.suffix))

theorem follows_size : Follows setting size s (.ok (setting.text.utf8ByteSize, s)) :=
  follows_setting.map

theorem follows_fail (reason : Reason) :
    Follows setting (fail reason) s (stopAt reason s : Except _ (α × List Char)) := fun h => by
  have hplace : Fault.offset ⟨reason, s, 0⟩ setting.text.toList = setting.place s := by
    rw [Fault.offset, byteCount_toList, Nat.add_zero, Nat.min_eq_right (Nat.sub_le _ _),
      Setting.place]
  have hgoes : Goes setting.text (setting.place s) []
      (Fault.offset ⟨reason, s, 0⟩ setting.text.toList) :=
    hplace.symm ▸ .stays (isBoundary_place h.suffix)
  have hfail := Outcome.failure (α := α) hgoes
  rwa [hplace] at hfail

theorem follows_advance {count : Nat} (hcount : count = byteCount w) :
    Follows setting (advance count) (w ++ s) (.ok ((), s)) := fun h => by
  have hplace := place_append h.suffix
  have hs := (List.suffix_append w s).trans h.suffix
  rw [advance, hcount, ← hplace]
  exact .value (List.suffix_append w s) (.moves (isBoundary_place h.suffix)
    (hplace ▸ Nat.le_add_right _ _) (.stays (isBoundary_place hs)))

theorem follows_advance_char (c : Char) {count : Nat} (hcount : count = c.utf8Size) :
    Follows setting (advance count) (c :: s) (.ok ((), s)) :=
  follows_advance (w := [c]) hcount

/-- A further round of a loop, or an expression in parentheses, is noted where
    it begins. -/
theorem follows_note {before : Nat} (hbefore : before < setting.place s) :
    Follows setting (note (.round before (setting.place s))) s (.ok ((), s)) ∧
      Follows setting (note (.nested before (setting.place s))) s (.ok ((), s)) :=
  ⟨fun h => .value (List.suffix_refl s) (.rounds hbefore (.stays (isBoundary_place h.suffix))),
    fun h => .value (List.suffix_refl s) (.nests hbefore (.stays (isBoundary_place h.suffix)))⟩

/-- What is cut out of the text between two places. -/
theorem follows_cut (hr : r <:+ setting.text.toList) (hw : w ++ t = r) :
    Follows setting (cut (setting.place r) (setting.place t)) s (.ok (String.ofList w, s)) :=
  fun h => by
  subst hw
  have hstart := isBoundary_place hr
  have hstop := isBoundary_place ((List.suffix_append w t).trans hr)
  have hplace := place_append hr
  have hle : setting.place (w ++ t) ≤ setting.place t := hplace ▸ Nat.le_add_right _ _
  have hextract : String.Pos.Raw.extract setting.text ⟨setting.place (w ++ t)⟩
      ⟨setting.place t⟩ = String.ofList w := by
    obtain ⟨b, hb⟩ := hr
    have htext : setting.text = String.ofList (b ++ w ++ t) := by
      rw [List.append_assoc, hb, String.ofList_toList]
    rw [hplace, place_eq b hb.symm, byteCount_eq_utf8Len, byteCount_eq_utf8Len, htext,
      String.extract_of_valid]
  rw [cut, if_pos (by simp [hstart, hstop, hle]), hextract]
  exact .value (List.suffix_refl s)
    (.looks hstart (.looks hstop (.stays (isBoundary_place h.suffix))))

/-! ## Loops -/

variable {round : β → Routine (β ⊕ α)} {b b' : β} {n : Nat} {x : α}

/-- A round that ends a loop. -/
theorem Follows.last (hround : Follows setting (round b) s (.ok (.inr x, t))) :
    Follows setting (loopWithin round (n + 1) b) s (.ok (x, t)) :=
  follows_here.then fun _ => hround.then fun _ => follows_pure x

/-- A round in which a loop fails. -/
theorem Follows.fails {f : Fault Reason} (hround : Follows setting (round b) s (.error f)) :
    Follows setting (loopWithin round (n + 1) b) s (.error f) :=
  follows_here.then fun _ => hround.stop

/-- A round after which a loop goes on with less of the text ahead. -/
theorem Follows.again (hround : Follows setting (round b) s (.ok (.inl b', t)))
    (ht : t.length < s.length) (hrest : Follows setting (loopWithin round n b') t result) :
    Follows setting (loopWithin round (n + 1) b) s result := fun h => by
  refine (follows_here.then fun _ => hround.then fun hsuffix => follows_here.then fun _ => ?_) h
  obtain ⟨w, rfl⟩ := hsuffix
  refine (follows_note (place_lt h.suffix ?_)).1.then fun _ => hrest
  rintro rfl
  exact Nat.lt_irrefl _ ht

/-- A loop, if it does its work on every clock that is long enough. -/
theorem follows_loop
    (h : ∀ n, s.length < n → Follows setting (loopWithin round n b) s result) :
    Follows setting (loop round b) s result := fun hs =>
  (follows_setting.then fun _ => h _ hs.length_lt) hs

end Sift.Query.Cursor
