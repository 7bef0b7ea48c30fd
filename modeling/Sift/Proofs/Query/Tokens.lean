import Sift.Proofs.Instant.Stamp
import Sift.Proofs.Query.Numbers
import Sift.Proofs.Results
import Sift.Query.Printer
import Sift.Query.Reader

/-!
# Tokens of queries

Names, comparators and operands read back from the text that they are written
in, whatever stands behind them: the end of the text, a blank, or a closing
parenthesis (`Boundary`).

* `readName_append`, `readComparator_name`: names and comparators;
* `readText_escape`: a text in quotes, in front of anything at all;
* `Operand.Printable`: the operands that can be written, and
  `readOperand_written`: that they read back.
-/

namespace Sift

open Text

/-- Whether nothing but the end of the text, a blank or a closing parenthesis
    starts here. -/
def Boundary (r : List Char) : Prop := Ends (fun c => c ≠ ' ' && c ≠ ')') r

/-- Words of a class without blanks and parentheses end at a boundary. -/
theorem Boundary.ends {r : List Char} {p : Char → Bool} (hr : Boundary r) (hblank : p ' ' = false)
    (hclose : p ')' = false) : Ends p r := fun c hc => by
  have h := hr c hc
  rw [Bool.and_eq_false_iff, decide_eq_false_iff_not, decide_eq_false_iff_not, not_not,
    not_not] at h
  rcases h with rfl | rfl
  · exact hblank
  · exact hclose

/-- Operands that a query can have: finite numbers, and instants that are
    written in full. -/
def Operand.Printable : Operand → Prop
  | number d => d.isFinite
  | date i => i.Displayable
  | boolean _ | text _ | list _ => True

namespace Query

variable {r : List Char}

/-! ## Classes of characters -/

/-- No blank is a letter or a digit. -/
theorem isAlphanumeric_of_isBlank {c : Char} (h : isBlank c) : isAlphanumeric c = false := by
  have hall : ∀ n ∈ [9, 10, 11, 12, 13, 0x20, 0x85, 0xA0, 0x1680, 0x2000, 0x2001, 0x2002, 0x2003,
      0x2004, 0x2005, 0x2006, 0x2007, 0x2008, 0x2009, 0x200A, 0x2028, 0x2029, 0x202F, 0x205F,
      0x3000], isAlphanumeric (Char.ofNat n) = false := by
    decide +kernel
  rw [← Char.ofNat_toNat c]
  refine hall _ ?_
  simp only [isBlank, Bool.or_eq_true, Bool.and_eq_true, decide_eq_true_eq, beq_iff_eq] at h
  simp only [List.mem_cons, List.not_mem_nil, or_false]
  omega

theorem isBlank_of_isNameCharacter {c : Char} (h : isNameCharacter c) : isBlank c = false := by
  by_contra hblank
  rw [Bool.not_eq_false] at hblank
  rw [isNameCharacter, isAlphanumeric_of_isBlank hblank, Bool.false_or, Bool.or_eq_true,
    decide_eq_true_eq, decide_eq_true_eq] at h
  rcases h with rfl | rfl
  · exact absurd hblank (by decide)
  · exact absurd hblank (by decide)

theorem isNameCharacter_of_isComparatorCharacter {c : Char} (h : isComparatorCharacter c) :
    isNameCharacter c := by
  rw [isComparatorCharacter, Bool.or_eq_true, Bool.or_eq_true, decide_eq_true_eq] at h
  rw [isNameCharacter, Bool.or_eq_true, Bool.or_eq_true, decide_eq_true_eq]
  rcases h with h | h
  · have hlow : c.toNat < 0x80 := by
      rcases h with h | h
      · rw [Bool.and_eq_true, decide_eq_true_eq, decide_eq_true_eq] at h
        exact Nat.lt_of_le_of_lt h.2 (by decide)
      · rw [Bool.and_eq_true, decide_eq_true_eq, decide_eq_true_eq] at h
        exact Nat.lt_of_le_of_lt h.2 (by decide)
    refine .inl (.inl ?_)
    rw [isAlphanumeric, if_pos hlow, isAsciiAlphanumeric, Bool.or_assoc, Bool.or_eq_true,
      Bool.or_eq_true]
    exact .inr h
  · exact .inl (.inr h)

/-- The characters of words do not depend on the letter case. -/
theorem isComparatorCharacter_of_toLower {c : Char} (h : isComparatorCharacter c.toLower) :
    isComparatorCharacter c := by
  unfold Char.toLower at h
  split at h
  · rename_i hc
    rw [isComparatorCharacter, Bool.or_eq_true, Bool.or_eq_true, Bool.and_eq_true,
      decide_eq_true_eq, decide_eq_true_eq]
    exact .inl (.inl hc)
  · exact h

/-! ## Names and comparators -/

theorem readName_append {w : List Char} (hw : w ≠ []) (h : ∀ c ∈ w, isNameCharacter c)
    (hr : Ends isNameCharacter r) : readName (w ++ r) = .ok (String.ofList w, r) := by
  have hskip : skipBlanks (w ++ r) = w ++ r :=
    skipBlanks_of_ends (ends_append hw fun c hc => isBlank_of_isNameCharacter (h c hc))
  rw [readName, hskip]
  split
  · rename_i s he
    -- No name has a backtick.
    obtain ⟨c, w, rfl⟩ := List.exists_cons_of_ne_nil hw
    rw [(List.cons.inj he).1] at h
    exact absurd (h _ List.mem_cons_self) (by decide)
  · rw [wordOf_append h hr]
    split
    · rename_i he
      exact absurd (Prod.mk.inj he).1 hw
    · rename_i he
      rw [← (Prod.mk.inj he).1, ← (Prod.mk.inj he).2]

theorem readComparator_append {w : List Char} (hw : w ≠ []) (h : ∀ c ∈ w, isComparatorCharacter c)
    (hr : Ends isComparatorCharacter r) : readComparator (w ++ r) = .ok (.ofWord w, r) := by
  have hskip : skipBlanks (w ++ r) = w ++ r :=
    skipBlanks_of_ends (ends_append hw fun c hc =>
      isBlank_of_isNameCharacter (isNameCharacter_of_isComparatorCharacter (h c hc)))
  have hhead {c : Char} {s : List Char} (he : w ++ r = c :: s) : isComparatorCharacter c := by
    obtain ⟨d, w, rfl⟩ := List.exists_cons_of_ne_nil hw
    exact (List.cons.inj he).1 ▸ h d List.mem_cons_self
  rw [readComparator, hskip]
  split
  -- The six symbols start with characters that are in no name.
  iterate 6
    rename_i he
    exact absurd (hhead he) (by decide)
  rw [wordOf_append h hr]
  split
  · rename_i he
    exact absurd (Prod.mk.inj he).1 hw
  · rename_i he
    rw [← (Prod.mk.inj he).1, ← (Prod.mk.inj he).2]

theorem readComparator_name (c : Comparator) (hr : Ends isComparatorCharacter r) :
    readComparator (' ' :: (c.name.toList ++ r)) = .ok (c, r) := by
  have hword : c.name.toList ≠ [] ∧ c.name.toList.all isComparatorCharacter ∧
      Comparator.ofWord c.name.toList = c := by
    cases c <;> decide
  have hread := readComparator_append hword.1 (List.all_eq_true.1 hword.2.1) hr
  rwa [hword.2.2] at hread

/-! ## Operands -/

/-- Escaped characters read back in front of anything. -/
theorem readText_escape (s : List Char) : readText (s.flatMap escape ++ '"' :: r) = .ok (s, r) := by
  induction s with
  | nil => rw [List.flatMap_nil, List.nil_append, readText]
  | cons c s ih =>
    rw [List.flatMap_cons, List.append_assoc, escape]
    split
    · rw [List.cons_append, List.cons_append, List.nil_append, readText, ih]
      rfl
    · rename_i hc
      rw [not_or] at hc
      rw [List.cons_append, List.nil_append, readText, ih]
      · rfl
      · exact hc.1
      · exact fun _ _ he _ => hc.2 he

theorem quote_append (s r : List Char) : quote s ++ r = '"' :: (s.flatMap escape ++ '"' :: r) := by
  rw [quote, List.cons_append, List.cons_append, List.append_assoc, List.singleton_append]

theorem readItem_quote (s : String) : readItem (quote s.toList ++ r) = .ok (s, r) := by
  rw [quote_append, readItem, skipBlanks_of_ends (ends_cons.2 rfl)]
  change (readText _).map _ = _
  exact Except.map_eq_ok.2 ⟨_, readText_escape s.toList, by simp only [String.ofList_toList]⟩

theorem steps_writtenMore (names : List String) :
    Steps nextItem (Operand.writtenMore names ++ ']' :: r) names (']' :: r) := by
  induction names with
  | nil =>
    rw [Operand.writtenMore, List.nil_append]
    exact .done rfl
  | cons s names ih =>
    rw [Operand.writtenMore, List.cons_append, List.cons_append, List.cons_append,
      List.cons_append, List.append_assoc]
    -- A comma and a blank, the name in quotes, and on with the others.
    refine .next ?_ ?_ ih
    · change (readItem (quote s.toList ++ _)).map some = _
      rw [readItem_quote, Except.map]
    · simp only [List.length_cons, List.length_append]
      omega

theorem readOperand_list (names : List String) :
    readOperand (' ' :: ((Operand.list names).written ++ r)) = .ok (.list names, r) := by
  cases names with
  | nil => rfl
  | cons s names =>
    rw [Operand.written, List.cons_append, List.cons_append, List.cons_append, List.append_assoc,
      List.append_assoc]
    change (readList _).map _ = _
    refine Except.map_eq_ok.2 ⟨(s :: names, r), ?_, rfl⟩
    rw [readList, skipBlanks_of_ends (quote_append _ _ ▸ ends_cons.2 rfl)]
    split
    · rename_i he
      rw [quote_append] at he
      exact absurd (List.cons.inj he).1 (by decide)
    · refine Except.bind_eq_ok.2 ⟨_, readItem_quote s, ?_⟩
      exact Except.bind_eq_ok.2 ⟨_, many_eq_of_steps (steps_writtenMore names), rfl⟩

theorem readOperand_text (s : String) :
    readOperand (' ' :: ((Operand.text s).written ++ r)) = .ok (.text s, r) := by
  rw [Operand.written, quote_append]
  change (readText _).map _ = _
  exact Except.map_eq_ok.2 ⟨_, readText_escape s.toList, by simp only [String.ofList_toList]⟩

theorem readOperand_space {s : List Char} : readOperand (' ' :: s) = readOperand s := by
  rw [readOperand, readOperand, skipBlanks_space]

theorem readOperand_bare {c : Char} {s : List Char} (hblank : isBlank c = false) (hquote : c ≠ '"')
    (hbracket : c ≠ '[') :
    readOperand (c :: s) =
      match keyword isWordCharacter "true".toList (c :: s),
        keyword isWordCharacter "false".toList (c :: s) with
      | some r, _ => .ok (.boolean true, r)
      | none, some r => .ok (.boolean false, r)
      | none, none => readNumber (c :: s) := by
  rw [readOperand, skipBlanks_of_ends (ends_cons.2 hblank)]
  split
  · rename_i he
    exact absurd (List.cons.inj he).1 hquote
  · rename_i he
    exact absurd (List.cons.inj he).1 hbracket
  · rfl

/-- The words of the truth values are read in any ASCII letter case. -/
theorem readOperand_word {b : Bool} {w : List Char}
    (hw : lowerAscii w = if b then "true".toList else "false".toList)
    (hr : Ends isWordCharacter r) : readOperand (w ++ r) = .ok (.boolean b, r) := by
  have hne : w ≠ [] := by
    rintro rfl
    cases b <;> exact absurd hw (by decide)
  obtain ⟨c, w, rfl⟩ := List.exists_cons_of_ne_nil hne
  have hlower : c.toLower = if b then 't' else 'f' := by
    cases b <;> exact (List.cons.inj hw).1
  have hc : isComparatorCharacter c := by
    refine isComparatorCharacter_of_toLower ?_
    rw [hlower]
    cases b <;> decide
  have hbare := readOperand_bare (s := w ++ r)
    (isBlank_of_isNameCharacter (isNameCharacter_of_isComparatorCharacter hc))
    (by rintro rfl; exact absurd hc (by decide)) (by rintro rfl; exact absurd hc (by decide))
  rw [List.cons_append, hbare, ← List.cons_append]
  cases b with
  | true =>
    have hread : keyword isWordCharacter "true".toList (c :: w ++ r) = some r :=
      keyword_append hw hr
    rw [hread]
  | false =>
    have hread : keyword isWordCharacter "false".toList (c :: w ++ r) = some r :=
      keyword_append hw hr
    have hnone : keyword isWordCharacter "true".toList (c :: w ++ r) = none :=
      keyword_cons_eq_none (by rw [hlower]; decide)
    rw [hnone, hread]

theorem readOperand_boolean (b : Bool) (hr : Boundary r) :
    readOperand (' ' :: ((Operand.boolean b).written ++ r)) = .ok (.boolean b, r) := by
  rw [readOperand_space, Operand.written]
  exact readOperand_word (by cases b <;> rfl) (hr.ends (by decide) (by decide))

/-- What starts like a number is no text, no list and no truth value. -/
theorem readOperand_eq_readNumber {c : Char} (hstart : isDigit c ∨ c = '-' ∨ c = '+' ∨ c = '.')
    (s : List Char) : readOperand (c :: s) = readNumber (c :: s) := by
  have hbare : isBlank c = false ∧ c ≠ '"' ∧ c ≠ '[' ∧ c.toLower ≠ 't' ∧ c.toLower ≠ 'f' := by
    rcases hstart with hc | rfl | rfl | rfl
    · have htest := of_isDigit (p := fun c => !isBlank c && c != '"' && c != '[' &&
        c.toLower != 't' && c.toLower != 'f') (by decide) hc
      simpa [and_assoc] using htest
    · decide
    · decide
    · decide
  obtain ⟨hblank, hquote, hbracket, ht, hf⟩ := hbare
  have htrue : keyword isWordCharacter "true".toList (c :: s) = none := keyword_cons_eq_none ht
  have hfalse : keyword isWordCharacter "false".toList (c :: s) = none := keyword_cons_eq_none hf
  rw [readOperand_bare hblank hquote hbracket, htrue, hfalse]

theorem readNumber_append {w : List Char} (hne : w ≠ []) (h : ∀ c ∈ w, isNumberCharacter c)
    (hr : Ends isNumberCharacter r) :
    readNumber (w ++ r) =
      match Double.ofText? w with
      | some d => .ok (.number d, r)
      | none =>
        match Instant.ofText? w with
        | some i => .ok (.date i, r)
        | none => stopAt .invalidNumber r := by
  rw [readNumber, wordOf_append h hr]
  split
  · rename_i he
    exact absurd (Prod.mk.inj he).1 hne
  · rename_i he
    cases he
    rfl

/-- A run of the characters of numbers reads as a number, or else as a date. -/
theorem readOperand_run {c : Char} {w : List Char} {x : Operand}
    (hstart : isDigit c ∨ c = '-' ∨ c = '+' ∨ c = '.') (h : ∀ d ∈ c :: w, isNumberCharacter d)
    (hx : (Double.ofText? (c :: w)).map .number = some x ∨
      Double.ofText? (c :: w) = none ∧ (Instant.ofText? (c :: w)).map .date = some x)
    (hr : Ends isNumberCharacter r) : readOperand (c :: w ++ r) = .ok (x, r) := by
  rw [List.cons_append, readOperand_eq_readNumber hstart, ← List.cons_append,
    readNumber_append (List.cons_ne_nil _ _) h hr]
  rcases hx with hx | ⟨hnumber, hx⟩
  · obtain ⟨d, hd, rfl⟩ := Option.map_eq_some_iff.1 hx
    rw [hd]
  · obtain ⟨i, hi, rfl⟩ := Option.map_eq_some_iff.1 hx
    rw [hnumber, hi]

theorem isNumberCharacter_of_isDigit {c : Char} (h : isDigit c) : isNumberCharacter c :=
  of_isDigit (by decide) h

theorem readOperand_number {d : Double} (hd : d.isFinite) (hr : Boundary r) :
    readOperand (' ' :: (d.plain ++ r)) = .ok (.number d, r) := by
  have hread := Double.ofText?_plain hd
  obtain ⟨c, w, hplain⟩ := List.exists_cons_of_ne_nil (Double.plain_ne_nil hd)
  have hmem {x : Char} (hx : x ∈ c :: w) : isDigit x ∨ x = '-' ∨ x = '.' :=
    Double.of_mem_plain hd (hplain ▸ hx)
  rw [hplain] at hread ⊢
  rw [readOperand_space]
  have hstart : isDigit c ∨ c = '-' ∨ c = '+' ∨ c = '.' :=
    (hmem List.mem_cons_self).imp_right (Or.imp_right .inr)
  refine readOperand_run hstart (fun x hx => ?_) (.inl ?_) (hr.ends (by decide) (by decide))
  · rcases hmem hx with hx | rfl | rfl
    · exact isNumberCharacter_of_isDigit hx
    · rfl
    · rfl
  · rw [hread, Option.map_some]

theorem isNumberCharacter_of_mem_displayed {i : Instant} {c : Char} (hc : c ∈ i.displayed) :
    isNumberCharacter c := by
  rcases Instant.of_mem_displayed hc with hc | rfl | rfl | rfl | rfl | rfl
  · exact isNumberCharacter_of_isDigit hc
  all_goals rfl

/-- A displayed instant is read as a run of the characters of dates, whether or
    not it reads back. -/
theorem readOperand_displayed (i : Instant) (r : List Char) :
    readOperand (' ' :: (i.displayed ++ r)) = readNumber (i.displayed ++ r) := by
  obtain ⟨c, s, hdisplayed, hc⟩ := i.exists_displayed_eq
  rw [readOperand_space, hdisplayed]
  exact readOperand_eq_readNumber (hc.imp_right (Or.imp_right .inl)) _

theorem displayed_ne_nil (i : Instant) : i.displayed ≠ [] := by
  obtain ⟨c, s, hdisplayed, -⟩ := i.exists_displayed_eq
  exact hdisplayed ▸ List.cons_ne_nil c s

theorem readOperand_date {i : Instant} (hi : i.Displayable) (hr : Boundary r) :
    readOperand (' ' :: (i.displayed ++ r)) = .ok (.date i, r) := by
  have hcharacters : ∀ c ∈ i.displayed, isNumberCharacter c :=
    fun _ => isNumberCharacter_of_mem_displayed
  have hread := Instant.ofText?_displayed hi
  rw [readOperand_displayed, readNumber_append (displayed_ne_nil i) hcharacters
    (hr.ends (by decide) (by decide)), ofText?_eq_none_of_date hread hcharacters, hread]

/-- A printable operand reads back in front of a boundary. -/
theorem readOperand_written {x : Operand} (hx : x.Printable) (hr : Boundary r) :
    readOperand (' ' :: (x.written ++ r)) = .ok (x, r) := by
  cases x with
  | boolean b => exact readOperand_boolean b hr
  | number d => exact readOperand_number hx hr
  | text s => exact readOperand_text s
  | list names => exact readOperand_list names
  | date i => exact readOperand_date hx hr

end Query

end Sift
