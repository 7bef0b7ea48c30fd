import Sift.Proofs.Query.Lookahead
import Sift.Proofs.Query.Spelling

/-!
# Conditions under a cursor

The routines for the parts of a condition do what the readers of the same parts
do. Where a reader recurses, a routine goes round: its rounds end, since each of
them but the last leaves less of the text ahead.

* `follows_name`, `follows_comparator`, `follows_operand`: the parts of a
  condition;
* `follows_textLoop`, `follows_listLoop`: the rounds of texts and lists;
* `follows_condition`: conditions.
-/

namespace Sift.Query.Cursor

open Text

variable {setting : Setting} {s t r : List Char}

/-! ## Names and comparators -/

theorem follows_name : Follows setting name s (readName s) := by
  refine follows_skip.then fun _ => ?_
  rw [readName]
  split
  · rename_i r hskip
    rw [hskip]
    refine (follows_matchChar_cons _ _).yes fun _ h => ?_
    refine (follows_here.then fun _ => (follows_skipWhile fun _ _ => rfl).then fun _ =>
      follows_here.then fun _ =>
        (follows_cut h.suffix List.takeWhile_append_dropWhile).then fun _ => ?_) h
    rw [wordOf]
    split
    · rename_i u he
      obtain ⟨rfl, hu⟩ := Prod.mk.inj he
      rw [hu]
      exact (follows_matchChar_cons _ _).yes fun _ => follows_pure _
    · rename_i hne he
      obtain ⟨rfl, rfl⟩ := Prod.mk.inj he
      exact (follows_matchChar_of_ne fun u hu => hne u hu).no fun _ => follows_fail _
  · rename_i hne
    refine (follows_matchChar_of_ne hne).no fun _ => ?_
    split
    · rename_i hword
      exact follows_word_of_nil _ (fun _ _ => rfl) hword
    · rename_i hw hword
      exact follows_word_of_ne_nil _ (fun _ _ => rfl) hword hw

theorem utf8Size_eq_one {c : Char} (h : c.toNat < 0x80) : c.utf8Size = 1 :=
  Char.utf8Size_eq_one_iff.2 (UInt32.le_iff_toNat_le.2 (Nat.le_of_lt_succ h))

theorem utf8Size_of_isComparatorCharacter {c : Char} (h : isComparatorCharacter c) :
    1 = c.utf8Size := by
  rw [isComparatorCharacter] at h
  simp only [Bool.or_eq_true, Bool.and_eq_true, decide_eq_true_eq] at h
  refine (utf8Size_eq_one ?_).symm
  rcases h with (⟨-, h⟩ | ⟨-, h⟩) | rfl
  · exact Nat.lt_of_le_of_lt h (by decide)
  · exact Nat.lt_of_le_of_lt h (by decide)
  · decide

theorem utf8Size_of_isNumberCharacter {c : Char} (h : isNumberCharacter c) : 1 = c.utf8Size := by
  rw [isNumberCharacter, isDigit] at h
  simp only [Bool.or_eq_true, Bool.and_eq_true, decide_eq_true_eq] at h
  rcases h with (((((⟨-, h⟩ | rfl) | rfl) | rfl) | rfl) | rfl) | rfl
  · exact (utf8Size_eq_one (Nat.lt_of_le_of_lt h (by decide))).symm
  all_goals decide

theorem follows_comparator : Follows setting comparator s (readComparator s) := by
  refine follows_skip.then fun _ => ?_
  rw [readComparator]
  generalize skipBlanks s = s
  -- The symbols are tried one after the other, the longer ones first.
  split
  · exact (follows_matchText_append ['>', '='] _).yes fun _ => follows_pure _
  · refine .notText (by decide) ?_
    exact (follows_matchText_append ['<', '='] _).yes fun _ => follows_pure _
  · refine .notText (by decide) (.notText (by decide) ?_)
    exact (follows_matchText_append ['!', '='] _).yes fun _ => follows_pure _
  · refine .notText (by decide) (.notText (by decide) (.notText (by decide) ?_))
    exact (follows_matchChar_cons _ _).yes fun _ => follows_pure _
  · rename_i r hne
    refine (follows_matchText_of_ne fun u hu => hne u (List.cons.inj hu).2).no fun _ => ?_
    refine .notText (by decide) (.notText (by decide) (.notChar (by decide) ?_))
    exact (follows_matchChar_cons _ _).yes fun _ => follows_pure _
  · rename_i r hne
    refine .notText (by decide) ?_
    refine (follows_matchText_of_ne fun u hu => hne u (List.cons.inj hu).2).no fun _ => ?_
    refine .notText (by decide) (.notChar (by decide) (.notChar (by decide) ?_))
    exact (follows_matchChar_cons _ _).yes fun _ => follows_pure _
  · rename_i h₁ h₂ h₃ h₄ h₅ h₆
    refine (follows_matchText_of_ne h₁).no fun _ => (follows_matchText_of_ne h₂).no fun _ =>
      (follows_matchText_of_ne h₃).no fun _ => (follows_matchChar_of_ne h₄).no fun _ =>
      (follows_matchChar_of_ne h₅).no fun _ => (follows_matchChar_of_ne h₆).no fun _ => ?_
    split
    · rename_i hword
      exact (follows_word_of_nil _ (fun _ => utf8Size_of_isComparatorCharacter) hword).stop
    · rename_i hw hword
      refine (follows_word_of_ne_nil _ (fun _ => utf8Size_of_isComparatorCharacter) hword
        hw).then fun _ => ?_
      rw [String.toList_ofList]
      exact follows_pure _

/-! ## Operands -/

/-- One character more of a text. -/
theorem map_text_cons (found : List Char) (c : Char)
    (read : Except (Fault Reason) (List Char × List Char)) :
    (do let (cs, r) ← read; return (c :: cs, r) : Except (Fault Reason) (List Char × List Char)).map
      (fun xt => (found ++ xt.1, xt.2)) = read.map fun xt => (found ++ [c] ++ xt.1, xt.2) := by
  cases read with
  | error f => rfl
  | ok xt =>
    rw [Except.map, List.append_assoc]
    rfl

theorem follows_textRound_quote (found : List Char) :
    Follows setting (textRound found) ('"' :: s) (.ok (.inr found, s)) :=
  follows_atEnd.no fun _ => (follows_current _).then fun _ =>
    (follows_advance_char _ rfl).then fun _ => follows_pure _

theorem follows_textRound_escape (found : List Char) (c : Char) :
    Follows setting (textRound found) ('\\' :: c :: s) (.ok (.inl (found ++ [c]), s)) := by
  refine follows_atEnd.no fun _ => (follows_current _).then fun _ =>
    (follows_advance_char _ rfl).then fun _ => ?_
  refine follows_atEnd.no fun _ => (follows_current _).then fun _ => ?_
  exact (follows_advance_char _ rfl).then fun _ => follows_pure _

theorem follows_textRound_plain (found : List Char) {c : Char} (hquote : c ≠ '"')
    (hslash : ∀ d t, c = '\\' → s = d :: t → False) :
    Follows setting (textRound found) (c :: s) (.ok (.inl (found ++ [c]), s)) := by
  refine follows_atEnd.no fun _ => (follows_current _).then fun _ =>
    (follows_advance_char _ rfl).then fun _ => ?_
  rw [if_neg hquote]
  split
  · rename_i hc
    -- A backslash that ends the text stands for itself.
    cases s with
    | nil => exact follows_atEnd.yes fun _ => follows_pure _
    | cons d t => exact (hslash d t hc rfl).elim
  · exact follows_pure _

theorem follows_textLoop {n : Nat} (found : List Char) (hn : s.length < n) :
    Follows setting (loopWithin textRound n found) s
      ((readText s).map fun xt => (found ++ xt.1, xt.2)) := by
  induction n generalizing s found with
  | zero => exact absurd hn (Nat.not_lt_zero _)
  | succ n ih =>
    fun_cases readText s with
    | case1 => exact Follows.fails (follows_atEnd.yes fun _ => follows_fail _)
    | case2 r =>
      rw [Except.map, List.append_nil]
      exact Follows.last (follows_textRound_quote found)
    | case3 c r =>
      rw [map_text_cons]
      have hlength : r.length < ('\\' :: c :: r).length :=
        Nat.lt_of_lt_of_le (Nat.lt_succ_self _) (Nat.le_succ _)
      exact Follows.again (follows_textRound_escape found c) hlength
        (ih _ (Nat.lt_of_lt_of_le hlength (Nat.le_of_lt_succ hn)))
    | case4 c r hquote hslash =>
      rw [map_text_cons]
      exact Follows.again (follows_textRound_plain found hquote hslash) (Nat.lt_succ_self _)
        (ih _ (Nat.lt_of_succ_lt_succ hn))

theorem follows_text : Follows setting text s
    ((readText s).map fun (cs, r) => (String.ofList cs, r)) := by
  have hloop : Follows setting (loop textRound []) s
      ((readText s).map fun xt => ([] ++ xt.1, xt.2)) :=
    follows_loop fun _ => follows_textLoop []
  have htext := hloop.map (f := String.ofList)
  rwa [Except.map_map] at htext

/-- The end of a list of the given items. -/
def readClose (items : List String) : Reader Reason (List String) := fun s =>
  match skipBlanks s with
  | ']' :: r => .ok (items, r)
  | s => stopAt .expectedCommaOrBracket s

/-- A list behind the items that have been found before. -/
def readOthers (found : List String) : Reader Reason (List String) := fun s => do
  let (others, s) ← many nextItem s
  readClose (found ++ others) s

theorem readOthers_of_ne (found : List String) (h : ∀ r, skipBlanks s ≠ ',' :: r) :
    readOthers found s = readClose found s := by
  have hnext : nextItem s = .ok none := by
    rw [nextItem]
    split
    · rename_i hskip
      exact absurd hskip (h _)
    · rfl
  rw [readOthers, many_eq_of_steps (.done hnext)]
  change readClose (found ++ []) s = _
  rw [List.append_nil]

theorem readOthers_of_comma (found : List String) (h : skipBlanks s = ',' :: r) :
    readOthers found s = readItem r >>= fun (item, t) => readOthers (found ++ [item]) t := by
  have hnext : nextItem s = (readItem r).map some := by
    rw [nextItem]
    split
    · rename_i hskip
      rw [(List.cons.inj (h.symm.trans hskip)).2]
    · rename_i hne
      exact absurd h (hne r)
  rw [readOthers, many_eq rfl (fun _ _ _ => length_lt_of_nextItem), hnext]
  cases readItem r with
  | error f => rfl
  | ok xt =>
    change (many nextItem xt.2).map _ >>= _ = many nextItem xt.2 >>= _
    cases many nextItem xt.2 with
    | error f => rfl
    | ok yu =>
      change readClose (found ++ xt.1 :: yu.1) yu.2 = readClose (found ++ [xt.1] ++ yu.1) yu.2
      rw [List.append_assoc, List.singleton_append]

theorem readList_of_ne (h : ∀ r, skipBlanks s ≠ ']' :: r) :
    readList s = readItem s >>= fun (item, t) => readOthers [item] t := by
  rw [readList]
  split
  · rename_i hskip
    exact absurd hskip (h _)
  · rw [readItem_skipBlanks]
    rfl

/-- Where a round of a list ends after its item. -/
def readNext (found : List String) : Reader Reason (List String ⊕ List String) := fun s =>
  match skipBlanks s with
  | ']' :: r => .ok (.inr found, r)
  | ',' :: r => .ok (.inl found, r)
  | s => stopAt .expectedCommaOrBracket s

theorem follows_listRound (found : List String) : Follows setting (listRound found) s
    (readItem s >>= fun (item, t) => readNext (found ++ [item]) t) := by
  refine follows_skip.then fun _ => ?_
  rw [readItem]
  split
  · rename_i r hskip
    rw [hskip]
    refine (follows_matchChar_cons _ _).yes fun _ => ?_
    refine follows_text.bind fun item t _ _ => follows_skip.then fun _ => ?_
    dsimp only
    rw [readNext]
    split
    · rename_i u hskip
      rw [hskip]
      exact (follows_matchChar_cons _ _).yes fun _ => follows_pure _
    · rename_i u hskip
      rw [hskip]
      refine .notChar (by decide) ?_
      exact (follows_matchChar_cons _ _).yes fun _ => follows_pure _
    · rename_i hbracket hcomma
      exact (follows_matchChar_of_ne hbracket).no fun _ =>
        (follows_matchChar_of_ne hcomma).no fun _ => follows_fail _
  · rename_i hne
    exact (follows_matchChar_of_ne hne).no fun _ => follows_fail _

theorem follows_listLoop {n : Nat} (found : List String) (hn : s.length < n) :
    Follows setting (loopWithin listRound n found) s
      (readItem s >>= fun (item, t) => readOthers (found ++ [item]) t) := by
  induction n generalizing s found with
  | zero => exact absurd hn (Nat.not_lt_zero _)
  | succ n ih =>
    have hround : Follows setting (listRound found) s _ := follows_listRound found
    cases hitem : readItem s with
    | error f =>
      rw [hitem] at hround
      exact hround.fails
    | ok xt =>
      obtain ⟨item, t⟩ := xt
      rw [hitem] at hround
      change Follows setting _ s (readNext (found ++ [item]) t) at hround
      change Follows setting _ s (readOthers (found ++ [item]) t)
      rw [readNext] at hround
      split at hround
      · rename_i r hskip
        have hclose : readOthers (found ++ [item]) t = .ok (found ++ [item], r) := by
          rw [readOthers_of_ne _ fun u hu =>
            absurd (List.cons.inj (hskip.symm.trans hu)).1 (by decide), readClose, hskip]
          rfl
        rw [hclose]
        exact hround.last
      · rename_i r hskip
        rw [readOthers_of_comma _ hskip]
        have hlength : r.length < s.length := by
          obtain ⟨u, -, hstarts⟩ := quoted_of_readItem hitem
          obtain ⟨b, -, rfl⟩ := starts_iff.1 hstarts
          have ht := length_skipBlanks_le t
          rw [hskip, List.length_cons] at ht
          simp only [List.length_append]
          omega
        exact hround.again hlength (ih _ (Nat.lt_of_lt_of_le hlength (Nat.le_of_lt_succ hn)))
      · rename_i hbracket hcomma
        have hclose : readOthers (found ++ [item]) t =
            stopAt .expectedCommaOrBracket (skipBlanks t) := by
          rw [readOthers_of_ne _ hcomma, readClose]
          split
          · rename_i hskip
            exact absurd hskip (hbracket _)
          · rfl
        rw [hclose]
        exact hround.fails

theorem follows_list : Follows setting list s (readList s) := by
  refine follows_skip.then fun _ => ?_
  by_cases hskip : ∃ r, skipBlanks s = ']' :: r
  · obtain ⟨r, hskip⟩ := hskip
    have hempty : readList s = .ok ([], r) := by
      rw [readList, hskip]
      rfl
    rw [hskip, hempty]
    exact (follows_matchChar_cons _ _).yes fun _ => follows_pure _
  · have hne (r : List Char) (hr : skipBlanks s = ']' :: r) : False := hskip ⟨r, hr⟩
    rw [readList_of_ne hne, ← readItem_skipBlanks]
    exact (follows_matchChar_of_ne hne).no fun _ => follows_loop fun _ => follows_listLoop []

theorem follows_number : Follows setting number s (readNumber s) := by
  rw [readNumber]
  split
  · rename_i hword
    exact (follows_word_of_nil _ (fun _ => utf8Size_of_isNumberCharacter) hword).stop
  · rename_i hw hword
    refine (follows_word_of_ne_nil _ (fun _ => utf8Size_of_isNumberCharacter) hword
      hw).then fun _ => ?_
    rw [String.toList_ofList]
    cases Double.ofText? _ with
    | some d => exact follows_pure _
    | none =>
      cases Instant.ofText? _ with
      | some i => exact follows_pure _
      | none => exact follows_fail _

theorem follows_operand : Follows setting operand s (readOperand s) := by
  refine follows_skip.then fun _ => ?_
  rw [readOperand]
  generalize skipBlanks s = s
  split
  · rename_i r
    refine (follows_matchChar_cons _ _).yes fun _ => ?_
    have htext : Follows setting _ r _ := follows_text.map (f := Operand.text)
    rwa [Except.map_map] at htext
  · refine .notChar (by decide) ?_
    exact (follows_matchChar_cons _ _).yes fun _ => follows_list.map
  · rename_i hquote hbracket
    refine (follows_matchChar_of_ne hquote).no fun _ =>
      (follows_matchChar_of_ne hbracket).no fun _ => ?_
    split
    · rename_i htrue
      exact (follows_matchKeyword_of_eq_some htrue).yes fun _ => follows_pure _
    · rename_i htrue hfalse
      exact (follows_matchKeyword_of_eq_none htrue).no fun _ =>
        (follows_matchKeyword_of_eq_some hfalse).yes fun _ => follows_pure _
    · rename_i htrue hfalse
      exact (follows_matchKeyword_of_eq_none htrue).no fun _ =>
        (follows_matchKeyword_of_eq_none hfalse).no fun _ => follows_number

/-! ## Conditions -/

theorem readComparator_skipBlanks (s : List Char) :
    readComparator (skipBlanks s) = readComparator s := by
  rw [readComparator, readComparator, skipBlanks_skipBlanks]

theorem readOperand_skipBlanks (s : List Char) : readOperand (skipBlanks s) = readOperand s := by
  rw [readOperand, readOperand, skipBlanks_skipBlanks]

theorem follows_condition : Follows setting condition s (readCondition s) := by
  rw [readCondition]
  refine follows_name.bind fun property t _ _ => follows_skip.then fun _ => ?_
  dsimp only
  rw [← readComparator_skipBlanks t]
  refine follows_comparator.bind fun comparator u _ _ => ?_
  dsimp only
  split
  · exact follows_pure _
  · refine follows_skip.then fun _ => ?_
    rw [← readOperand_skipBlanks u]
    exact follows_operand.bind fun operand r _ _ => follows_pure _

end Sift.Query.Cursor
