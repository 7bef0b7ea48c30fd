import Sift.Proofs.Query.Routines

/-!
# Looking ahead of a cursor

What is found at the cursor is what the text ahead starts with, and moving over
it leaves the rest of that text ahead.

* `follows_rest`, `follows_current`: the text and the character ahead;
* `follows_matchChar_cons`, `follows_matchText_append`,
  `follows_matchKeyword_of_eq_some`: what is found, each beside its counterpart
  for what is not;
* `follows_skipWhile`, `follows_word_of_ne_nil`: runs of characters of a class.
-/

namespace Sift.Query.Cursor

open Text

variable {α : Type} {setting : Setting} {s t r w : List Char}
  {result : Except (Fault Reason) (α × List Char)}

/-! ## Looking at the text -/

theorem byteCount_eq_zero : byteCount s = 0 ↔ s = [] := by
  rw [byteCount_eq_utf8Len, String.utf8Len_eq_zero]

theorem follows_atEnd : Follows setting atEnd s (.ok (s.isEmpty, s)) := fun h => by
  have hend : decide (setting.text.utf8ByteSize ≤ setting.place s) = s.isEmpty := by
    obtain ⟨b, hb⟩ := h.suffix
    rw [← byteCount_toList, ← hb, byteCount_append, place_eq b hb.symm, Bool.eq_iff_iff,
      decide_eq_true_eq, List.isEmpty_iff, ← byteCount_eq_zero]
    omega
  exact (follows_size.then fun _ => follows_here.then fun _ => hend ▸ follows_pure _) h

/-- What is cut out of the text from a place on. -/
theorem follows_cut_size (ht : t <:+ setting.text.toList) :
    Follows setting (cut (setting.place t) setting.text.utf8ByteSize) s
      (.ok (String.ofList t, s)) :=
  follows_cut ht (List.append_nil t)

theorem follows_rest : Follows setting rest s (.ok (String.ofList s, s)) := fun h =>
  (follows_here.then fun _ => follows_size.then fun _ => follows_cut_size h.suffix) h

theorem follows_current (c : Char) : Follows setting current (c :: s) (.ok (c, c :: s)) := by
  refine follows_rest.then fun _ => ?_
  rw [String.toList_ofList]
  exact follows_pure c

theorem follows_matchText_append (word r : List Char) :
    Follows setting (matchText word) (word ++ r) (.ok (true, r)) := by
  refine follows_rest.then fun _ => ?_
  rw [String.toList_ofList, if_pos (List.isPrefixOf_iff_prefix.2 (List.prefix_append word r))]
  exact (follows_advance rfl).then fun _ => follows_pure true

theorem follows_matchText_of_ne {word : List Char} (h : ∀ r, s ≠ word ++ r) :
    Follows setting (matchText word) s (.ok (false, s)) := by
  refine follows_rest.then fun _ => ?_
  have hno : word.isPrefixOf s ≠ true := fun hprefix => by
    obtain ⟨r, hr⟩ := List.isPrefixOf_iff_prefix.1 hprefix
    exact h r hr.symm
  rw [String.toList_ofList, if_neg hno]
  exact follows_pure false

theorem follows_matchChar_cons (c : Char) (r : List Char) :
    Follows setting (matchChar c) (c :: r) (.ok (true, r)) := by
  refine follows_atEnd.no fun _ => (follows_current c).then fun _ => ?_
  rw [if_pos rfl]
  exact (follows_advance_char c rfl).then fun _ => follows_pure true

theorem follows_matchChar_of_ne {c : Char} (h : ∀ r, s ≠ c :: r) :
    Follows setting (matchChar c) s (.ok (false, s)) := by
  cases s with
  | nil => exact follows_atEnd.yes fun _ => follows_pure false
  | cons d s =>
    have hd : d ≠ c := fun hd => h s (hd ▸ rfl)
    refine follows_atEnd.no fun _ => (follows_current d).then fun _ => ?_
    rw [if_neg hd]
    exact follows_pure false

/-- A word is not found in front of a text that begins with another
    character. -/
theorem Follows.notText {c d : Char} {word : List Char} {yes no : Routine α} (h : d ≠ c)
    (hno : Follows setting no (d :: s) result) :
    Follows setting (matchText (c :: word) >>= fun answer => if answer then yes else no) (d :: s)
      result :=
  (follows_matchText_of_ne fun _ hs => h (List.cons.inj hs).1).no fun _ => hno

theorem Follows.notChar {c d : Char} {yes no : Routine α} (h : d ≠ c)
    (hno : Follows setting no (d :: s) result) :
    Follows setting (matchChar c >>= fun answer => if answer then yes else no) (d :: s) result :=
  (follows_matchChar_of_ne fun _ hs => h (List.cons.inj hs).1).no fun _ => hno

/-! ## Keywords -/

theorem utf8Size_toLower (c : Char) : c.toLower.utf8Size = c.utf8Size := by
  unfold Char.toLower
  split
  · rename_i hc
    have hle : c.val.toNat ≤ 90 := UInt32.le_iff_toNat_le.1 hc.2
    rw [Char.utf8Size_eq_one_iff.2 (UInt32.le_iff_toNat_le.2 (Nat.le_trans hle (by decide))),
      Char.utf8Size_eq_one_iff, UInt32.le_iff_toNat_le, UInt32.toNat_add]
    change (c.val.toNat + 32) % 2 ^ 32 ≤ 127
    omega
  · rfl

/-- The lower case of a text has as many bytes. -/
theorem byteCount_lowerAscii (s : List Char) : byteCount (lowerAscii s) = byteCount s := by
  induction s with
  | nil => rfl
  | cons c s ih =>
    rw [lowerAscii, List.map_cons, byteCount_cons, byteCount_cons, utf8Size_toLower, ← lowerAscii,
      ih]

theorem all_head?_eq_true_iff {p : Char → Bool} :
    (s.head?.all fun c => !p c) = true ↔ Ends p s := by
  cases s with
  | nil => simp [ends_nil]
  | cons c s => simp [ends_cons]

/-- A keyword is looked for in as many bytes as it has, and then in what follows
    them. -/
theorem follows_matchKeyword_append {word : List Char}
    {found : Except (Fault Reason) (Bool × List Char)} (hcount : byteCount word = byteCount w)
    (hyes : lowerAscii w = word ∧ Ends isWordCharacter t → found = .ok (true, t))
    (hno : ¬(lowerAscii w = word ∧ Ends isWordCharacter t) → found = .ok (false, w ++ t)) :
    Follows setting (matchKeyword word) (w ++ t) found := fun h => by
  have hboundary : isBoundary (String.ofList (w ++ t)) (byteCount word) :=
    isBoundary_iff.2 ⟨w, t, String.toList_ofList, hcount⟩
  have hsize : ¬(String.ofList (w ++ t)).utf8ByteSize < byteCount word := by
    rw [← byteCount_toList, String.toList_ofList, byteCount_append]
    omega
  refine (follows_rest.then fun _ => ?_) h
  rw [decide_eq_false hsize, hboundary, Bool.false_or, Bool.not_true, if_neg Bool.false_ne_true,
    hcount]
  refine follows_here.then fun _ => ?_
  rw [← place_append h.suffix]
  refine (follows_cut h.suffix rfl).then fun _ => ?_
  rw [String.toList_ofList]
  by_cases hw : lowerAscii w = word
  · rw [if_neg (not_not_intro hw)]
    refine follows_size.then fun _ =>
      (follows_cut_size ((List.suffix_append w t).trans h.suffix)).then fun _ => ?_
    rw [String.toList_ofList]
    by_cases hends : Ends isWordCharacter t
    · rw [if_pos (all_head?_eq_true_iff.2 hends), hyes ⟨hw, hends⟩]
      exact (follows_advance rfl).then fun _ => follows_pure true
    · rw [if_neg (fun hall => hends (all_head?_eq_true_iff.1 hall)), hno fun hboth => hends hboth.2]
      exact follows_pure false
  · rw [if_pos hw, hno fun hboth => hw hboth.1]
    exact follows_pure false

theorem follows_matchKeyword_of_eq_some {word : List Char}
    (hr : keyword isWordCharacter word s = some r) :
    Follows setting (matchKeyword word) s (.ok (true, r)) := by
  obtain ⟨w, rfl, hw, hends⟩ := of_keyword hr
  have hcount : byteCount word = byteCount w := by rw [← hw, byteCount_lowerAscii]
  exact follows_matchKeyword_append hcount (fun _ => rfl) fun hnot => absurd ⟨hw, hends⟩ hnot

theorem follows_matchKeyword_of_eq_none {word : List Char}
    (hnone : keyword isWordCharacter word s = none) :
    Follows setting (matchKeyword word) s (.ok (false, s)) := by
  by_cases hboundary : isBoundary (String.ofList s) (byteCount word)
  · obtain ⟨w, t, hs, hcount⟩ := isBoundary_iff.1 hboundary
    rw [String.toList_ofList] at hs
    subst hs
    refine follows_matchKeyword_append hcount (fun hfound => ?_) fun _ => rfl
    rw [keyword_append hfound.1 hfound.2] at hnone
    exact absurd hnone (Option.some_ne_none t)
  · -- So many bytes split a character, or there are not so many.
    refine follows_rest.then fun _ => ?_
    rw [Bool.eq_false_iff.2 hboundary, Bool.not_false, Bool.or_true, if_pos rfl]
    exact follows_pure false

/-! ## Runs of characters -/

variable {p : Char → Bool} {width : Char → Nat}

theorem follows_skipWhile (hwidth : ∀ c, p c → width c = c.utf8Size) :
    Follows setting (skipWhile p width) s (.ok ((), s.dropWhile p)) := by
  refine follows_loop fun n hn => ?_
  induction n generalizing s with
  | zero => exact absurd hn (Nat.not_lt_zero _)
  | succ n ih =>
    cases s with
    | nil =>
      rw [List.dropWhile_nil]
      exact Follows.last (follows_atEnd.yes fun _ => follows_pure _)
    | cons c s =>
      by_cases hc : p c
      · rw [List.dropWhile_cons_of_pos hc]
        refine Follows.again ?_ (Nat.lt_succ_self _) (ih (Nat.lt_of_succ_lt_succ hn))
        refine follows_atEnd.no fun _ => (follows_current c).then fun _ => ?_
        rw [if_pos hc]
        exact (follows_advance_char c (hwidth c hc)).then fun _ => follows_pure _
      · rw [List.dropWhile_cons_of_neg hc]
        refine Follows.last (follows_atEnd.no fun _ => (follows_current c).then fun _ => ?_)
        rw [if_neg hc]
        exact follows_pure _

theorem follows_skip : Follows setting skip s (.ok ((), skipBlanks s)) :=
  follows_skipWhile fun _ _ => rfl

theorem follows_word_of_ne_nil (reason : Reason) (hwidth : ∀ c, p c → width c = c.utf8Size)
    (hword : wordOf p s = (w, r)) (hw : w ≠ []) :
    Follows setting (word reason p width) s (.ok (String.ofList w, r)) := fun h => by
  obtain ⟨hs, -, -⟩ := of_wordOf hword
  have hlt : setting.place s < setting.place r := by
    have hlt := place_lt (hs ▸ h.suffix) hw
    rwa [← hs] at hlt
  refine (follows_here.then fun _ => (follows_skipWhile hwidth).then fun _ =>
    follows_here.then fun _ => ?_) h
  rw [show s.dropWhile p = r from (Prod.mk.inj hword).2, if_neg (Nat.ne_of_gt hlt)]
  exact follows_cut h.suffix hs.symm

theorem follows_word_of_nil (reason : Reason) (hwidth : ∀ c, p c → width c = c.utf8Size)
    (hword : wordOf p s = ([], r)) :
    Follows setting (word reason p width) s
      (stopAt reason s : Except _ (String × List Char)) := by
  obtain ⟨hs, -, -⟩ := of_wordOf hword
  refine follows_here.then fun _ => (follows_skipWhile hwidth).then fun _ =>
    follows_here.then fun _ => ?_
  rw [show s.dropWhile p = s from (Prod.mk.inj hword).2.trans hs.symm, if_pos rfl]
  exact follows_fail reason

end Sift.Query.Cursor
