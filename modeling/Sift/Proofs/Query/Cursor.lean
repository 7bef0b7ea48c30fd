import Sift.Proofs.Query.Conditions

/-!
# Queries under a cursor

On every text a cursor comes to the end of its way, with what the text is read
as or where reading stops, and it never leaves the places between characters.
What it skips behind an operand a reader leaves to the next one, so the two agree
up to the blanks behind what they have read.

* `follows_chain`, `follows_primary`, `follows_expression`: chains, parentheses
  and expressions;
* `Event.Sound`, `Goes.sound`: what a cursor may do, and that it does nothing
  else on its way;
* `exists_goes_run`: whole texts.
-/

namespace Sift.Query.Cursor

open Text

variable {α : Type} {setting : Setting} {s t : List Char}

/-! ## Expressions -/

/-- What is read, with the blanks behind it. -/
def trailing (read : Except (Fault Reason) (α × List Char)) :
    Except (Fault Reason) (α × List Char) :=
  read.map fun xt => (xt.1, skipBlanks xt.2)

theorem trailing_trailing (read : Except (Fault Reason) (α × List Char)) :
    trailing (trailing read) = trailing read := by
  simp only [trailing, Except.map_map, skipBlanks_skipBlanks]

/-- A routine that goes past the blanks behind what a reader reads, and what
    follows if it does not depend on these blanks. -/
theorem Follows.bind_trailing {β : Type} {m : Routine α} {next : α → Routine β}
    {read : Except (Fault Reason) (α × List Char)}
    {g : α × List Char → Except (Fault Reason) (β × List Char)}
    (hm : Follows setting m s (trailing read)) (hg : ∀ x t, g (x, skipBlanks t) = g (x, t))
    (hnext : ∀ x t, t <:+ s → Follows setting (next x) t (g (x, t))) :
    Follows setting (m >>= next) s (read >>= g) := by
  cases read with
  | error f => exact hm.stop
  | ok xt =>
    refine Follows.then hm fun ht => ?_
    have hrest := hnext xt.1 _ ht
    rw [hg] at hrest
    exact hrest

theorem follows_primary {outer : Nat} {inner : Routine Filter} {reader : Reader Reason Filter}
    (hinner : ∀ r, skipBlanks s = '(' :: r → outer < setting.place r ∧
      Follows setting inner r (trailing (reader r))) :
    Follows setting (primary outer inner) s (readPrimary reader s) := by
  refine follows_skip.then fun _ => ?_
  rw [readPrimary]
  split
  · rename_i r hskip
    obtain ⟨houter, hinner⟩ := hinner r hskip
    rw [hskip]
    refine (follows_matchChar_cons _ _).yes fun _ => follows_here.then fun _ =>
      (follows_note houter).2.then fun _ => ?_
    refine hinner.bind_trailing (fun f t => ?_) fun f t _ => follows_skip.then fun _ => ?_
    · simp only [skipBlanks_skipBlanks]
    · dsimp only
      split
      · rename_i u hclose
        rw [hclose]
        exact (follows_matchChar_cons _ _).yes fun _ => follows_pure _
      · rename_i hne
        exact (follows_matchChar_of_ne hne).no fun _ => follows_fail _
  · rename_i hne
    exact (follows_matchChar_of_ne hne).no fun _ => follows_condition

section

variable {connective : Connective} {operand : Routine Filter} {reader : Reader Reason Filter}

theorem cases_of_trailing_eq {read read' : Except (Fault Reason) (α × List Char)}
    (h : trailing read = trailing read') : (∃ f, read = .error f ∧ read' = .error f) ∨
      ∃ x t t', read = .ok (x, t) ∧ read' = .ok (x, t') ∧ skipBlanks t = skipBlanks t' := by
  cases read with
  | error f =>
    cases read' with
    | error g => exact .inl ⟨f, rfl, by rw [Except.error.inj h]⟩
    | ok xt => cases h
  | ok xt =>
    cases read' with
    | error f => cases h
    | ok yu =>
      obtain ⟨hx, ht⟩ := Prod.mk.inj (Except.ok.inj h)
      exact .inr ⟨xt.1, xt.2, yu.2, rfl, by rw [hx], ht⟩

/-- The keyword of a connective is at least one character of the text. -/
theorem suffix_of_keyword {r : List Char}
    (h : keyword isWordCharacter (lowerAscii connective.keyword) (skipBlanks s) = some r) :
    r <:+ s ∧ r.length < s.length := by
  obtain ⟨w, hw, hlower, -⟩ := of_keyword h
  obtain ⟨c, w, rfl, -⟩ := exists_of_lowerAscii hlower
  obtain ⟨b, -, hs⟩ := exists_eq_append_skipBlanks s
  rw [hw] at hs
  rw [hs]
  refine ⟨(List.suffix_append _ r).trans (List.suffix_append b _), ?_⟩
  rw [List.length_append, List.length_append, List.length_cons]
  omega

/-- The rounds of a chain, whose operands may or may not skip the blanks behind
    them. -/
theorem follows_chainLoop {n : Nat} (found : List Filter)
    (hoperand : ∀ u, u <:+ s → ∃ read, Follows setting operand u read ∧
      trailing read = trailing (reader u))
    (hshort : ∀ s f r, nextOperand connective reader s = .ok (some (f, r)) → r.length < s.length)
    (hn : s.length < n) (hst : skipBlanks s = skipBlanks t) :
    Follows setting (loopWithin (chainRound connective operand) n found) s
      ((many (nextOperand connective reader) t).map fun xt =>
        (join connective (found ++ xt.1), skipBlanks xt.2)) := by
  have hnil : nextOperand connective reader [] = .ok none := by cases connective <;> rfl
  induction n generalizing s t found with
  | zero => exact absurd hn (Nat.not_lt_zero _)
  | succ n ih =>
    intro h
    rw [many_eq hnil hshort t]
    cases hkeyword : keyword isWordCharacter (lowerAscii connective.keyword) (skipBlanks s) with
    | none =>
      rw [nextOperand_eq_none reader (hst ▸ hkeyword), Except.map, List.append_nil, ← hst]
      exact (follows_skip.then fun _ =>
        (follows_matchKeyword_of_eq_none hkeyword).no fun _ => follows_pure _).last h
    | some r =>
      have hnext : nextOperand connective reader t = (reader r).map some := by
        rw [nextOperand, ← hst, hkeyword]
      obtain ⟨hr, hlength⟩ := suffix_of_keyword hkeyword
      obtain ⟨read, hread, htrailing⟩ := hoperand r hr
      rw [hnext]
      rcases cases_of_trailing_eq htrailing with ⟨f, rfl, he⟩ | ⟨f, u, u', rfl, he, hu⟩
      · rw [he]
        exact (follows_skip.then fun _ =>
          (follows_matchKeyword_of_eq_some hkeyword).yes fun _ => hread.stop).fails h
      · rw [he]
        have hsuffix := hread.suffix (h.of_suffix hr)
        have hless : u.length < s.length := Nat.lt_of_le_of_lt hsuffix.length_le hlength
        have hrest := ih (found ++ [f]) (fun v hv => hoperand v (hv.trans (hsuffix.trans hr)))
          (Nat.lt_of_lt_of_le hless (Nat.le_of_lt_succ hn)) hu
        change Outcome setting s _
          (((many (nextOperand connective reader) u').map fun xt => (f :: xt.1, xt.2)).map _)
        rw [Except.map_map]
        simp only [List.append_assoc, List.singleton_append] at hrest
        have hround : Follows setting (chainRound connective operand found) s
            (.ok (.inl (found ++ [f]), u)) := by
          refine follows_skip.then fun _ => ?_
          refine (follows_matchKeyword_of_eq_some hkeyword).yes fun _ => ?_
          exact hread.then fun _ => follows_pure _
        exact hround.again hless hrest h

theorem follows_chain
    (hoperand : ∀ u, u <:+ s → ∃ read, Follows setting operand u read ∧
      trailing read = trailing (reader u))
    (hshort : ∀ s f r, nextOperand connective reader s = .ok (some (f, r)) → r.length < s.length) :
    Follows setting (chain connective operand) s (trailing (Query.chain connective reader s)) := by
  rw [Query.chain]
  obtain ⟨read, hread, htrailing⟩ := hoperand s (List.suffix_refl s)
  rcases cases_of_trailing_eq htrailing with ⟨f, rfl, he⟩ | ⟨f, u, u', rfl, he, hu⟩
  · rw [he]
    exact hread.stop
  · rw [he]
    refine hread.then fun hsuffix => ?_
    have hloop := follows_loop fun n hn => follows_chainLoop (n := n) [f]
      (fun v hv => hoperand v (hv.trans hsuffix)) hshort hn hu
    change Follows setting _ u (trailing (many (nextOperand connective reader) u' >>= _))
    cases hmany : many (nextOperand connective reader) u' with
    | error f =>
      rw [hmany] at hloop
      exact hloop
    | ok xt =>
      rw [hmany] at hloop
      exact hloop

end

/-- Texts without parentheses are read alike at any depth. -/
theorem primary_eq_readPrimary {depth : Nat} (h : s.count '(' ≤ depth) :
    Query.primary depth s = readPrimary (Query.expression (depth - 1)) s := by
  cases depth with
  | zero =>
    rw [Query.primary, readPrimary]
    split
    · rename_i r hskip
      obtain ⟨b, -, hs⟩ := exists_eq_append_skipBlanks s
      rw [hs, hskip, List.count_append, List.count_cons_self] at h
      omega
    · rw [readCondition_skipBlanks]
  | succ depth => rfl

theorem follows_expression {n depth : Nat} (hdepth : s.count '(' ≤ depth) (hn : s.length < n) :
    Follows setting (expression n) s (trailing (Query.expression depth s)) := by
  induction n generalizing s depth with
  | zero => exact absurd hn (Nat.not_lt_zero _)
  | succ n ih =>
    intro h
    rw [expression_eq]
    refine (follows_here.then fun _ => ?_) h
    have hprimary (u : List Char) (hu : u <:+ s) : Follows setting
        (primary (setting.place s) (expression n)) u (Query.primary depth u) := by
      rw [primary_eq_readPrimary (Nat.le_trans (hu.sublist.count_le _) hdepth)]
      refine follows_primary fun r hskip => ?_
      -- What stands in the parentheses is shorter and has one of them less.
      obtain ⟨b, -, hb⟩ := exists_eq_append_skipBlanks u
      obtain ⟨b', hb'⟩ := hu
      obtain rfl : b' ++ b ++ ['('] ++ r = s := by
        rw [← hb', hb, hskip, List.append_assoc, List.append_assoc, List.singleton_append]
      refine ⟨place_lt h.suffix (List.append_ne_nil_of_right_ne_nil _ (List.cons_ne_nil _ _)),
        ih ?_ ?_⟩
      · rw [List.count_append, List.count_append, List.count_singleton_self] at hdepth
        omega
      · rw [List.length_append, List.length_append, List.length_singleton] at hn
        omega
    have hand (u : List Char) (hu : u <:+ s) : Follows setting
        (chain .and (primary (setting.place s) (expression n))) u
        (trailing (Query.chain .and (Query.primary depth) u)) :=
      follows_chain (fun v hv => ⟨_, hprimary v (hv.trans hu), rfl⟩)
        fun _ _ _ => length_lt_of_nextOperand (spellsRead_primary depth)
    exact follows_chain (fun u hu => ⟨_, hand u hu, trailing_trailing _⟩)
      fun _ _ _ => length_lt_of_nextOperand (spellsRead_chain (spellsRead_primary depth))

theorem follows_query (h : Ahead setting setting.text.toList) :
    Follows setting query setting.text.toList
      ((parseChars setting.text.toList).map fun f => (f, [])) := by
  have hexpression : Follows setting (expression setting.clock) setting.text.toList _ :=
    follows_expression (Nat.le_refl (setting.text.toList.count '(')) h.length_lt
  refine follows_setting.then fun _ => ?_
  rw [parseChars, Except.map_bind]
  refine hexpression.bind_trailing (fun f t => ?_) fun f t _ => follows_skip.then fun _ => ?_
  · simp only [skipBlanks_skipBlanks]
  · dsimp only
    cases skipBlanks t with
    | nil => exact follows_atEnd.yes fun _ => follows_pure _
    | cons c r => exact follows_atEnd.no fun _ => follows_fail _

/-! ## Texts -/

theorem outcome_run {text : String} {clock : Nat} (h : text.length < clock) :
    Outcome ⟨text, clock⟩ text.toList (run text clock)
      ((parseChars text.toList).map fun f => (f, [])) := by
  have hahead : Ahead ⟨text, clock⟩ text.toList :=
    ⟨List.suffix_refl _, by rwa [String.length_toList]⟩
  have hquery := follows_query hahead hahead
  rwa [place_text] at hquery

/-- Whether an event is what a cursor may do: it looks only where no character
    is split, it goes neither back nor past the end, and what begins again
    begins further on. -/
def Event.Sound (text : String) : Event → Prop
  | .look p => isBoundary text p ∧ p ≤ text.utf8ByteSize
  | .move p q => p ≤ q ∧ isBoundary text q ∧ q ≤ text.utf8ByteSize
  | .round p q => p < q
  | .nested p q => p < q

theorem le_utf8ByteSize_of_isBoundary {text : String} {p : Nat} (h : isBoundary text p) :
    p ≤ text.utf8ByteSize :=
  (String.Pos.Raw.isValid_eq_true_iff.1 h).le_utf8ByteSize

theorem Goes.sound {text : String} {p q : Nat} {log : List Event} (h : Goes text p log q) :
    ∀ event ∈ log, event.Sound text := by
  induction h with
  | stays _ => exact fun _ h => absurd h List.not_mem_nil
  | looks hq _ ih =>
    exact List.forall_mem_cons.2 ⟨⟨hq, le_utf8ByteSize_of_isBoundary hq⟩, ih⟩
  | moves _ hpq hrest ih =>
    have hq := hrest.isBoundary.1
    exact List.forall_mem_cons.2 ⟨⟨hpq, hq, le_utf8ByteSize_of_isBoundary hq⟩, ih⟩
  | rounds hq _ ih => exact List.forall_mem_cons.2 ⟨hq, ih⟩
  | nests hq _ ih => exact List.forall_mem_cons.2 ⟨hq, ih⟩

/-- On any text, and on any clock past its length, a cursor neither crashes nor
    runs out of time. It goes from the first byte on, and every event on its way
    is sound; it reads what the text is read as, up to the end, or it stops where
    reading stops, which is between two characters of the text. -/
theorem exists_goes_run {text : String} {clock : Nat} (h : text.length < clock) :
    ∃ place, Goes text 0 (run text clock).log place ∧
      (∀ event ∈ (run text clock).log, event.Sound text) ∧
      match parse text with
      | .ok f => (run text clock).ending = .value f place ∧ place = text.utf8ByteSize
      | .error e => (run text clock).ending = .failure e ∧ place = e.position ∧
          isBoundary text e.position ∧ e.position ≤ text.utf8ByteSize := by
  have hrun := outcome_run h
  rw [parse]
  generalize run text clock = trip at hrun
  cases hresult : parseChars text.toList with
  | error f =>
    rw [hresult, Except.map] at hrun
    cases hrun with
    | failure hgoes =>
      rw [place_text] at hgoes
      have hboundary := hgoes.isBoundary.2
      exact ⟨_, hgoes, hgoes.sound, rfl, rfl, hboundary, le_utf8ByteSize_of_isBoundary hboundary⟩
  | ok f =>
    rw [hresult, Except.map] at hrun
    cases hrun with
    | value _ hgoes =>
      rw [place_text] at hgoes
      exact ⟨_, hgoes, hgoes.sound, rfl, place_nil⟩

/-- A query that ends inside a list, with characters of two, three and four
    bytes. -/
def unclosedList : String := "(`état` = \"déjà\") OR 名 contains [\"😀\" "

theorem exists_goes_run_unclosedList : unclosedList.length < 38 ∧
    parse unclosedList = .error ⟨.expectedCommaOrBracket, 45⟩ ∧
    (run unclosedList 38).ending = .failure ⟨.expectedCommaOrBracket, 45⟩ ∧
    Goes unclosedList 0 (run unclosedList 38).log 45 ∧
    (∀ event ∈ (run unclosedList 38).log, event.Sound unclosedList) ∧
    isBoundary unclosedList 45 ∧ 45 ≤ unclosedList.utf8ByteSize := by
  have hlength : unclosedList.length < 38 := by decide +kernel
  have hprinted : (parse unclosedList).map Filter.toText =
      .error ⟨.expectedCommaOrBracket, 45⟩ := by decide +kernel
  have hparse := Except.map_eq_error.1 hprinted
  refine ⟨hlength, hparse, ?_⟩
  have hrun := exists_goes_run hlength
  -- Only what the theorem says of the run matters here, not the run itself.
  generalize run unclosedList 38 = trip at hrun ⊢
  generalize parse unclosedList = result at hrun hparse
  subst hparse
  obtain ⟨place, hgoes, hsound, hending, rfl, hboundary, hle⟩ := hrun
  exact ⟨hending, hgoes, hsound, hboundary, hle⟩

end Sift.Query.Cursor
