import Sift.Proofs.Query.Reading

/-!
# What is read is a query

Whatever a reader reads is made of the tokens of the grammar, with blanks before
each of them, and has the tree that they stand for.

* `spells_of_readName`, `spells_of_readComparator`, `spells_of_readOperand`: the
  tokens of a condition;
* `SpellsRead`: readers that read nothing but what the grammar allows, and
  `spellsRead_primary`: that the readers of conditions and of queries in
  parentheses are such;
* `parse_of_isSpelling_and_isSpelling_of_parse`: both directions, for whole
  texts.
-/

namespace Sift.Query

open Text

variable {s r t : List Char}

/-- A single token at the start of a text, with blanks before it. -/
def Starts (t s r : List Char) : Prop := Run (fun _ => True) [t] s r

theorem starts_iff : Starts t s r ↔ ∃ b, Blank b ∧ s = b ++ (t ++ r) := by
  rw [Starts, Run.cons_iff]
  constructor
  · rintro ⟨b, m, hb, -, rfl, hrun⟩
    exact ⟨b, hb, Run.nil_iff.1 hrun ▸ rfl⟩
  · rintro ⟨b, hb, rfl⟩
    exact ⟨b, r, hb, trivial, rfl, .nil⟩

theorem starts_of_skipBlanks (h : skipBlanks s = t ++ r) : Starts t s r := by
  obtain ⟨b, hb, hs⟩ := exists_eq_append_skipBlanks s
  exact starts_iff.2 ⟨b, hb, h ▸ hs⟩

/-! ## Names and comparators -/

theorem spells_of_readName {property : String} (h : readName s = .ok (property, r)) :
    ∃ t, SpellsName property t ∧ Starts t s r := by
  rw [readName] at h
  split at h
  · rename_i u hskip
    split at h
    · rename_i w r' hword
      cases h
      obtain ⟨rfl, hw, -⟩ := of_wordOf hword
      refine ⟨_, .quoted fun hmem => ?_, starts_of_skipBlanks ?_⟩
      · exact absurd (hw _ hmem) (by decide)
      · rw [hskip, List.cons_append, List.append_assoc, List.singleton_append]
    · exact absurd h stopAt_ne_ok
  · split at h
    · exact absurd h stopAt_ne_ok
    · rename_i w r' hne hword
      cases h
      obtain ⟨hskip, hw, -⟩ := of_wordOf hword
      exact ⟨_, .bare hne hw, starts_of_skipBlanks hskip⟩

theorem spells_of_ofWord {w : List Char} (hne : w ≠ []) (hw : ∀ c ∈ w, isComparatorCharacter c) :
    SpellsComparator (.ofWord w) w := by
  by_cases hnone : ∀ c ∈ Comparator.all, lowerAscii w ≠ c.name.toList
  · rw [ofWord_eq_unknown hnone]
    exact .other hne hw hnone
  · simp only [not_forall, not_not] at hnone
    obtain ⟨c, hc, hname⟩ := hnone
    rw [ofWord_of_lowerAscii hname]
    exact .name hc hname

theorem spells_of_readComparator {c : Comparator} (h : readComparator s = .ok (c, r)) :
    ∃ t, SpellsComparator c t ∧ Starts t s r := by
  rw [readComparator] at h
  split at h
  · cases h
    exact ⟨_, .greaterThanOrEqualTo, starts_of_skipBlanks ‹_›⟩
  · cases h
    exact ⟨_, .lessThanOrEqualTo, starts_of_skipBlanks ‹_›⟩
  · cases h
    exact ⟨_, .notEquals, starts_of_skipBlanks ‹_›⟩
  · cases h
    exact ⟨_, .equals, starts_of_skipBlanks ‹_›⟩
  · cases h
    exact ⟨_, .greaterThan, starts_of_skipBlanks ‹_›⟩
  · cases h
    exact ⟨_, .lessThan, starts_of_skipBlanks ‹_›⟩
  · split at h
    · exact absurd h stopAt_ne_ok
    · rename_i w r' hne hword
      cases h
      obtain ⟨hskip, hw, -⟩ := of_wordOf hword
      exact ⟨w, spells_of_ofWord hne hw, starts_of_skipBlanks hskip⟩

/-! ## Operands -/

theorem escaped_of_readText {x : List Char} (h : readText s = .ok (x, r)) :
    ∃ t, Escaped x t ∧ s = t ++ '"' :: r := by
  induction s using readText.induct generalizing x with
  | case1 => exact absurd h (by simp [readText, stopAt])
  | case2 s =>
    rw [readText] at h
    cases h
    exact ⟨[], .nil, rfl⟩
  | case3 c s ih =>
    rw [readText] at h
    obtain ⟨⟨y, r'⟩, hread, h⟩ := Except.bind_eq_ok.1 h
    cases h
    obtain ⟨t, ht, rfl⟩ := ih hread
    exact ⟨_, .escape ht, rfl⟩
  | case4 c s hquote hslash ih =>
    rw [readText] at h
    · obtain ⟨⟨y, r'⟩, hread, h⟩ := Except.bind_eq_ok.1 h
      cases h
      obtain ⟨t, ht, rfl⟩ := ih hread
      -- A backslash has taken the character behind it, as there is one.
      obtain ⟨d, u, hu⟩ := List.exists_cons_of_ne_nil (List.append_ne_nil_of_right_ne_nil t
        (List.cons_ne_nil '"' r))
      exact ⟨c :: t, .plain hquote (fun hc => hslash d u hc hu) ht, rfl⟩
    · exact hquote
    · exact hslash

theorem quoted_of_readItem {x : String} (h : readItem s = .ok (x, r)) :
    ∃ t, Quoted x t ∧ Starts t s r := by
  obtain ⟨cs, u, hskip, hread, rfl⟩ := readItem_eq_ok.1 h
  obtain ⟨t, ht, rfl⟩ := escaped_of_readText hread
  refine ⟨_, .quotes ht, starts_of_skipBlanks ?_⟩
  rw [hskip, List.cons_append, List.append_assoc, List.singleton_append]

theorem quoted_of_nextItem {x : String} (h : nextItem s = .ok (some (x, r))) :
    ∃ b m t, Blank b ∧ s = b ++ ',' :: m ∧ Quoted x t ∧ Starts t m r := by
  rw [nextItem] at h
  split at h
  · rename_i m hskip
    obtain ⟨⟨y, r'⟩, hread, h⟩ := Except.map_eq_ok.1 h
    cases h
    obtain ⟨t, ht, hstarts⟩ := quoted_of_readItem hread
    obtain ⟨b, hb, hs⟩ := exists_eq_append_skipBlanks s
    exact ⟨b, m, t, hb, hskip ▸ hs, ht, hstarts⟩
  · cases h

/-- The items of a list, up to its closing bracket. -/
theorem items_of_steps {m e : List Char} {x : String} {more : List String}
    (h : Steps nextItem m more e) (he : skipBlanks e = ']' :: r) (hx : Quoted x t)
    (hstarts : Starts t s m) : ∃ u, Items (x :: more) u ∧ s = u ++ ']' :: r := by
  induction h generalizing x t s with
  | @done m hm =>
    obtain ⟨b, hb, rfl⟩ := starts_iff.1 hstarts
    obtain ⟨b', hb', hm⟩ := exists_eq_append_skipBlanks m
    refine ⟨_, .last hb hx hb', ?_⟩
    rw [List.append_assoc, List.append_assoc, ← he, ← hm]
  | @next m r' e y more hstep _ _ ih =>
    obtain ⟨b, hb, rfl⟩ := starts_iff.1 hstarts
    obtain ⟨b', m', t', hb', rfl, hy, hstarts'⟩ := quoted_of_nextItem hstep
    obtain ⟨u, hu, rfl⟩ := ih he hy hstarts'
    refine ⟨_, .more hb hx hb' hu, ?_⟩
    rw [List.append_assoc, List.append_assoc, List.append_assoc, List.cons_append]

theorem length_lt_of_nextItem {x : String} (h : nextItem s = .ok (some (x, r))) :
    r.length < s.length := by
  obtain ⟨b, m, t, -, rfl, -, hstarts⟩ := quoted_of_nextItem h
  obtain ⟨b', -, rfl⟩ := starts_iff.1 hstarts
  simp only [List.length_append, List.length_cons]
  omega

theorem spells_of_readList {xs : List String} (h : readList s = .ok (xs, r)) :
    ∃ t, SpellsOperand (.list xs) ('[' :: (t ++ [']'])) ∧ s = t ++ ']' :: r := by
  rw [readList] at h
  split at h
  · rename_i u hskip
    cases h
    obtain ⟨b, hb, hs⟩ := exists_eq_append_skipBlanks s
    exact ⟨b, .empty hb, hskip ▸ hs⟩
  · rw [readItem_skipBlanks] at h
    obtain ⟨⟨x, m⟩, hfirst, h⟩ := Except.bind_eq_ok.1 h
    obtain ⟨⟨more, e⟩, hmany, h⟩ := Except.bind_eq_ok.1 h
    have hsteps := (many_eq_ok_iff rfl fun _ _ _ => length_lt_of_nextItem).1 hmany
    dsimp only at h
    split at h
    · rename_i u hskip
      cases h
      obtain ⟨t, ht, hstarts⟩ := quoted_of_readItem hfirst
      obtain ⟨u, hu, hs⟩ := items_of_steps hsteps hskip ht hstarts
      exact ⟨u, .list hu, hs⟩
    · exact absurd h stopAt_ne_ok

theorem spells_of_readNumber {x : Operand} (h : readNumber s = .ok (x, r)) :
    ∃ t, SpellsOperand x t ∧ s = t ++ r := by
  rw [readNumber] at h
  split at h
  · exact absurd h stopAt_ne_ok
  · rename_i w r' _ hword
    obtain ⟨rfl, hw, -⟩ := of_wordOf hword
    split at h
    · rename_i d hd
      cases h
      exact ⟨w, .number (spells_of_ofText? hd hw), rfl⟩
    · split at h
      · rename_i i hi
        cases h
        exact ⟨w, .date hw hi, rfl⟩
      · exact absurd h stopAt_ne_ok

theorem spells_of_readOperand {x : Operand} (h : readOperand s = .ok (x, r)) :
    ∃ t, SpellsOperand x t ∧ Starts t s r := by
  rw [readOperand] at h
  split at h
  · rename_i u hskip
    obtain ⟨⟨cs, r'⟩, hread, h⟩ := Except.map_eq_ok.1 h
    cases h
    obtain ⟨t, ht, rfl⟩ := escaped_of_readText hread
    refine ⟨_, .text (.quotes ht), starts_of_skipBlanks ?_⟩
    rw [hskip, List.cons_append, List.append_assoc, List.singleton_append]
  · rename_i u hskip
    obtain ⟨⟨xs, r'⟩, hread, h⟩ := Except.map_eq_ok.1 h
    cases h
    obtain ⟨t, ht, rfl⟩ := spells_of_readList hread
    refine ⟨_, ht, starts_of_skipBlanks ?_⟩
    rw [hskip, List.cons_append, List.append_assoc, List.singleton_append]
  · split at h
    · rename_i r' _ hkeyword
      cases h
      obtain ⟨w, hskip, hw, -⟩ := of_keyword hkeyword
      exact ⟨w, .boolean (b := true) hw, starts_of_skipBlanks hskip⟩
    · rename_i r' _ _ hkeyword
      cases h
      obtain ⟨w, hskip, hw, -⟩ := of_keyword hkeyword
      exact ⟨w, .boolean (b := false) hw, starts_of_skipBlanks hskip⟩
    · obtain ⟨t, ht, hskip⟩ := spells_of_readNumber h
      exact ⟨t, ht, starts_of_skipBlanks hskip⟩

/-! ## Conditions -/

theorem spells_of_readCondition {f : Filter} (h : readCondition s = .ok (f, r)) :
    ∃ c ts, f = .condition c ∧ SpellsCondition c ts ∧ Run (fun _ => True) ts s r := by
  obtain ⟨⟨property, m⟩, hname, h⟩ := Except.bind_eq_ok.1 h
  obtain ⟨⟨comparator, m'⟩, hcomparator, h⟩ := Except.bind_eq_ok.1 h
  obtain ⟨name, hspells, hstarts⟩ := spells_of_readName hname
  obtain ⟨word, hspells', hstarts'⟩ := spells_of_readComparator hcomparator
  dsimp only at h
  split at h
  · rename_i hunary
    cases h
    exact ⟨_, _, rfl, .unary hspells hspells' hunary, hstarts.append hstarts'⟩
  · rename_i hbinary
    obtain ⟨⟨x, m''⟩, hoperand, h⟩ := Except.bind_eq_ok.1 h
    cases h
    obtain ⟨operand, hspells'', hstarts''⟩ := spells_of_readOperand hoperand
    exact ⟨_, _, rfl, .binary hspells hspells' (Bool.eq_false_iff.2 hbinary) hspells'',
      hstarts.append (hstarts'.append hstarts'')⟩

/-! ## Expressions -/

/-- Readers that read nothing but what a connective joins, as the tree that it
    stands for. -/
def SpellsRead (connective : Connective) (operand : Reader Reason Filter) : Prop :=
  ∀ s f r, operand s = .ok (f, r) → ∃ g ts, Spells (.operand connective g) ts ∧ g.flattened = f ∧
    Run (fun _ => True) ts s r

section

variable {connective : Connective} {operand : Reader Reason Filter} {f : Filter}

theorem exists_of_nextOperand (h : nextOperand connective operand s = .ok (some (f, r))) :
    ∃ w m, lowerAscii w = lowerAscii connective.keyword ∧ Starts w s m ∧
      operand m = .ok (f, r) := by
  rw [nextOperand] at h
  split at h
  · rename_i m hkeyword
    obtain ⟨⟨g, r'⟩, hread, h⟩ := Except.map_eq_ok.1 h
    cases h
    obtain ⟨w, hskip, hw, -⟩ := of_keyword hkeyword
    exact ⟨w, m, hw, starts_of_skipBlanks hskip, hread⟩
  · cases h

theorem length_lt_of_nextOperand (hoperand : SpellsRead connective operand)
    (h : nextOperand connective operand s = .ok (some (f, r))) : r.length < s.length := by
  obtain ⟨w, m, hw, hstarts, hread⟩ := exists_of_nextOperand h
  obtain ⟨_, _, -, -, hrun⟩ := hoperand _ _ _ hread
  obtain ⟨b, -, rfl⟩ := starts_iff.1 hstarts
  obtain ⟨c, u, rfl, -⟩ := exists_of_lowerAscii hw
  have hlength := hrun.suffix.length_le
  simp only [List.length_append, List.length_cons]
  omega

theorem steps_of_many (hoperand : SpellsRead connective operand) {fs : List Filter}
    (h : many (nextOperand connective operand) s = .ok (fs, r)) :
    Steps (nextOperand connective operand) s fs r := by
  have hnil : nextOperand connective operand [] = .ok none := by cases connective <;> rfl
  exact (many_eq_ok_iff hnil fun _ _ _ => length_lt_of_nextOperand hoperand).1 h

/-- The filters of a chain, one after the other. -/
theorem spells_of_steps (hoperand : SpellsRead connective operand) {m : List Char}
    {fs : List Filter} (hsteps : Steps (nextOperand connective operand) m fs r)
    (hfirst : operand s = .ok (f, m)) : ∃ gs ts, Spells (.chain connective gs) ts ∧
      gs.map Filter.flattened = f :: fs ∧ Run (fun _ => True) ts s r := by
  induction hsteps generalizing s f with
  | done =>
    obtain ⟨g, ts, hts, rfl, hrun⟩ := hoperand _ _ _ hfirst
    exact ⟨[g], ts, .single hts, rfl, hrun⟩
  | next hnext _ _ ih =>
    obtain ⟨g, ts, hts, rfl, hrun⟩ := hoperand _ _ _ hfirst
    obtain ⟨w, m, hw, hstarts, hread⟩ := exists_of_nextOperand hnext
    obtain ⟨gs, us, hus, hgs, hrun'⟩ := ih hread
    refine ⟨g :: gs, _, .joined hts hw hus, ?_, hrun.append (hstarts.append hrun')⟩
    rw [List.map_cons, hgs]

theorem spells_of_chain (hoperand : SpellsRead connective operand)
    (h : chain connective operand s = .ok (f, r)) : ∃ gs ts, Spells (.chain connective gs) ts ∧
      (Filter.group connective gs).flattened = f ∧ Run (fun _ => True) ts s r := by
  obtain ⟨first, others, m, hfirst, hmany, rfl⟩ := exists_of_chain h
  obtain ⟨gs, ts, hts, hgs, hrun⟩ := spells_of_steps hoperand (steps_of_many hoperand hmany) hfirst
  obtain ⟨_, _, hflat⟩ := flat_of_spells hts
  exact ⟨gs, ts, hts, by rw [← join_map_flattened connective hflat, hgs], hrun⟩

end

/-- Chains of `and` are what `or` joins. -/
theorem spellsRead_chain {operand : Reader Reason Filter} (h : SpellsRead .and operand) :
    SpellsRead .or (chain .and operand) := fun s f r hread => by
  obtain ⟨gs, ts, hts, hf, hrun⟩ := spells_of_chain h hread
  exact ⟨_, ts, .conjunction hts, hf, hrun⟩

theorem spellsRead_primary (depth : Nat) : SpellsRead .and (primary depth) := by
  induction depth with
  | zero =>
    intro s f r h
    obtain ⟨c, ts, rfl, hts, hrun⟩ := spells_of_readCondition h
    exact ⟨_, ts, .condition hts, by rw [Filter.flattened], hrun⟩
  | succ depth ih =>
    intro s f r h
    rw [primary, readPrimary] at h
    split at h
    · rename_i m hskip
      obtain ⟨⟨g, e⟩, hinside, h⟩ := Except.bind_eq_ok.1 h
      rw [expression_eq] at hinside
      dsimp only at h
      split at h
      · rename_i hclose
        cases h
        obtain ⟨gs, ts, hts, hf, hrun⟩ := spells_of_chain (spellsRead_chain ih) hinside
        have hopen : Starts ['('] s m := starts_of_skipBlanks hskip
        have hend : Starts [')'] e r := starts_of_skipBlanks hclose
        exact ⟨_, _, .parentheses hts, hf, hopen.append (hrun.append hend)⟩
      · exact absurd h stopAt_ne_ok
    · rw [readCondition_skipBlanks] at h
      obtain ⟨c, ts, rfl, hts, hrun⟩ := spells_of_readCondition h
      exact ⟨_, ts, .condition hts, by rw [Filter.flattened], hrun⟩

/-! ## Texts -/

theorem spells_of_parse {text : String} {f : Filter} (h : parse text = .ok f) :
    ∃ fs ts r, Spells (.chain .or fs) ts ∧ (Filter.group .or fs).flattened = f ∧
      Run (fun _ => True) ts text.toList r ∧ Blank r := by
  obtain ⟨r, hread, hr⟩ := parse_eq_ok_iff.1 h
  rw [expression_eq] at hread
  obtain ⟨fs, ts, hts, hf, hrun⟩ :=
    spells_of_chain (spellsRead_chain (spellsRead_primary _)) hread
  exact ⟨fs, ts, r, hts, hf, hrun, hr⟩

/-- Nothing is spelled without tokens. -/
theorem ne_nil_of_spells {p : Phrase} {ts : List (List Char)} (h : Spells p ts) : ts ≠ [] := by
  induction h with
  | condition hc => cases hc <;> exact List.cons_ne_nil _ _
  | parentheses => exact List.cons_ne_nil _ _
  | conjunction _ ih => exact ih
  | single _ ih => exact ih
  | joined => exact List.append_ne_nil_of_right_ne_nil _ (List.cons_ne_nil _ _)

theorem exists_isSpelling_of_parse {text : String} {f : Filter} (h : parse text = .ok f) :
    ∃ fs, IsSpelling (fun _ => True) fs text.toList ∧ (Filter.group .or fs).flattened = f := by
  obtain ⟨fs, ts, r, hts, hf, hrun, hr⟩ := spells_of_parse h
  obtain ⟨b, t, hb, hspaced, htext⟩ := hrun.exists_spaced (ne_nil_of_spells hts) hr
  exact ⟨fs, ⟨ts, b, t, hts, hb, hspaced, htext⟩, hf⟩

theorem spaced_intercalate {ts : List (List Char)} (h : ts ≠ []) :
    Spaced (· ≠ []) ts ([' '].intercalate ts) := by
  induction ts with
  | nil => exact absurd rfl h
  | cons t ts ih =>
    cases ts with
    | nil =>
      have hlast : Spaced (· ≠ []) [t] (t ++ []) := .last fun _ hc => absurd hc List.not_mem_nil
      rw [List.append_nil] at hlast
      rwa [List.intercalate_singleton]
    | cons u us =>
      have hspace : Blank [' '] := fun _ hc => List.mem_singleton.1 hc ▸ rfl
      rw [List.intercalate_cons_cons, List.append_assoc]
      exact .more hspace (List.cons_ne_nil _ _) (ih (List.cons_ne_nil _ _))

/-- A query can be written with a space between any two tokens. -/
theorem isSpelling_intercalate {fs : List Filter} {ts : List (List Char)}
    {s : List Char} (h : Spells (.chain .or fs) ts) (hs : s = [' '].intercalate ts) :
    IsSpelling (· ≠ []) fs s :=
  ⟨ts, [], _, h, fun _ hc => absurd hc List.not_mem_nil,
    spaced_intercalate (ne_nil_of_spells h), hs⟩

/-- The texts of queries are read as the trees that they stand for if blanks part
    all tokens, and nothing else is read than texts of queries, in which blanks
    may be missing. -/
theorem parse_of_isSpelling_and_isSpelling_of_parse (text : String) :
    (∀ fs, IsSpelling (· ≠ []) fs text.toList →
      parse text = .ok (Filter.group .or fs).flattened) ∧
    ∀ f, parse text = .ok f →
      ∃ fs, IsSpelling (fun _ => True) fs text.toList ∧ (Filter.group .or fs).flattened = f :=
  ⟨fun _ => parse_of_isSpelling, fun _ => exists_isSpelling_of_parse⟩

/-- Tasks that are not done, of no day or of certain people. -/
def waiting : Filter :=
  .group .and
    [.group .or [.condition ⟨"Due", .isEmpty, none⟩,
        .condition ⟨"assigned to", .unknown, some (.list ["me", "\""])⟩],
      .condition ⟨"done", .equals, some (.boolean false)⟩]

/-- The same tasks in a query. -/
def waitingQuery : String :=
  "( Due Is_Empty oR ( `assigned to` among [\"me\" , \"\\\"\"] ) ) aND done = FALSE"

theorem parse_and_isSpelling_waiting : parse waitingQuery = .ok waiting ∧
    ∃ fs, IsSpelling (fun _ => True) fs waitingQuery.toList ∧
      (Filter.group .or fs).flattened = waiting := by
  have hspace : Blank [' '] := fun _ hc => List.mem_singleton.1 hc ▸ rfl
  have hempty : Blank [] := fun _ hc => absurd hc List.not_mem_nil
  have hdue : SpellsCondition ⟨"Due", .isEmpty, none⟩ ["Due".toList, "Is_Empty".toList] :=
    .unary (.bare (w := "Due".toList) (by decide) (List.all_eq_true.1 (by decide)))
      (.name (by decide) (by decide)) rfl
  have hitems : Items ["me", "\""] "\"me\" , \"\\\"\"".toList :=
    .more hempty (.quotes (.plain (by decide) (by decide) (.plain (by decide) (by decide) .nil)))
      hspace (.last hspace (.quotes (.escape .nil)) hempty)
  have hnames : SpellsCondition ⟨"assigned to", .unknown, some (.list ["me", "\""])⟩
      ["`assigned to`".toList, "among".toList, "[\"me\" , \"\\\"\"]".toList] :=
    .binary (.quoted (w := "assigned to".toList) (by decide))
      (.other (by decide) (List.all_eq_true.1 (by decide)) (by decide)) rfl (.list hitems)
  have hdone : SpellsCondition ⟨"done", .equals, some (.boolean false)⟩
      ["done".toList, "=".toList, "FALSE".toList] :=
    .binary (.bare (w := "done".toList) (by decide) (List.all_eq_true.1 (by decide))) .equals rfl
      (.boolean (by decide))
  -- On both sides of a keyword, there are chains of a single filter.
  have hfirst := Spells.joined (w := "oR".toList) (.conjunction (.single (.condition hdue)))
    (by decide) (.single (.conjunction (.single (.parentheses
      (.single (.conjunction (.single (.condition hnames))))))))
  have hquery := Spells.single (.conjunction (.joined (w := "aND".toList) (.parentheses hfirst)
    (by decide) (.single (.condition hdone))))
  have hspelling : IsSpelling (· ≠ []) _ waitingQuery.toList :=
    isSpelling_intercalate hquery (by decide)
  have h := parse_of_isSpelling_and_isSpelling_of_parse waitingQuery
  have hparse : parse waitingQuery = .ok waiting := h.1 _ hspelling
  exact ⟨hparse, h.2 waiting hparse⟩

end Sift.Query
