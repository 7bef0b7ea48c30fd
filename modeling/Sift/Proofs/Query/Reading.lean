import Sift.Proofs.Query.Numbers
import Sift.Proofs.Query.RoundTrip

/-!
# Reading what the grammar allows

Every text of a query whose tokens are parted by blanks is read, as the tree
that it stands for.

* `readName_of_spells`, `readComparator_of_spells`, `readOperand_of_spells`: the
  tokens of a condition, with blanks before and after them;
* `read_of_spells`: the parts of a query, in front of what does not carry them
  on;
* `parse_of_isSpelling`: whole texts.
-/

namespace Sift.Query

open Text

variable {b s r t w : List Char}

/-! ## Ends of tokens -/

theorem isNameCharacter_of_isWordCharacter {c : Char} (h : isWordCharacter c) :
    isNameCharacter c := by
  rw [isWordCharacter] at h
  rw [isNameCharacter, h, Bool.true_or]

/-- Runs of characters that are no blanks end where a text is apart. -/
theorem Apart.ends {p : Char → Bool} (hs : Apart s) (hp : ∀ c, p c → isBlank c = false) :
    Ends p s := fun c hc => by
  have hblank : isBlank c := by simpa using hs c hc
  by_contra hpc
  rw [hp c (Bool.of_not_eq_false hpc)] at hblank
  exact absurd hblank Bool.false_ne_true

theorem Apart.endsName (hs : Apart s) : Ends isNameCharacter s :=
  hs.ends fun _ => isBlank_of_isNameCharacter

theorem Apart.endsComparator (hs : Apart s) : Ends isComparatorCharacter s :=
  hs.ends fun _ hc => isBlank_of_isNameCharacter (isNameCharacter_of_isComparatorCharacter hc)

theorem Apart.endsWord (hs : Apart s) : Ends isWordCharacter s :=
  hs.ends fun _ hc => isBlank_of_isNameCharacter (isNameCharacter_of_isWordCharacter hc)

theorem Apart.endsNumber (hs : Apart s) : Ends isNumberCharacter s :=
  hs.ends fun _ => isBlank_of_isNumberCharacter

/-! ## Names and comparators -/

theorem readName_blank (hb : Blank b) : readName (b ++ s) = readName s := by
  rw [readName, readName, skipBlanks_append hb]

theorem readName_of_spells {property : String} (h : SpellsName property t) (hb : Blank b)
    (hs : Apart s) : readName (b ++ (t ++ s)) = .ok (property, s) := by
  rw [readName_blank hb]
  cases h with
  | bare hne hw => exact readName_append hne hw hs.endsName
  | @quoted w hw =>
    have hword : wordOf (· != '\x60') (w ++ '\x60' :: s) = (w, '\x60' :: s) := by
      refine wordOf_append (fun c hc => ?_) (ends_cons.2 rfl)
      rw [bne_iff_ne]
      rintro rfl
      exact hw hc
    rw [List.cons_append, List.append_assoc, List.singleton_append, readName,
      skipBlanks_of_ends (ends_cons.2 rfl)]
    split
    · rename_i r he
      obtain rfl := (List.cons.inj he).2
      rw [hword]
      rfl
    · rename_i hne
      exact absurd rfl (hne _)

theorem readComparator_blank (hb : Blank b) : readComparator (b ++ s) = readComparator s := by
  rw [readComparator, readComparator, skipBlanks_append hb]

theorem ofWord_of_lowerAscii {c : Comparator} (h : lowerAscii w = c.name.toList) :
    Comparator.ofWord w = c := by
  rw [Comparator.ofWord, h, String.ofList_toList, Comparator.ofName_name]

theorem ofWord_eq_unknown (h : ∀ c ∈ Comparator.all, lowerAscii w ≠ c.name.toList) :
    Comparator.ofWord w = .unknown := by
  rw [Comparator.ofWord, Comparator.ofName, List.find?_eq_none.2, Option.getD_none]
  intro c hc hname
  refine h c hc ?_
  rw [eq_of_beq hname, String.toList_ofList]

/-- A word in any letter case has the characters of a comparator, if it has them
    in lower case. -/
theorem isComparatorCharacter_of_lowerAscii {word : List Char} (h : lowerAscii w = word)
    (hword : word ≠ [] ∧ word.all isComparatorCharacter) :
    w ≠ [] ∧ ∀ x ∈ w, isComparatorCharacter x := by
  subst h
  refine ⟨fun hw => hword.1 (by rw [hw, lowerAscii, List.map_nil]), fun x hx => ?_⟩
  exact isComparatorCharacter_of_toLower
    (List.all_eq_true.1 hword.2 _ (List.mem_map_of_mem hx))

theorem Apart.ne_equals (hs : Apart s) (r : List Char) : s ≠ '=' :: r := by
  rintro rfl
  exact absurd (ends_cons.1 hs) (by decide)

/-- A symbol that an equals sign would carry on. -/
theorem readComparator_symbol (hs : Apart s) :
    readComparator ('>' :: s) = .ok (.greaterThan, s) ∧
      readComparator ('<' :: s) = .ok (.lessThan, s) := by
  cases s with
  | nil => exact ⟨rfl, rfl⟩
  | cons d s =>
    have hd : d ≠ '=' := fun h => hs.ne_equals s (h ▸ rfl)
    constructor
    · rw [readComparator, skipBlanks_of_ends (ends_cons.2 rfl)]
      split <;> simp_all
    · rw [readComparator, skipBlanks_of_ends (ends_cons.2 rfl)]
      split <;> simp_all

theorem readComparator_of_spells {c : Comparator} (h : SpellsComparator c t) (hb : Blank b)
    (hs : Apart s) : readComparator (b ++ (t ++ s)) = .ok (c, s) := by
  rw [readComparator_blank hb]
  cases h with
  | equals => rfl
  | notEquals => rfl
  | greaterThanOrEqualTo => rfl
  | lessThanOrEqualTo => rfl
  | greaterThan => exact (readComparator_symbol hs).1
  | lessThan => exact (readComparator_symbol hs).2
  | name _ hname =>
    obtain ⟨hne, hw⟩ := isComparatorCharacter_of_lowerAscii hname (by cases c <;> decide)
    rw [readComparator_append hne hw hs.endsComparator, ofWord_of_lowerAscii hname]
  | other hne hw hnone =>
    rw [readComparator_append hne hw hs.endsComparator, ofWord_eq_unknown hnone]

/-! ## Operands -/

theorem readText_of_escaped {x : List Char} (h : Escaped x t) :
    readText (t ++ '"' :: r) = .ok (x, r) := by
  induction h with
  | nil => rw [List.nil_append, readText]
  | plain hquote hslash _ ih =>
    rw [List.cons_append, readText, ih]
    · rfl
    · exact hquote
    · exact fun _ _ he _ => hslash he
  | escape _ ih =>
    rw [List.cons_append, List.cons_append, readText, ih]
    rfl

theorem readItem_eq_ok {x : String} : readItem s = .ok (x, r) ↔
    ∃ cs t, skipBlanks s = '"' :: t ∧ readText t = .ok (cs, r) ∧ x = String.ofList cs := by
  rw [readItem]
  split
  · rename_i t hskip
    rw [hskip, Except.map_eq_ok]
    simp only [Prod.exists, Prod.mk.injEq, List.cons.injEq, true_and]
    constructor
    · rintro ⟨cs, r', hread, rfl, rfl⟩
      exact ⟨cs, t, rfl, hread, rfl⟩
    · rintro ⟨cs, _, rfl, hread, rfl⟩
      exact ⟨cs, r, hread, rfl, rfl⟩
  · rename_i hskip
    constructor
    · exact fun h => absurd h stopAt_ne_ok
    · rintro ⟨_, t, hquote, -⟩
      exact absurd hquote (hskip t)

theorem readItem_of_quoted {x : String} (h : Quoted x t) (hb : Blank b) :
    readItem (b ++ (t ++ r)) = .ok (x, r) := by
  obtain ⟨hx⟩ := h
  refine readItem_eq_ok.2 ⟨_, _, ?_, readText_of_escaped hx, rfl⟩
  rw [skipBlanks_append hb, List.cons_append, List.append_assoc, List.singleton_append,
    skipBlanks_of_ends (ends_cons.2 rfl)]

/-- The items of a list, up to its closing bracket. -/
theorem steps_of_items {xs : List String} (h : Items xs t) (r : List Char) : ∃ x more m e,
    xs = x :: more ∧ readItem (t ++ ']' :: r) = .ok (x, m) ∧ Steps nextItem m more e ∧
      skipBlanks e = ']' :: r ∧ m.length ≤ (t ++ ']' :: r).length := by
  induction h with
  | @last x b t b' hb hx hb' =>
    have hskip : skipBlanks (b' ++ ']' :: r) = ']' :: r := by
      rw [skipBlanks_append hb', skipBlanks_of_ends (ends_cons.2 rfl)]
    refine ⟨x, [], b' ++ ']' :: r, b' ++ ']' :: r, rfl, ?_, .done ?_, hskip, ?_⟩
    · rw [List.append_assoc, List.append_assoc]
      exact readItem_of_quoted hx hb
    · rw [nextItem, hskip]
      rfl
    · simp only [List.length_append]
      omega
  | @more x xs b t b' u hb hx hb' _ ih =>
    obtain ⟨y, more, m, e, rfl, hread, hsteps, hskip, hlength⟩ := ih
    refine ⟨x, y :: more, b' ++ ',' :: (u ++ ']' :: r), e, rfl, ?_, .next ?_ ?_ hsteps, hskip, ?_⟩
    · rw [List.append_assoc, List.append_assoc, List.append_assoc]
      exact readItem_of_quoted hx hb
    · rw [nextItem, skipBlanks_append hb', skipBlanks_of_ends (ends_cons.2 rfl)]
      exact Except.map_eq_ok.2 ⟨_, hread, rfl⟩
    · simp only [List.length_append, List.length_cons] at hlength ⊢
      omega
    · simp only [List.length_append, List.length_cons]
      omega

theorem readItem_skipBlanks (s : List Char) : readItem (skipBlanks s) = readItem s := by
  rw [readItem, readItem, skipBlanks_skipBlanks]

theorem readList_of_items {xs : List String} (h : Items xs t) :
    readList (t ++ ']' :: r) = .ok (xs, r) := by
  obtain ⟨x, more, m, e, rfl, hread, hsteps, hskip, -⟩ := steps_of_items h r
  obtain ⟨_, u, hquote, -⟩ := readItem_eq_ok.1 hread
  rw [readList]
  split
  · rename_i he
    rw [hquote] at he
    exact absurd (List.cons.inj he).1 (by decide)
  · rw [readItem_skipBlanks]
    refine Except.bind_eq_ok.2 ⟨_, hread, Except.bind_eq_ok.2 ⟨_, many_eq_of_steps hsteps, ?_⟩⟩
    dsimp only
    rw [hskip]
    rfl

theorem readOperand_blank (hb : Blank b) : readOperand (b ++ s) = readOperand s := by
  rw [readOperand, readOperand, skipBlanks_append hb]

theorem readOperand_text_of_quoted {x : String} (h : Quoted x t) :
    readOperand (t ++ s) = .ok (.text x, s) := by
  obtain ⟨hx⟩ := h
  rw [List.cons_append, List.append_assoc, List.singleton_append]
  change (readText _).map _ = _
  exact Except.map_eq_ok.2 ⟨_, readText_of_escaped hx, rfl⟩

theorem readOperand_of_spells {x : Operand} (h : SpellsOperand x t) (hb : Blank b)
    (hs : Apart s) : readOperand (b ++ (t ++ s)) = .ok (x, s) := by
  rw [readOperand_blank hb]
  cases h with
  | text hx => exact readOperand_text_of_quoted hx
  | @empty b hb =>
    have hread : readList (b ++ ']' :: s) = .ok ([], s) := by
      rw [readList, skipBlanks_append hb]
      rfl
    rw [List.cons_append, List.append_assoc, List.singleton_append]
    change (readList _).map _ = _
    exact Except.map_eq_ok.2 ⟨_, hread, rfl⟩
  | @list xs t hxs =>
    rw [List.cons_append, List.append_assoc, List.singleton_append]
    change (readList _).map _ = _
    exact Except.map_eq_ok.2 ⟨_, readList_of_items hxs, rfl⟩
  | boolean hw => exact readOperand_word hw hs.endsWord
  | number hw =>
    obtain ⟨_, sign, body, -, rfl, hne, -⟩ := exists_of_spellsNumber hw
    obtain ⟨c, u, hcu⟩ := List.exists_cons_of_ne_nil (List.append_ne_nil_of_right_ne_nil sign hne)
    rw [hcu] at hw ⊢
    refine readOperand_run (of_mem_number hw List.mem_cons_self) (fun x hx => ?_)
      (.inl (by rw [ofText?_of_spells hw, Option.map_some])) hs.endsNumber
    rcases of_mem_number hw hx with hx | rfl | rfl | rfl
    · exact isNumberCharacter_of_isDigit hx
    all_goals rfl
  | @date i w hw hi =>
    have hnumber := ofText?_eq_none_of_date hi hw
    obtain ⟨c, u, v, rfl, hc, -⟩ :=
      Instant.exists_of_ofText? hi fun c hc => isBlank_of_isNumberCharacter (hw c hc)
    have hstart : isDigit c ∨ c = '-' ∨ c = '+' ∨ c = '.' :=
      hc.imp_right (Or.elim · (fun h => .inr (.inl h)) .inl)
    exact readOperand_run hstart hw (.inr ⟨hnumber, by rw [hi, Option.map_some]⟩) hs.endsNumber

/-! ## Conditions -/

theorem readCondition_of_spells {c : Condition} {ts : List (List Char)}
    (h : SpellsCondition c ts) (hrun : Run Apart ts s r) :
    readCondition s = .ok (.condition c, r) := by
  cases h with
  | unary hname hword hunary =>
    obtain ⟨b, _, hb, hm, rfl, hrest⟩ := Run.cons_iff.1 hrun
    obtain ⟨b', _, hb', hr, rfl, hend⟩ := Run.cons_iff.1 hrest
    obtain rfl := Run.nil_iff.1 hend
    refine Except.bind_eq_ok.2 ⟨_, readName_of_spells hname hb hm,
      Except.bind_eq_ok.2 ⟨_, readComparator_of_spells hword hb' hr, ?_⟩⟩
    dsimp only
    rw [if_pos hunary]
    rfl
  | binary hname hword hbinary hx =>
    obtain ⟨b, _, hb, hm, rfl, hrest⟩ := Run.cons_iff.1 hrun
    obtain ⟨b', _, hb', hm', rfl, hlast⟩ := Run.cons_iff.1 hrest
    obtain ⟨b'', _, hb'', hr, rfl, hend⟩ := Run.cons_iff.1 hlast
    obtain rfl := Run.nil_iff.1 hend
    refine Except.bind_eq_ok.2 ⟨_, readName_of_spells hname hb hm,
      Except.bind_eq_ok.2 ⟨_, readComparator_of_spells hword hb' hm', ?_⟩⟩
    dsimp only
    rw [hbinary]
    exact Except.bind_eq_ok.2 ⟨_, readOperand_of_spells hx hb'' hr, rfl⟩

/-- No name starts with a parenthesis. -/
theorem exists_of_spellsName {property : String} (h : SpellsName property t) :
    ∃ c u, t = c :: u ∧ isBlank c = false ∧ c ≠ '(' := by
  cases h with
  | bare hne hw =>
    obtain ⟨c, u, rfl⟩ := List.exists_cons_of_ne_nil hne
    have hc := hw c List.mem_cons_self
    refine ⟨c, u, rfl, isBlank_of_isNameCharacter hc, ?_⟩
    rintro rfl
    exact absurd hc (by decide)
  | quoted => exact ⟨_, _, rfl, rfl, by decide⟩

theorem exists_name_of_spells {c : Condition} {ts : List (List Char)}
    (h : SpellsCondition c ts) : ∃ name us, ts = name :: us ∧ SpellsName c.property name := by
  cases h with
  | unary hname => exact ⟨_, _, rfl, hname⟩
  | binary hname => exact ⟨_, _, rfl, hname⟩

/-- What a condition starts with is neither a blank nor a parenthesis. -/
theorem skipBlanks_ne_of_spells {c : Condition} {ts : List (List Char)}
    (h : SpellsCondition c ts) (hrun : Run Apart ts s r) (u : List Char) :
    skipBlanks s ≠ '(' :: u := by
  obtain ⟨name, us, rfl, hname⟩ := exists_name_of_spells h
  obtain ⟨b, m, hb, -, rfl, -⟩ := Run.cons_iff.1 hrun
  obtain ⟨x, v, rfl, hblank, hx⟩ := exists_of_spellsName hname
  rw [skipBlanks_append hb, List.cons_append, skipBlanks_of_ends (ends_cons.2 hblank)]
  exact fun h => hx (List.cons.inj h).1

theorem readCondition_skipBlanks (s : List Char) :
    readCondition (skipBlanks s) = readCondition s := by
  rw [readCondition, readCondition, readName, readName, skipBlanks_skipBlanks]

theorem primary_of_spells {c : Condition} {ts : List (List Char)} (h : SpellsCondition c ts)
    (hrun : Run Apart ts s r) (depth : Nat) : primary depth s = .ok (.condition c, r) := by
  have hread := readCondition_of_spells h hrun
  cases depth with
  | zero => exact hread
  | succ depth =>
    rw [primary, readPrimary]
    split
    · rename_i u hu
      exact absurd hu (skipBlanks_ne_of_spells h hrun u)
    · rw [readCondition_skipBlanks, hread]

/-! ## Chains -/

/-- Whether the keyword of a connective is not what a text starts with. -/
def NoKeyword (connective : Connective) (s : List Char) : Prop :=
  keyword isWordCharacter (lowerAscii connective.keyword) (skipBlanks s) = none

/-- Whether a part of a query ends in front of a text: no keyword carries it
    on. -/
def Phrase.Closed : Phrase → List Char → Prop
  | operand connective _, s => connective = .or → NoKeyword .and s
  | chain connective _, s => (connective = .or → NoKeyword .and s) ∧ NoKeyword connective s

/-- The reader of what a connective joins. -/
def operandReader (depth : Nat) : Connective → Reader Reason Filter
  | .or => Query.chain .and (primary depth)
  | _ => primary depth

/-- What reading a part of a query comes to: a filter, or the filters of a
    chain one after the other. -/
def Phrase.Read (depth : Nat) : Phrase → List Char → List Char → Prop
  | operand connective f, s, r => operandReader depth connective s = .ok (f.flattened, r)
  | chain connective fs, s, r => ∃ f gs m, fs = f :: gs ∧
      operandReader depth connective s = .ok (f.flattened, m) ∧ m.length ≤ s.length ∧
        Steps (nextOperand connective (operandReader depth connective)) m
          (gs.map Filter.flattened) r

/-- A chain that is read is read as the group of its filters. -/
theorem chain_of_read (connective : Connective) {fs : List Filter} {depth : Nat}
    (h : (Phrase.chain connective fs).Read depth s r) (hflat : ∀ f ∈ fs, f.flattened.Flat) :
    chain connective (operandReader depth connective) s =
      .ok ((Filter.group connective fs).flattened, r) := by
  obtain ⟨f, gs, m, rfl, hfirst, -, hsteps⟩ := h
  rw [chain_of_steps hfirst hsteps, ← List.map_cons, join_map_flattened connective hflat]

/-- Keywords start with a letter. -/
theorem exists_of_lowerAscii {connective : Connective}
    (hw : lowerAscii w = lowerAscii connective.keyword) :
    ∃ c u, w = c :: u ∧ isBlank c = false := by
  obtain ⟨hne, hcharacters⟩ :=
    isComparatorCharacter_of_lowerAscii hw (by cases connective <;> decide)
  obtain ⟨c, u, rfl⟩ := List.exists_cons_of_ne_nil hne
  exact ⟨c, u, rfl, isBlank_of_isNameCharacter
    (isNameCharacter_of_isComparatorCharacter (hcharacters c List.mem_cons_self))⟩

theorem skipBlanks_keyword {connective : Connective} (hb : Blank b)
    (hw : lowerAscii w = lowerAscii connective.keyword) : skipBlanks (b ++ (w ++ s)) = w ++ s := by
  obtain ⟨c, u, rfl, hblank⟩ := exists_of_lowerAscii hw
  rw [skipBlanks_append hb, List.cons_append, skipBlanks_of_ends (ends_cons.2 hblank)]

/-- The keyword of `or` is not the keyword of `and`. -/
theorem noKeyword_or (hb : Blank b) (hw : lowerAscii w = lowerAscii Connective.or.keyword) :
    NoKeyword .and (b ++ (w ++ s)) := by
  rw [NoKeyword, skipBlanks_keyword hb hw]
  obtain ⟨c, u, rfl, -⟩ := exists_of_lowerAscii hw
  have hc : c.toLower = 'o' := (List.cons.inj hw).1
  exact keyword_cons_eq_none (hc ▸ by decide)

theorem noKeyword_close (connective : Connective) (hb : Blank b) :
    NoKeyword connective (b ++ ')' :: s) := by
  rw [NoKeyword, skipBlanks_append hb, skipBlanks_of_ends (ends_cons.2 rfl)]
  cases connective with
  | and => exact keyword_cons_eq_none (by decide)
  | or => exact keyword_cons_eq_none (by decide)
  | unknown => exact keyword_cons_eq_none (by decide)

/-- After blanks and the keyword of its connective, the next operand of a chain
    follows. -/
theorem nextOperand_of_lowerAscii {connective : Connective} {operand : Reader Reason Filter}
    (hb : Blank b) (hw : lowerAscii w = lowerAscii connective.keyword) (hs : Apart s) :
    nextOperand connective operand (b ++ (w ++ s)) = (operand s).map some := by
  rw [nextOperand, skipBlanks_keyword hb hw, keyword_append hw hs.endsWord]

theorem readPrimary_of_inner {inner : Reader Reason Filter} {f : Filter} {b' m : List Char}
    (hb : Blank b) (hb' : Blank b') (h : inner m = .ok (f, b' ++ ')' :: r)) :
    readPrimary inner (b ++ '(' :: m) = .ok (f, r) := by
  rw [readPrimary, skipBlanks_append hb, skipBlanks_of_ends (ends_cons.2 rfl)]
  refine Except.bind_eq_ok.2 ⟨_, h, ?_⟩
  dsimp only
  rw [skipBlanks_append hb', skipBlanks_of_ends (ends_cons.2 rfl)]
  rfl

/-- The parts of a query are read in front of what does not carry them on, if the
    bound leaves room for the parentheses. -/
theorem read_of_spells {p : Phrase} {ts : List (List Char)} (h : Spells p ts) {depth : Nat}
    (hrun : Run Apart ts s r) (hclosed : p.Closed r) (hdepth : s.count '(' ≤ depth) :
    p.Read depth s r := by
  -- Every part of a part is followed by a keyword, a closing parenthesis or what
  -- follows the whole, none of which carries it on.
  induction h generalizing depth s r with
  | @condition c ts hc =>
    rw [Phrase.Read, Filter.flattened]
    exact primary_of_spells hc hrun depth
  | @parentheses fs ts hfs ih =>
    obtain ⟨_, _, hflat⟩ := flat_of_spells hfs
    obtain ⟨b, m, hb, _, rfl, hrest⟩ := Run.cons_iff.1 hrun
    obtain ⟨m', hts, hlast⟩ := hrest.exists_of_append
    obtain ⟨b', e, hb', hr, rfl, hend⟩ := Run.cons_iff.1 hlast
    obtain rfl := Run.nil_iff.1 hend
    -- The opening parenthesis leaves room for fewer inside.
    rw [List.count_append, List.singleton_append, List.count_cons_self] at hdepth
    obtain ⟨depth, rfl⟩ := Nat.exists_eq_add_of_le' (show 1 ≤ depth by omega)
    have hinside :
        expression depth m = .ok ((Filter.group .or fs).flattened, b' ++ ')' :: e) := by
      rw [expression_eq]
      refine chain_of_read .or (ih hts ⟨fun _ => ?_, ?_⟩ (by omega)) hflat
      · exact noKeyword_close _ hb'
      · exact noKeyword_close _ hb'
    exact readPrimary_of_inner hb hb' hinside
  | @conjunction fs ts hfs ih =>
    obtain ⟨_, hne, hflat⟩ := flat_of_spells hfs
    refine chain_of_read .and (ih hrun ⟨?_, hclosed rfl⟩ hdepth) hflat
    exact fun h => absurd h (by decide)
  | @single connective f ts hf ih =>
    refine ⟨f, [], r, rfl, ih hrun hclosed.1 hdepth, hrun.suffix.length_le, .done ?_⟩
    exact nextOperand_eq_none _ hclosed.2
  | @joined connective f fs w ts us hf hw hfs ih ihs =>
    obtain ⟨m, hts, hus⟩ := hrun.exists_of_append
    obtain ⟨b, m', hb, hm', rfl, hrest⟩ := Run.cons_iff.1 hus
    have hsuffix : m' <:+ s :=
      (List.suffix_append_of_suffix (List.suffix_append w m')).trans hts.suffix
    have hfirst := ih hts (fun h => noKeyword_or hb (h ▸ hw)) hdepth
    have hdepth' : m'.count '(' ≤ depth := (hsuffix.sublist.count_le _).trans hdepth
    obtain ⟨g, gs, m'', rfl, hnext, hlength, hsteps⟩ := ihs hrest hclosed hdepth'
    refine ⟨f, g :: gs, b ++ (w ++ m'), rfl, hfirst, hts.suffix.length_le, .next ?_ ?_ hsteps⟩
    · rw [nextOperand_of_lowerAscii hb hw hm', hnext, Except.map]
    · have hpos : 0 < w.length := by
        obtain ⟨c, u, rfl, -⟩ := exists_of_lowerAscii hw
        exact Nat.succ_pos _
      simp only [List.length_append]
      omega

/-- Whole texts, with any blanks before and behind them. -/
theorem parse_of_isSpelling {text : String} {fs : List Filter}
    (h : IsSpelling (· ≠ []) fs text.toList) :
    parse text = .ok (Filter.group .or fs).flattened := by
  obtain ⟨ts, b, r, hts, hb, hspaced, htext⟩ := h
  obtain ⟨e, he, hrun⟩ := hspaced.exists_run hb
  have hend (connective : Connective) : NoKeyword connective e := by
    rw [NoKeyword, skipBlanks_of_blank he]
    cases connective <;> rfl
  obtain ⟨_, _, hflat⟩ := flat_of_spells hts
  refine parse_eq_ok_iff.2 ⟨e, ?_, he⟩
  rw [htext, expression_eq]
  exact chain_of_read .or
    (read_of_spells hts hrun ⟨fun _ => hend _, hend _⟩ (Nat.le_refl _)) hflat

end Sift.Query
