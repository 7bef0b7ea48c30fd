import Sift.Proofs.Query.Tokens

/-!
# Queries that read back

A filter reads back from its text, if it is one that a query can name
(`Filter.Normal`): its conditions are written as they are, and its groups have
at least two filters, none of them a group of the same connective, which would
be dissolved.

* `Query.Reads`: the filters that a reader reads in front of some rests;
* `Query.chain_written`: filters joined by a connective, each read by the reader
  of the operands;
* `Query.reads_primary`: a filter as an operand, with its parentheses;
* `Query.parse_toText`: the round trip.
-/

namespace Sift

open Text

/-- Conditions that stand in a query as they are. -/
structure Condition.Normal (c : Condition) : Prop where
  property_ne_empty : c.property ≠ ""
  isNameCharacter : ∀ x ∈ c.property.toList, Query.isNameCharacter x
  isSome_operand_iff : c.operand.isSome ↔ ¬c.comparator.isUnary
  printable : ∀ x ∈ c.operand, x.Printable

/-- Filters that stand in a query as they are. -/
inductive Filter.Normal : Filter → Prop
  | condition {c : Condition} : c.Normal → Normal (.condition c)
  | group {connective : Connective} {fs : List Filter} : connective ≠ .unknown → 2 ≤ fs.length →
    (∀ f ∈ fs, Normal f) → (∀ gs, .group connective gs ∉ fs) → Normal (.group connective fs)

namespace Condition

theorem normal_of_binary {property : String} {comparator : Comparator} {x : Operand}
    (hproperty : property ≠ "" ∧ property.toList.all Query.isNameCharacter)
    (hcomparator : comparator.isUnary = false) (hx : x.Printable) :
    Condition.Normal ⟨property, comparator, some x⟩ where
  property_ne_empty := hproperty.1
  isNameCharacter := List.all_eq_true.1 hproperty.2
  isSome_operand_iff := by simp [hcomparator]
  printable _ h := Option.some.inj h ▸ hx

theorem normal_of_unary {property : String} {comparator : Comparator}
    (hproperty : property ≠ "" ∧ property.toList.all Query.isNameCharacter)
    (hcomparator : comparator.isUnary) : Condition.Normal ⟨property, comparator, none⟩ where
  property_ne_empty := hproperty.1
  isNameCharacter := List.all_eq_true.1 hproperty.2
  isSome_operand_iff := by simp [hcomparator]
  printable _ h := nomatch h

end Condition

namespace Query

variable {r : List Char}

/-! ## Conditions -/

theorem property_ne_nil {c : Condition} (h : c.property ≠ "") : c.property.toList ≠ [] :=
  fun he => h (String.toList_eq_nil_iff.1 he)

/-- A condition with a bare name is read up to its operand, which is read in
    front of the same rest. -/
theorem readCondition_binary {property : String} {comparator : Comparator} {x : Operand}
    (hproperty : property.toList ≠ []) (hname : ∀ c ∈ property.toList, isNameCharacter c)
    (hbinary : comparator.isUnary = false) (r : List Char) :
    readCondition ((Condition.mk property comparator (some x)).written ++ r) =
      (readOperand (' ' :: (x.written ++ r))).map
        fun (y, r) => (.condition ⟨property, comparator, some y⟩, r) := by
  have hread := readName_append hproperty hname
    (ends_cons.2 (by decide) : Ends isNameCharacter (' ' :: (comparator.name.toList ++ ' ' ::
      (x.written ++ r))))
  have hcomparator := readComparator_name comparator
    (ends_cons.2 (by decide) : Ends isComparatorCharacter (' ' :: (x.written ++ r)))
  rw [Condition.written]
  simp only [hbinary, Bool.false_eq_true, if_false, List.append_assoc, List.cons_append]
  rw [readCondition, hread]
  simp only [bind, Except.bind, hcomparator, hbinary, Bool.false_eq_true, if_false,
    String.ofList_toList]
  cases readOperand (' ' :: (x.written ++ r)) with
  | error e => rfl
  | ok y => rfl

theorem readCondition_written {c : Condition} (hc : c.Normal) (hr : Boundary r) :
    readCondition (c.written ++ r) = .ok (.condition c, r) := by
  have hproperty := property_ne_nil hc.property_ne_empty
  obtain ⟨property, comparator, operand⟩ := c
  have hoperand := hc.isSome_operand_iff
  dsimp only at hoperand
  cases operand with
  | none =>
    have hunary : comparator.isUnary := by simpa using hoperand
    have hname : readName (property.toList ++ ' ' :: (comparator.name.toList ++ r)) =
        .ok (property, ' ' :: (comparator.name.toList ++ r)) := by
      rw [readName_append hproperty hc.isNameCharacter (ends_cons.2 (by decide)),
        String.ofList_toList]
    rw [Condition.written]
    simp only [List.append_assoc, List.cons_append, List.nil_append]
    refine Except.bind_eq_ok.2 ⟨_, hname, Except.bind_eq_ok.2 ⟨_, readComparator_name comparator
      (hr.ends (by decide) (by decide)), ?_⟩⟩
    dsimp only
    rw [if_pos hunary]
    rfl
  | some x =>
    have hbinary : comparator.isUnary = false := by simpa using hoperand
    rw [readCondition_binary hproperty hc.isNameCharacter hbinary,
      readOperand_written (hc.printable x rfl) hr, Except.map]

/-! ## Chains -/

/-- Whether a reader reads a filter in front of the rests of a kind, at once and
    after a blank. -/
def Reads (operand : Reader Reason Filter) (ok : List Char → Prop) (f : Filter) : Prop :=
  ∀ r, ok r → operand (f.written ++ r) = .ok (f, r) ∧ operand (' ' :: (f.written ++ r)) = .ok (f, r)

/-- After the keyword of its connective, the next operand of a chain follows. -/
theorem nextOperand_keyword (connective : Connective) (operand : Reader Reason Filter)
    (s : List Char) :
    nextOperand connective operand (' ' :: (connective.keyword ++ ' ' :: s)) =
      (operand (' ' :: s)).map some := by
  have hskip : skipBlanks (' ' :: (connective.keyword ++ ' ' :: s)) =
      connective.keyword ++ ' ' :: s := by
    cases connective <;> rfl
  rw [nextOperand, hskip, keyword_append rfl (ends_cons.2 (by decide))]

/-- Behind the first operand of a chain, the keyword of its connective or its
    end follows. -/
theorem ok_writtenMore {connective : Connective} {ok : List Char → Prop} {t : List Char}
    (hok : ∀ s, ok (' ' :: (connective.keyword ++ ' ' :: s))) (ht : ok t) (fs : List Filter) :
    ok (Filter.writtenMore connective fs ++ t) := by
  cases fs with
  | nil => rwa [Filter.writtenMore, List.nil_append]
  | cons f fs =>
    rw [Filter.writtenMore]
    simp only [List.append_assoc, List.cons_append]
    exact hok _

theorem steps_nextOperand {connective : Connective} {operand : Reader Reason Filter}
    {ok : List Char → Prop} {fs : List Filter} {t : List Char}
    (h : ∀ f ∈ fs, Reads operand ok f) (hok : ∀ s, ok (' ' :: (connective.keyword ++ ' ' :: s)))
    (ht : ok t) (hend : nextOperand connective operand t = .ok none) :
    Steps (nextOperand connective operand) (Filter.writtenMore connective fs ++ t) fs t := by
  induction fs with
  | nil =>
    rw [Filter.writtenMore, List.nil_append]
    exact .done hend
  | cons f fs ih =>
    rw [List.forall_mem_cons] at h
    rw [Filter.writtenMore]
    simp only [List.append_assoc, List.cons_append]
    refine .next ?_ ?_ (ih h.2)
    · rw [nextOperand_keyword]
      exact Except.map_eq_ok.2 ⟨_, (h.1 _ (ok_writtenMore hok ht fs)).2, rfl⟩
    · simp only [List.length_cons, List.length_append]
      omega

theorem chain_of_steps {connective : Connective} {operand : Reader Reason Filter} {f : Filter}
    {fs : List Filter} {s r t : List Char} (hfirst : operand s = .ok (f, r))
    (hsteps : Steps (nextOperand connective operand) r fs t) :
    chain connective operand s = .ok (join connective (f :: fs), t) :=
  Except.bind_eq_ok.2 ⟨_, hfirst, Except.bind_eq_ok.2 ⟨_, many_eq_of_steps hsteps, rfl⟩⟩

theorem exists_of_chain {connective : Connective} {operand : Reader Reason Filter} {f : Filter}
    {s t : List Char} (h : chain connective operand s = .ok (f, t)) : ∃ first others r,
      operand s = .ok (first, r) ∧ many (nextOperand connective operand) r = .ok (others, t) ∧
        f = join connective (first :: others) := by
  obtain ⟨⟨first, r⟩, hfirst, h⟩ := Except.bind_eq_ok.1 h
  obtain ⟨⟨others, t'⟩, hmany, h⟩ := Except.bind_eq_ok.1 h
  cases h
  exact ⟨first, others, r, hfirst, hmany, rfl⟩

/-- A single filter as a chain, in front of rests that do not carry it on. -/
theorem Reads.chain {operand : Reader Reason Filter} {ok : List Char → Prop} {f : Filter}
    (h : Reads operand ok f) (connective : Connective) :
    Reads (chain connective operand)
      (fun r => ok r ∧ nextOperand connective operand r = .ok none) f :=
  fun r hr => ⟨chain_of_steps (h r hr.1).1 (.done hr.2), chain_of_steps (h r hr.1).2 (.done hr.2)⟩

/-- Filters joined by a connective, read one after the other. -/
theorem chain_written {connective : Connective} {operand : Reader Reason Filter}
    {ok : List Char → Prop} {f : Filter} {fs : List Filter}
    {t : List Char} (h : ∀ g ∈ f :: fs, Reads operand ok g)
    (hok : ∀ s, ok (' ' :: (connective.keyword ++ ' ' :: s))) (ht : ok t)
    (hend : nextOperand connective operand t = .ok none) :
    chain connective operand (f.written ++ (Filter.writtenMore connective fs ++ t)) =
      .ok (join connective (f :: fs), t) := by
  rw [List.forall_mem_cons] at h
  exact chain_of_steps (h.1 _ (ok_writtenMore hok ht fs)).1 (steps_nextOperand h.2 hok ht hend)

/-! ## Groups -/

theorem spliced_eq_self {connective : Connective} {fs : List Filter}
    (h : ∀ gs, .group connective gs ∉ fs) : spliced connective fs = fs := by
  induction fs with
  | nil => rw [spliced]
  | cons f fs ih =>
    have htail := ih fun gs hgs => h gs (List.mem_cons_of_mem _ hgs)
    cases f with
    | condition c =>
      rw [spliced, htail]
      exact fun _ _ => Filter.noConfusion
    | group c gs =>
      have hc : c ≠ connective := fun hc => h gs (hc ▸ List.mem_cons_self)
      rw [spliced, if_neg hc, htail]

/-- Two filters or more of other kinds than the group itself are joined to the
    group. -/
theorem join_eq_group {connective : Connective} {fs : List Filter} (hlength : 2 ≤ fs.length)
    (h : ∀ gs, .group connective gs ∉ fs) : join connective fs = .group connective fs := by
  match fs, hlength with
  | f :: g :: fs, _ =>
    rw [join, spliced_eq_self h]
    simp

theorem count_writtenMore {connective : Connective} {fs : List Filter} {f : Filter} (h : f ∈ fs) :
    f.written.count '(' ≤ (Filter.writtenMore connective fs).count '(' := by
  induction fs with
  | nil => exact absurd h List.not_mem_nil
  | cons g fs ih =>
    rw [Filter.writtenMore, List.count_append]
    simp only [List.count_append, List.cons_append, List.count_cons]
    rcases List.mem_cons.1 h with rfl | h
    · omega
    · have := ih h
      omega

/-- The operands of the chains in an expression. -/
def primary : (depth : Nat) → Reader Reason Filter
  | 0 => readCondition
  | depth + 1 => readPrimary (expression depth)

theorem expression_eq (depth : Nat) :
    expression depth = chain .or (chain .and (primary depth)) := by
  cases depth <;> rfl

theorem primary_space (depth : Nat) (s : List Char) :
    primary depth (' ' :: s) = primary depth s := by
  cases depth <;> rfl

theorem nextOperand_eq_none {connective : Connective} (operand : Reader Reason Filter)
    {s : List Char}
    (h : keyword isWordCharacter (lowerAscii connective.keyword) (skipBlanks s) = none) :
    nextOperand connective operand s = .ok none := by
  rw [nextOperand, h]

theorem nextOperand_and_or (operand : Reader Reason Filter) (s : List Char) :
    nextOperand .and operand (' ' :: (Connective.or.keyword ++ ' ' :: s)) = .ok none :=
  nextOperand_eq_none operand (keyword_cons_eq_none (c := 'O') (by decide))

theorem nextOperand_close (connective : Connective) (operand : Reader Reason Filter)
    (s : List Char) : nextOperand connective operand (')' :: s) = .ok none := by
  refine nextOperand_eq_none operand ?_
  cases connective with
  | and => exact keyword_cons_eq_none (c := ')') (by decide)
  | or => exact keyword_cons_eq_none (c := ')') (by decide)
  | unknown => exact keyword_cons_eq_none (c := ')') (by decide)

/-- The inside of a group, up to its closing parenthesis. -/
theorem expression_group {connective : Connective} (hconnective : connective ≠ .unknown)
    {depth : Nat} {f : Filter} {fs : List Filter}
    (h : ∀ g ∈ f :: fs, Reads (primary depth) Boundary g) (r : List Char) :
    expression depth (f.written ++ (Filter.writtenMore connective fs ++ ')' :: r)) =
      .ok (join connective (f :: fs), ')' :: r) := by
  have hclose : Boundary (')' :: r) := ends_cons.2 (by decide)
  have hspace (s : List Char) : Boundary (' ' :: s) := ends_cons.2 (by decide)
  rw [expression_eq]
  cases connective with
  | and =>
    -- All filters are in the first chain, the only one that `or` finds.
    have hand := chain_written h (fun _ => hspace _) hclose
      (nextOperand_close .and (primary depth) r)
    exact chain_of_steps hand (.done (nextOperand_close .or _ r))
  | or =>
    -- Every filter is a chain of its own for `and`, which no `or` carries on.
    exact chain_written (fun g hg => (h g hg).chain .and)
      (fun s => ⟨hspace _, nextOperand_and_or _ s⟩) ⟨hclose, nextOperand_close .and _ r⟩
      (nextOperand_close .or _ r)
  | unknown => exact absurd rfl hconnective

/-- What starts with a bare name is no expression in parentheses. -/
theorem primary_append {w : List Char} (hw : w ≠ []) (h : ∀ c ∈ w, isNameCharacter c)
    (depth : Nat) (s : List Char) : primary depth (w ++ s) = readCondition (w ++ s) := by
  cases depth with
  | zero => rfl
  | succ depth =>
    obtain ⟨x, w, rfl⟩ := List.exists_cons_of_ne_nil hw
    have hx := h x List.mem_cons_self
    rw [primary, readPrimary, List.cons_append,
      skipBlanks_of_ends (ends_cons.2 (isBlank_of_isNameCharacter hx))]
    split
    · rename_i he
      rw [(List.cons.inj he).1] at hx
      exact absurd hx (by decide)
    · rfl

theorem primary_condition {c : Condition} (hc : c.Normal) (depth : Nat) (hr : Boundary r) :
    primary depth (c.written ++ r) = .ok (.condition c, r) := by
  have hread := readCondition_written hc hr
  rw [Condition.written, List.append_assoc, List.append_assoc] at hread ⊢
  rw [primary_append (property_ne_nil hc.property_ne_empty) hc.isNameCharacter, hread]

theorem readPrimary_parentheses {inner : Reader Reason Filter} {f : Filter} {s : List Char}
    (h : inner s = .ok (f, ')' :: r)) : readPrimary inner ('(' :: s) = .ok (f, r) :=
  Except.bind_eq_ok.2 ⟨_, h, rfl⟩

/-- A filter in its normal form is read as an operand of a chain, if the bound
    leaves room for its parentheses. -/
theorem reads_primary {f : Filter} (hf : f.Normal) {depth : Nat}
    (hdepth : f.written.count '(' ≤ depth) : Reads (primary depth) Boundary f := by
  induction hf generalizing depth with
  | @condition c hc =>
    intro r hr
    have hread := primary_condition hc depth hr
    exact ⟨hread, (primary_space depth _).trans hread⟩
  | @group connective fs hconnective hlength hfs hown ih =>
    match fs, hlength with
    | f :: fs, hlength =>
    intro r _
    -- The opening parenthesis of the group itself leaves fewer for its filters.
    have hcount :
        f.written.count '(' + (Filter.writtenMore connective fs).count '(' + 1 ≤ depth := by
      rw [Filter.written] at hdepth
      simpa [List.count_append] using hdepth
    obtain ⟨depth, rfl⟩ := Nat.exists_eq_add_of_le' (Nat.le_of_add_left_le hcount)
    have hreads : ∀ g ∈ f :: fs, Reads (primary depth) Boundary g := by
      rw [List.forall_mem_cons] at ih ⊢
      refine ⟨ih.1 (by omega), fun g hg => ih.2 g hg ?_⟩
      have hle : g.written.count '(' ≤ (Filter.writtenMore connective fs).count '(' :=
        count_writtenMore hg
      omega
    have hinside := expression_group hconnective hreads r
    rw [join_eq_group hlength hown] at hinside
    have hread : primary (depth + 1) ((Filter.group connective (f :: fs)).written ++ r) =
        .ok (.group connective (f :: fs), r) := by
      rw [Filter.written]
      simp only [List.cons_append, List.append_assoc, List.nil_append]
      exact readPrimary_parentheses hinside
    exact ⟨hread, (primary_space _ _).trans hread⟩

/-- A text is a query if it is an expression with blanks behind it. -/
theorem parse_eq_ok_iff {text : String} {f : Filter} : parse text = .ok f ↔
    ∃ r, expression (text.toList.count '(') text.toList = .ok (f, r) ∧ Blank r := by
  have hchars : parse text = .ok f ↔ parseChars text.toList = .ok f := by
    rw [parse]
    cases parseChars text.toList with
    | error e => simp
    | ok g => simp
  rw [hchars]
  constructor
  · intro h
    obtain ⟨⟨g, r⟩, hread, h⟩ := Except.bind_eq_ok.1 h
    dsimp only at h
    split at h
    · rename_i hend
      cases h
      exact ⟨r, hread, List.dropWhile_eq_nil_iff.1 hend⟩
    · exact absurd h stopAt_ne_ok
  · rintro ⟨r, hread, hr⟩
    refine Except.bind_eq_ok.2 ⟨_, hread, ?_⟩
    dsimp only
    rw [skipBlanks_of_blank hr]
    rfl

theorem parseChars_written {f : Filter} (hf : f.Normal) : parseChars f.written = .ok f := by
  have hexpression : expression (f.written.count '(') f.written = .ok (f, []) := by
    have h := ((reads_primary hf (Nat.le_refl _)).chain .and).chain .or
    rw [expression_eq]
    have hread := (h [] ⟨⟨ends_nil, rfl⟩, rfl⟩).1
    rwa [List.append_nil] at hread
  exact Except.bind_eq_ok.2 ⟨_, hexpression, rfl⟩

/-- A filter in its normal form reads back from its text. -/
theorem parse_toText {f : Filter} (hf : f.Normal) : parse f.toText = .ok f := by
  rw [parse, Filter.toText, String.toList_ofList, parseChars_written hf]

/-- The leap second at the end of 2016. -/
def leapSecond : Instant where
  date := ⟨2016, 12, 31, by decide, by decide⟩
  second := ⟨86399, by decide⟩
  nanosecond := ⟨1000000000, by decide⟩

/-- A filter with a property that is named like a keyword, quotes and
    parentheses in a text, a list, a number and a leap second. -/
def intricate : Filter :=
  .group .or
    [.condition ⟨"AND", .unknown, some (.text "\"(\\ OR")⟩,
      .group .and
        [.condition ⟨"due-date", .before, some (.date leapSecond)⟩,
          .condition ⟨"tags", .notContains, some (.list ["]", ""])⟩,
          .group .or
            [.condition ⟨"score", .lessThan, some (.number (.ofInt (-5)))⟩,
              .condition ⟨"is_open", .isEmpty, none⟩]]]

theorem parse_toText_intricate : intricate.Normal ∧ parse intricate.toText = .ok intricate := by
  have hdate : leapSecond.Displayable := ⟨by decide, by decide, by decide⟩
  have hnumber : (Double.ofInt (-5)).isFinite := by decide +kernel
  have hscore : Filter.Normal (.group .or
      [.condition ⟨"score", .lessThan, some (.number (.ofInt (-5)))⟩,
        .condition ⟨"is_open", .isEmpty, none⟩]) := by
    refine .group (by decide) (by decide) ?_ (by simp)
    rw [List.forall_mem_cons, List.forall_mem_singleton]
    constructor
    · exact .condition (Condition.normal_of_binary (by decide) rfl hnumber)
    · exact .condition (Condition.normal_of_unary (by decide) rfl)
  have hnormal : intricate.Normal := by
    refine .group (by decide) (by decide) ?_ (by simp)
    rw [List.forall_mem_cons, List.forall_mem_singleton]
    constructor
    · exact .condition (Condition.normal_of_binary (by decide) rfl trivial)
    · refine .group (by decide) (by decide) ?_ (by simp)
      rw [List.forall_mem_cons, List.forall_mem_cons, List.forall_mem_singleton]
      refine ⟨.condition ?_, .condition ?_, hscore⟩
      · exact Condition.normal_of_binary (by decide) rfl hdate
      · exact Condition.normal_of_binary (by decide) rfl trivial
  exact ⟨hnormal, parse_toText hnormal⟩

end Query

end Sift
