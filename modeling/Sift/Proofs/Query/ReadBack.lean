import Sift.Proofs.Query.Divergence
import Sift.Proofs.Query.Spelling

/-!
# Which queries read back

The text of a filter that was read from a query names the same filter again if
its conditions are written as they are, and only then: a name that is not a bare
one, an infinite number and an instant that is not written in full get lost.

A reader of the text of a filter goes through its conditions in order. It
either keeps in step with them to the end, or the first condition that it reads
otherwise stays different whatever comes after it.

* `InStep`: readers that read a filter back, or else end up with diverging
  conditions, and `inStep_primary`: that the readers of a query are such;
* `diverge_of_name`, `diverge_of_operand`: the conditions that get lost;
* `exists_parse_toText_same_iff`: which queries read back.
-/

namespace Sift.Query

open Text

/-! ## The first name -/

/-- The conditions of a part of a query, from left to right. -/
def Phrase.conditions : Phrase → List Condition
  | operand _ f => f.conditions
  | chain _ fs => Filter.conditionsIn fs

/-- Whether a character may stand before the first name of a query. -/
def isOpening (c : Char) : Bool := isBlank c || c = '('

theorem dropWhile_opening {b s : List Char} (hb : Blank b) :
    (b ++ s).dropWhile isOpening = s.dropWhile isOpening :=
  List.dropWhile_append_of_pos fun c hc => by rw [isOpening, hb c hc, Bool.true_or]

/-- Behind blanks and parentheses, a query starts with the name of its first
    condition. -/
theorem exists_first_of_spells {p : Phrase} {ts : List (List Char)} {s r : List Char}
    (h : Spells p ts) (hrun : Run (fun _ => True) ts s r) : ∃ c cs t m,
      p.conditions = c :: cs ∧ SpellsName c.property t ∧ s.dropWhile isOpening = t ++ m := by
  induction h generalizing s r with
  | @condition c ts hc =>
    obtain ⟨name, ts', rfl, hname⟩ := exists_name_of_spells hc
    obtain ⟨b, m, hb, -, rfl, -⟩ := Run.cons_iff.1 hrun
    refine ⟨c, [], name, m, by rw [Phrase.conditions, Filter.conditions], hname, ?_⟩
    obtain ⟨x, u, rfl, hblank, hx⟩ := exists_of_spellsName hname
    rw [dropWhile_opening hb, List.cons_append, List.dropWhile_cons_of_neg]
    rw [isOpening, hblank, decide_eq_false hx]
    decide
  | @parentheses fs ts hfs ih =>
    obtain ⟨b, m, hb, -, rfl, hrest⟩ := Run.cons_iff.1 hrun
    obtain ⟨m', hts, -⟩ := hrest.exists_of_append
    obtain ⟨c, cs, t, m'', hcs, hname, hdrop⟩ := ih hts
    refine ⟨c, cs, t, m'', by rw [← hcs, Phrase.conditions, Phrase.conditions, Filter.conditions],
      hname, ?_⟩
    rw [dropWhile_opening hb, List.singleton_append, List.dropWhile_cons_of_pos rfl, hdrop]
  | @conjunction fs ts hfs ih =>
    obtain ⟨c, cs, t, m, hcs, h⟩ := ih hrun
    exact ⟨c, cs, t, m, by rw [← hcs, Phrase.conditions, Phrase.conditions, Filter.conditions], h⟩
  | @single connective f ts hf ih =>
    obtain ⟨c, cs, t, m, hcs, h⟩ := ih hrun
    refine ⟨c, cs, t, m, ?_, h⟩
    rw [← hcs, Phrase.conditions, Phrase.conditions, Filter.conditionsIn_singleton]
  | @joined connective f fs w ts us hf hw hfs ih _ =>
    obtain ⟨m', hts, -⟩ := hrun.exists_of_append
    obtain ⟨c, cs, t, m, hcs, h⟩ := ih hts
    refine ⟨c, cs ++ Filter.conditionsIn fs, t, m, ?_, h⟩
    rw [Phrase.conditions, Filter.conditionsIn, ← List.cons_append, ← hcs, Phrase.conditions]

/-! ## Operands -/

/-- What is no finite number is written in words that no operand starts with. -/
theorem readOperand_infinite {d : Double} (hd : d.isFinite = false) (r : List Char) :
    ∃ fault, readOperand (' ' :: (d.plain ++ r)) = .error fault := by
  have hnan : ∃ fault, readOperand (' ' :: ("NaN".toList ++ r)) = .error fault := ⟨_, rfl⟩
  have hinf : ∃ fault, readOperand (' ' :: ("inf".toList ++ r)) = .error fault := ⟨_, rfl⟩
  have hminus : ∃ fault, readOperand (' ' :: ('-' :: "inf".toList ++ r)) = .error fault := ⟨_, rfl⟩
  rw [Double.plain, hd, Double.sign]
  split
  · exact hnan
  · simp only [Bool.not_false, if_true]
    split
    · exact hminus
    · exact hinf

/-- An operand that is not printable does not read back. -/
theorem same_eq_false_of_readOperand {x y : Operand} {r e : List Char} (hx : ¬x.Printable)
    (hr : Boundary r) (h : readOperand (' ' :: (x.written ++ r)) = .ok (y, e)) :
    y.same x = false := by
  cases x with
  | boolean b => exact absurd trivial hx
  | text s => exact absurd trivial hx
  | list names => exact absurd trivial hx
  | number d =>
    obtain ⟨fault, hfault⟩ := readOperand_infinite (Bool.eq_false_iff.2 hx) r
    rw [Operand.written, hfault] at h
    exact absurd h (by simp)
  | date i =>
    rw [Operand.written, readOperand_displayed, readNumber_append (displayed_ne_nil i)
      (fun _ => isNumberCharacter_of_mem_displayed) (hr.ends (by decide) (by decide))] at h
    split at h
    · cases h
      rfl
    · split at h
      · rename_i j hj
        cases h
        refine decide_eq_false fun he => ?_
        obtain rfl := Operand.date.inj he
        exact hx (Instant.ofText?_displayed_iff.1 hj)
      · exact absurd h stopAt_ne_ok

theorem of_dropWhile_eq_cons {p : Char → Bool} {u v w : List Char} {x y : Char}
    (hx : p x = false) (h : (u ++ x :: v).dropWhile p = y :: w) : y ∈ u ∨ y = x := by
  induction u with
  | nil =>
    rw [List.nil_append, List.dropWhile_cons_of_neg (by simp [hx])] at h
    exact .inr (List.cons.inj h).1.symm
  | cons z u ih =>
    rw [List.cons_append, List.dropWhile_cons] at h
    split at h
    · exact (ih h).imp_left (List.mem_cons_of_mem _)
    · exact .inl ((List.cons.inj h).1 ▸ List.mem_cons_self)

/-! ## Readers in step -/

/-- Readers that read a filter back from its text, in front of the rests of a
    kind, or else end up with diverging conditions, if with any. -/
def InStep (operand : Reader Reason Filter) (ok : List Char → Prop) (f : Filter) : Prop :=
  ∀ r, ok r → ∀ g e, operand (f.written ++ r) = .ok (g, e) →
    (f.Normal ∧ g = f ∧ e = r) ∨ Diverge g.conditions f.conditions

theorem backtick_notMem_of_spells {property : String} {t : List Char}
    (h : SpellsName property t) : '\x60' ∉ property.toList := by
  cases h with
  | bare _ hw =>
    rw [String.toList_ofList]
    exact fun hmem => absurd (hw _ hmem) (by decide)
  | quoted hw => rwa [String.toList_ofList]

theorem exists_comparator_eq (c : Comparator) :
    ∃ x v, c.name.toList = x :: v ∧ isComparatorCharacter x := by
  cases c <;> exact ⟨_, _, rfl, by decide⟩

/-- No backtick opens the text of a condition: it would have to stand in the name
    or to start the comparator. -/
theorem dropWhile_written_ne {c : Condition} {name : List Char}
    (hname : SpellsName c.property name) (r w : List Char) :
    (c.written ++ r).dropWhile isOpening ≠ '\x60' :: w := by
  obtain ⟨x, v, hcomparator, hx⟩ := exists_comparator_eq c.comparator
  obtain ⟨v', hwritten⟩ : ∃ v', c.written ++ r = (c.property.toList ++ [' ']) ++ x :: v' := by
    rw [Condition.written, hcomparator]
    simp only [List.append_assoc, List.cons_append, List.nil_append]
    exact ⟨_, rfl⟩
  have hopening : isOpening x = false := by
    rw [isOpening, isBlank_of_isNameCharacter (isNameCharacter_of_isComparatorCharacter hx),
      Bool.false_or, decide_eq_false_iff_not]
    rintro rfl
    exact absurd hx (by decide)
  rw [hwritten]
  intro hdrop
  rcases of_dropWhile_eq_cons hopening hdrop with hmem | rfl
  · rcases List.mem_append.1 hmem with hmem | hmem
    · exact backtick_notMem_of_spells hname hmem
    · exact absurd (List.mem_singleton.1 hmem) (by decide)
  · exact absurd hx (by decide)

/-- A name that is not a bare one is read as another name. -/
theorem diverge_of_name {c : Condition} {us : List (List Char)} (hc : SpellsCondition c us)
    (hname : ¬(c.property.toList ≠ [] ∧ ∀ x ∈ c.property.toList, isNameCharacter x))
    {depth : Nat} {r e : List Char} {g : Filter}
    (h : primary depth (c.written ++ r) = .ok (g, e)) : Diverge g.conditions [c] := by
  obtain ⟨name, _, rfl, hspells⟩ := exists_name_of_spells hc
  obtain ⟨f, ts, hts, rfl, hrun⟩ := spellsRead_primary depth _ _ _ h
  obtain ⟨d, ds, t, m, hds, hspells', hdrop⟩ := exists_first_of_spells hts hrun
  have hconditions : f.conditions = d :: ds := hds
  rw [Filter.conditions_flattened, hconditions]
  refine .here (Bool.eq_false_iff.2 fun hsame => ?_)
  rw [← property_eq_of_same hsame] at hname
  generalize d.property = property at hspells' hname
  cases hspells' with
  | bare hne hw =>
    rw [String.toList_ofList] at hname
    exact hname ⟨hne, hw⟩
  | quoted => exact dropWhile_written_ne hspells _ _ hdrop

/-- Behind a bare name, an operand that is not printable is read as another
    one. -/
theorem diverge_of_operand {c : Condition} {x : Operand} (hname : c.property.toList ≠ [] ∧
    ∀ x ∈ c.property.toList, isNameCharacter x) (hbinary : c.comparator.isUnary = false)
    (hoperand : c.operand = some x) (hx : ¬x.Printable) {depth : Nat} {r e : List Char}
    (hr : Boundary r) {g : Filter} (h : primary depth (c.written ++ r) = .ok (g, e)) :
    Diverge g.conditions [c] := by
  obtain ⟨property, comparator, operand⟩ := c
  obtain rfl := hoperand
  have hread : readCondition ((Condition.mk property comparator (some x)).written ++ r) =
      .ok (g, e) := by
    rw [Condition.written, List.append_assoc, List.append_assoc] at h ⊢
    rwa [← primary_append hname.1 hname.2 depth]
  rw [readCondition_binary hname.1 hname.2 hbinary] at hread
  obtain ⟨⟨y, e'⟩, hy, hread⟩ := Except.map_eq_ok.1 hread
  cases hread
  rw [Filter.conditions]
  refine .here ?_
  rw [Condition.same]
  dsimp only
  rw [same_eq_false_of_readOperand hx hr hy, Bool.and_false]

theorem isSome_operand_iff {c : Condition} {us : List (List Char)} (h : SpellsCondition c us) :
    c.operand.isSome ↔ ¬c.comparator.isUnary := by
  cases h with
  | unary _ _ hunary => simp [hunary]
  | binary _ _ hbinary => simp [hbinary]

theorem inStep_condition {c : Condition} {us : List (List Char)} (hc : SpellsCondition c us)
    (depth : Nat) : InStep (primary depth) Boundary (.condition c) := by
  intro r hr g e h
  rw [Filter.written] at h
  by_cases hname : c.property.toList ≠ [] ∧ ∀ x ∈ c.property.toList, isNameCharacter x
  · by_cases hx : ∀ x ∈ c.operand, x.Printable
    · have hnormal : c.Normal :=
        ⟨fun he => hname.1 (String.toList_eq_nil_iff.2 he), hname.2, isSome_operand_iff hc, hx⟩
      rw [primary_condition hnormal depth hr] at h
      cases h
      exact .inl ⟨.condition hnormal, rfl, rfl⟩
    · right
      simp only [not_forall] at hx
      obtain ⟨x, hoperand, hx⟩ := hx
      have hbinary : c.comparator.isUnary = false := by
        have hsome := (isSome_operand_iff hc).1 (by rw [hoperand, Option.isSome_some])
        exact Bool.eq_false_iff.2 hsome
      rw [Filter.conditions]
      exact diverge_of_operand hname hbinary hoperand hx hr h
  · rw [Filter.conditions]
    exact .inr (diverge_of_name hc hname h)

/-- A single filter as a chain, in front of rests that do not carry it on. -/
theorem InStep.chain {operand : Reader Reason Filter} {ok : List Char → Prop} {f : Filter}
    (h : InStep operand ok f) (connective : Connective) :
    InStep (chain connective operand)
      (fun r => ok r ∧ nextOperand connective operand r = .ok none) f := by
  intro r hr g e hread
  obtain ⟨first, others, m, hfirst, hmany, rfl⟩ := exists_of_chain hread
  rw [conditions_join, Filter.conditionsIn]
  rcases h r hr.1 _ _ hfirst with ⟨hnormal, rfl, rfl⟩ | hdiverge
  · rw [many_eq_of_steps (.done hr.2)] at hmany
    cases hmany
    exact .inl ⟨hnormal, rfl, rfl⟩
  · exact .inr (hdiverge.extend _)

/-- The operands of a chain, one after the other. -/
theorem inStep_steps {connective : Connective} {operand : Reader Reason Filter}
    {ok : List Char → Prop} {fs gs : List Filter} {t e : List Char}
    (h : ∀ f ∈ fs, InStep operand ok f) (hspace : ∀ s, operand (' ' :: s) = operand s)
    (hok : ∀ s, ok (' ' :: (connective.keyword ++ ' ' :: s))) (ht : ok t)
    (hend : nextOperand connective operand t = .ok none)
    (hsteps : Steps (nextOperand connective operand) (Filter.writtenMore connective fs ++ t) gs e) :
    ((∀ f ∈ fs, f.Normal) ∧ gs = fs ∧ e = t) ∨
      Diverge (Filter.conditionsIn gs) (Filter.conditionsIn fs) := by
  -- What a step reads is in step, or diverges for good whatever the others read.
  induction fs generalizing gs with
  | nil =>
    rw [Filter.writtenMore, List.nil_append] at hsteps
    cases hsteps with
    | done => exact .inl ⟨fun _ hf => absurd hf List.not_mem_nil, rfl, rfl⟩
    | next hnext => exact absurd (hend.symm.trans hnext) (by simp)
  | cons f fs ih =>
    rw [List.forall_mem_cons] at h
    have hread := nextOperand_keyword connective operand
      (f.written ++ (Filter.writtenMore connective fs ++ t))
    rw [hspace] at hread
    rw [Filter.writtenMore] at hsteps
    simp only [List.append_assoc, List.cons_append] at hsteps
    cases hsteps with
    | done hdone =>
      rw [hread] at hdone
      obtain ⟨_, _, he⟩ := Except.map_eq_ok.1 hdone
      exact absurd he (by simp)
    | @next _ m _ g gs hnext _ hsteps =>
      rw [hread] at hnext
      obtain ⟨⟨g', m'⟩, hfirst, he⟩ := Except.map_eq_ok.1 hnext
      cases he
      rw [Filter.conditionsIn, Filter.conditionsIn]
      rcases h.1 _ (ok_writtenMore hok ht fs) _ _ hfirst with ⟨hnormal, rfl, rfl⟩ | hdiverge
      · rcases ih h.2 hsteps with ⟨hnormals, rfl, rfl⟩ | hdiverge
        · exact .inl ⟨List.forall_mem_cons.2 ⟨hnormal, hnormals⟩, rfl, rfl⟩
        · exact .inr (hdiverge.append_left _)
      · exact .inr (hdiverge.append_right _ _)

/-- Filters joined by a connective, read one after the other. -/
theorem inStep_chain {connective : Connective} {operand : Reader Reason Filter}
    {ok : List Char → Prop} {f g : Filter} {fs : List Filter} {t e : List Char}
    (hspells : SpellsRead connective operand) (h : ∀ g ∈ f :: fs, InStep operand ok g)
    (hspace : ∀ s, operand (' ' :: s) = operand s)
    (hok : ∀ s, ok (' ' :: (connective.keyword ++ ' ' :: s))) (ht : ok t)
    (hend : nextOperand connective operand t = .ok none)
    (hread : chain connective operand (f.written ++ (Filter.writtenMore connective fs ++ t)) =
      .ok (g, e)) :
    ((∀ g ∈ f :: fs, g.Normal) ∧ g = join connective (f :: fs) ∧ e = t) ∨
      Diverge g.conditions (Filter.conditionsIn (f :: fs)) := by
  rw [List.forall_mem_cons] at h
  obtain ⟨first, others, m, hfirst, hmany, rfl⟩ := exists_of_chain hread
  rw [conditions_join, Filter.conditionsIn, Filter.conditionsIn]
  rcases h.1 _ (ok_writtenMore hok ht fs) _ _ hfirst with ⟨hnormal, rfl, rfl⟩ | hdiverge
  · have hsteps := steps_of_many hspells hmany
    rcases inStep_steps h.2 hspace hok ht hend hsteps with ⟨hnormals, rfl, rfl⟩ | hdiverge
    · exact .inl ⟨List.forall_mem_cons.2 ⟨hnormal, hnormals⟩, rfl, rfl⟩
    · exact .inr (hdiverge.append_left _)
  · exact .inr (hdiverge.append_right _ _)

theorem chain_space {connective : Connective} {operand : Reader Reason Filter}
    (hspace : ∀ s, operand (' ' :: s) = operand s) (s : List Char) :
    chain connective operand (' ' :: s) = chain connective operand s := by
  rw [chain, chain, hspace]

/-- The inside of a group, up to its closing parenthesis. -/
theorem inStep_group {connective : Connective} (hconnective : connective ≠ .unknown)
    {depth : Nat} {f g : Filter} {fs : List Filter} {r e : List Char}
    (h : ∀ g ∈ f :: fs, InStep (primary depth) Boundary g)
    (hread : expression depth (f.written ++ (Filter.writtenMore connective fs ++ ')' :: r)) =
      .ok (g, e)) :
    ((∀ g ∈ f :: fs, g.Normal) ∧ g = join connective (f :: fs) ∧ e = ')' :: r) ∨
      Diverge g.conditions (Filter.conditionsIn (f :: fs)) := by
  have hclose : Boundary (')' :: r) := ends_cons.2 (by decide)
  have hspace (s : List Char) : Boundary (' ' :: s) := ends_cons.2 (by decide)
  rw [expression_eq] at hread
  cases connective with
  | and =>
    -- All filters are in the first chain, the only one that `or` finds.
    obtain ⟨first, others, m, hfirst, hmany, rfl⟩ := exists_of_chain hread
    rw [conditions_join, Filter.conditionsIn]
    rcases inStep_chain (spellsRead_primary depth) h (primary_space depth) (fun _ => hspace _)
      hclose (nextOperand_close .and _ r) hfirst with ⟨hnormals, rfl, rfl⟩ | hdiverge
    · rw [many_eq_of_steps (.done (nextOperand_close .or _ r))] at hmany
      cases hmany
      exact .inl ⟨hnormals, rfl, rfl⟩
    · exact .inr (hdiverge.extend _)
  | or =>
    -- Every filter is a chain of its own for `and`, which no `or` carries on.
    exact inStep_chain (spellsRead_chain (spellsRead_primary depth))
      (fun g hg => (h g hg).chain .and) (chain_space (primary_space depth))
      (fun s => ⟨hspace _, nextOperand_and_or _ s⟩) ⟨hclose, nextOperand_close .and _ r⟩
      (nextOperand_close .or _ r) hread
  | unknown => exact absurd rfl hconnective

/-- The readers of conditions and of expressions in parentheses keep in step with
    all that a query can stand for. -/
theorem inStep_primary {f : Filter} (hf : f.Flat)
    (hspells : ∀ c ∈ f.conditions, ∃ us, SpellsCondition c us) (depth : Nat) :
    InStep (primary depth) Boundary f := by
  induction hf generalizing depth with
  | @condition c =>
    rw [Filter.conditions, List.forall_mem_singleton] at hspells
    obtain ⟨us, hus⟩ := hspells
    exact inStep_condition hus depth
  | @group connective fs hconnective hlength hfs hown ih =>
    obtain ⟨f, fs, rfl⟩ := List.exists_cons_of_length_pos (Nat.lt_of_lt_of_le (by decide) hlength)
    intro r _ g e hread
    rw [Filter.conditions] at hspells ⊢
    rw [Filter.written] at hread
    simp only [List.cons_append, List.append_assoc, List.nil_append] at hread
    cases depth with
    | zero =>
      -- A bound of 0 leaves no room for the group's own parenthesis.
      have hfault (s : List Char) : ∃ fault, primary 0 ('(' :: s) = .error fault := ⟨_, rfl⟩
      obtain ⟨fault, hfault⟩ := hfault (f.written ++ (Filter.writtenMore connective fs ++ ')' :: r))
      exact absurd (hfault.symm.trans hread) (by simp)
    | succ depth =>
      obtain ⟨⟨g', m⟩, hinside, hread⟩ := Except.bind_eq_ok.1 hread
      have hsteps := inStep_group hconnective (fun g hg => ih g hg (fun c hc => hspells c
        (Filter.mem_conditionsIn.2 ⟨g, hg, hc⟩)) depth) hinside
      dsimp only at hread
      split at hread
      · rename_i hclose
        cases hread
        rcases hsteps with ⟨hnormals, rfl, rfl⟩ | hdiverge
        · rw [join_eq_group hlength hown]
          rw [skipBlanks_of_ends (ends_cons.2 rfl)] at hclose
          exact .inl ⟨.group hconnective hlength hnormals hown, rfl, (List.cons.inj hclose).2.symm⟩
        · exact .inr hdiverge
      · exact absurd hread stopAt_ne_ok

/-! ## Texts -/

theorem exists_spellsCondition {p : Phrase} {ts : List (List Char)} (h : Spells p ts) :
    ∀ c ∈ p.conditions, ∃ us, SpellsCondition c us := by
  induction h with
  | condition hc =>
    rw [Phrase.conditions, Filter.conditions, List.forall_mem_singleton]
    exact ⟨_, hc⟩
  | parentheses _ ih =>
    rw [Phrase.conditions, Filter.conditions]
    exact ih
  | conjunction _ ih =>
    rw [Phrase.conditions, Filter.conditions]
    exact ih
  | single _ ih =>
    rw [Phrase.conditions, Filter.conditionsIn_singleton]
    exact ih
  | joined _ _ _ ih ihs =>
    rw [Phrase.conditions, Filter.conditionsIn]
    intro c hc
    exact (List.mem_append.1 hc).elim (ih c) (ihs c)

/-- What is read from a query is flat, and its conditions are ones of the
    grammar. -/
theorem flat_of_parse {text : String} {f : Filter} (h : parse text = .ok f) :
    f.Flat ∧ ∀ c ∈ f.conditions, ∃ us, SpellsCondition c us := by
  obtain ⟨fs, ts, r, hts, rfl, -, -⟩ := spells_of_parse h
  obtain ⟨hconnective, hne, hflat⟩ := flat_of_spells hts
  refine ⟨Filter.flat_flattened_group hconnective hne hflat, ?_⟩
  rw [Filter.conditions_flattened, Filter.conditions]
  exact exists_spellsCondition hts

/-- The text of a filter reads as the filter itself, or else as one with
    diverging conditions, if it reads at all. -/
theorem normal_or_diverge_of_parse_toText {f g : Filter} (hf : f.Flat)
    (hspells : ∀ c ∈ f.conditions, ∃ us, SpellsCondition c us) (h : parse f.toText = .ok g) :
    f.Normal ∨ Diverge g.conditions f.conditions := by
  obtain ⟨r, hread, -⟩ := parse_eq_ok_iff.1 h
  rw [Filter.toText, String.toList_ofList, expression_eq] at hread
  have hstep := ((inStep_primary hf hspells (f.written.count '(')).chain .and).chain .or
  have hcases := hstep [] ⟨⟨ends_nil, rfl⟩, rfl⟩ g r (by rw [List.append_nil, hread])
  exact hcases.imp_left And.left

/-- A filter that was read from a query reads back from its own text just if all
    of its conditions stand in a query as they are. -/
theorem exists_parse_toText_same_iff {text : String} {f : Filter} (h : parse text = .ok f) :
    (∃ g, parse f.toText = .ok g ∧ g.same f) ↔ ∀ c ∈ f.conditions, c.Normal := by
  obtain ⟨hflat, hspells⟩ := flat_of_parse h
  constructor
  · rintro ⟨g, hg, hsame⟩
    refine Filter.normal_of_mem_conditions ?_
    refine (normal_or_diverge_of_parse_toText hflat hspells hg).resolve_right fun hdiverge => ?_
    exact hdiverge.not_forall₂ (forall₂_conditions_of_same hsame)
  · intro hnormal
    have hf := Filter.normal_of_flat hflat hnormal
    refine ⟨f, ?_, same_self hf⟩
    rw [parse, Filter.toText, String.toList_ofList, parseChars_written hf]

/-- A filter on a property with a blank in its name. -/
def dueDate : Filter := .condition ⟨"Due Date", .isNotEmpty, none⟩

/-- Without its backticks, the name is read as two words. -/
theorem not_exists_parse_toText_same_dueDate :
    parse "`Due Date` is_not_empty" = .ok dueDate ∧
      ¬∃ g, parse dueDate.toText = .ok g ∧ g.same dueDate := by
  have hfault : ∃ e, parse dueDate.toText = .error e := ⟨_, rfl⟩
  refine ⟨rfl, ?_⟩
  rintro ⟨g, hg, -⟩
  obtain ⟨e, he⟩ := hfault
  exact absurd (he.symm.trans hg) (by simp)

/-- Of a bare name, nothing but the backticks gets lost. -/
theorem exists_parse_toText_same_due : parse "`due` IS_EMPTY" =
      .ok (.condition ⟨"due", .isEmpty, none⟩) ∧
    ∃ g, parse (Filter.condition ⟨"due", .isEmpty, none⟩).toText = .ok g ∧
      g.same (.condition ⟨"due", .isEmpty, none⟩) := by
  have hparse : parse "`due` IS_EMPTY" = .ok (.condition ⟨"due", .isEmpty, none⟩) := rfl
  refine ⟨hparse, (exists_parse_toText_same_iff hparse).2 ?_⟩
  rw [Filter.conditions, List.forall_mem_singleton]
  exact Condition.normal_of_unary (by decide) rfl

end Sift.Query
