import Mathlib.Data.List.Basic
import Sift.Proofs.Text.Reader
import Sift.Query.Reader

/-!
# The grammar of queries

What a query is, apart from how it is read: a text made of tokens, with blanks
between them.

* `SpellsName`, `SpellsComparator`, `SpellsOperand`, `SpellsCondition`: the
  tokens of a condition;
* `Spells`: the tokens of chains, in which `and` binds tighter than `or`, and of
  anything in parentheses;
* `Spaced`: tokens with blanks between them;
* `IsSpelling`: the texts of a query.

A query stands for a tree with a group for each of its chains, also for chains
of a single filter. What a reader makes of it has neither groups of one filter
nor groups in groups of the same connective.

* `Filter.flattened`: a tree without such groups;
* `Filter.Flat`, `Filter.flat_flattened_group`: that there are none left in it.
-/

namespace Sift

open Text

/-! ## Flattening -/

namespace Filter

/-- What a filter adds to a group of a connective: itself, or the filters in it
    if it is a group of the same connective. -/
def within (connective : Connective) : Filter → List Filter
  | condition c => [condition c]
  | group c fs => if c = connective then fs else [group c fs]

/-- The group of some filters; a single one stays as it is. -/
def grouped (connective : Connective) : List Filter → Filter
  | [f] => f
  | fs => group connective fs

mutual

/-- The tree without groups of one filter and without groups in groups of the
    same connective. -/
def flattened : Filter → Filter
  | condition c => condition c
  | group connective fs => grouped connective (flattenedIn connective fs)
termination_by structural f => f

/-- What the filters of a group add to it when they are flattened. -/
def flattenedIn (connective : Connective) : List Filter → List Filter
  | [] => []
  | f :: fs => f.flattened.within connective ++ flattenedIn connective fs
termination_by structural fs => fs

end

/-- The trees of groups with at least two filters, none of them a group of the
    same connective. -/
inductive Flat : Filter → Prop
  | condition {c : Condition} : Flat (.condition c)
  | group {connective : Connective} {fs : List Filter} : connective ≠ .unknown → 2 ≤ fs.length →
    (∀ f ∈ fs, Flat f) → (∀ gs, .group connective gs ∉ fs) → Flat (.group connective fs)

/-- What a flat filter adds to a group: one filter or more, all of them flat and
    none of them a group of the same connective. -/
theorem within_of_flat (connective : Connective) {f : Filter} (h : f.Flat) :
    f.within connective ≠ [] ∧ (∀ g ∈ f.within connective, g.Flat) ∧
      ∀ gs, group connective gs ∉ f.within connective := by
  cases h with
  | condition =>
    rw [Filter.within]
    exact ⟨List.cons_ne_nil _ _, fun g hg => List.mem_singleton.1 hg ▸ .condition, by simp⟩
  | @group c fs hc hlength hfs hown =>
    rw [Filter.within]
    split
    · rename_i he
      exact ⟨List.ne_nil_of_length_pos (by omega), hfs, he ▸ hown⟩
    · rename_i he
      refine ⟨List.cons_ne_nil _ _,
        fun g hg => List.mem_singleton.1 hg ▸ .group hc hlength hfs hown, fun gs hgs => he ?_⟩
      rw [List.mem_singleton, group.injEq] at hgs
      exact hgs.1.symm

theorem flat_of_mem_flattenedIn (connective : Connective) {fs : List Filter}
    (h : ∀ f ∈ fs, f.flattened.Flat) :
    (∀ g ∈ flattenedIn connective fs, g.Flat) ∧
      ∀ gs, group connective gs ∉ flattenedIn connective fs := by
  induction fs with
  | nil => simp [flattenedIn]
  | cons f fs ih =>
    rw [List.forall_mem_cons] at h
    obtain ⟨_, hflat, hown⟩ := within_of_flat connective h.1
    obtain ⟨hflats, howns⟩ := ih h.2
    rw [flattenedIn]
    refine ⟨fun g hg => (List.mem_append.1 hg).elim (hflat g) (hflats g), fun gs hgs => ?_⟩
    exact (List.mem_append.1 hgs).elim (hown gs) (howns gs)

theorem flat_grouped {connective : Connective} (hconnective : connective ≠ .unknown)
    {fs : List Filter} (hne : fs ≠ []) (h : ∀ f ∈ fs, f.Flat)
    (hown : ∀ gs, group connective gs ∉ fs) : (grouped connective fs).Flat := by
  match fs, hne with
  | [f], _ => exact h f List.mem_cons_self
  | f :: g :: fs, _ => exact .group hconnective (by simp) h hown

/-- No filter of a group is lost. -/
theorem length_le_flattenedIn {connective : Connective} {fs : List Filter}
    (h : ∀ f ∈ fs, f.flattened.Flat) : fs.length ≤ (flattenedIn connective fs).length := by
  induction fs with
  | nil => exact Nat.zero_le _
  | cons f fs ih =>
    rw [List.forall_mem_cons] at h
    have hone : 0 < (f.flattened.within connective).length :=
      List.length_pos_of_ne_nil (within_of_flat connective h.1).1
    rw [flattenedIn, List.length_append, List.length_cons, Nat.add_comm]
    exact Nat.add_le_add hone (ih h.2)

/-- Flat filters in a group become a flat tree. -/
theorem flat_flattened_group {connective : Connective} (hconnective : connective ≠ .unknown)
    {fs : List Filter} (hne : fs ≠ []) (h : ∀ f ∈ fs, f.flattened.Flat) :
    (group connective fs).flattened.Flat := by
  obtain ⟨hflat, hown⟩ := flat_of_mem_flattenedIn connective h
  have hpos : 0 < (flattenedIn connective fs).length :=
    Nat.lt_of_lt_of_le (List.length_pos_of_ne_nil hne) (length_le_flattenedIn h)
  rw [flattened]
  exact flat_grouped hconnective (List.ne_nil_of_length_pos hpos) hflat hown

end Filter

namespace Query

theorem spliced_map_flattened (connective : Connective) (fs : List Filter) :
    spliced connective (fs.map Filter.flattened) = Filter.flattenedIn connective fs := by
  induction fs with
  | nil => rw [List.map_nil, spliced, Filter.flattenedIn]
  | cons f fs ih =>
    rw [List.map_cons, Filter.flattenedIn]
    cases hf : f.flattened with
    | condition c =>
      rw [spliced, ih, Filter.within, List.singleton_append]
      exact fun _ _ => Filter.noConfusion
    | group c gs =>
      rw [spliced, ih, Filter.within]
      split
      · rfl
      · rfl

theorem grouped_of_two_le {connective : Connective} {fs : List Filter} (h : 2 ≤ fs.length) :
    Filter.grouped connective fs = .group connective fs := by
  match fs, h with
  | f :: g :: fs, _ =>
    rw [Filter.grouped]
    simp

/-- A flat filter alone in a group becomes itself. -/
theorem grouped_within {connective : Connective} {f : Filter} (h : f.Flat) :
    Filter.grouped connective (f.within connective) = f := by
  cases h with
  | condition => rw [Filter.within, Filter.grouped]
  | @group c fs _ hlength =>
    rw [Filter.within]
    split
    · rename_i hc
      rw [grouped_of_two_le hlength, hc]
    · rw [Filter.grouped]

/-- Joining filters that are flat is flattening their group. -/
theorem join_map_flattened (connective : Connective) {fs : List Filter}
    (h : ∀ f ∈ fs, f.flattened.Flat) :
    join connective (fs.map Filter.flattened) = (Filter.group connective fs).flattened := by
  rw [Filter.flattened, ← spliced_map_flattened]
  match fs, h with
  | [], _ => rfl
  | [f], h =>
    have hwithin : spliced connective [f.flattened] = f.flattened.within connective := by
      have hspliced := spliced_map_flattened connective [f]
      rwa [Filter.flattenedIn, Filter.flattenedIn, List.append_nil] at hspliced
    rw [List.map_singleton, join, hwithin, grouped_within (h f List.mem_cons_self)]
  | f :: g :: fs, h =>
    have hlength : 2 ≤ (spliced connective ((f :: g :: fs).map Filter.flattened)).length := by
      rw [spliced_map_flattened]
      exact Nat.le_trans (by simp) (Filter.length_le_flattenedIn h)
    rw [grouped_of_two_le hlength, List.map_cons, List.map_cons, join]
    simp

/-! ## Tokens -/

/-- A property name: bare, or any text without backticks between backticks. -/
inductive SpellsName : String → List Char → Prop
  | bare {w : List Char} : w ≠ [] → (∀ c ∈ w, isNameCharacter c) → SpellsName (String.ofList w) w
  | quoted {w : List Char} : '\x60' ∉ w → SpellsName (String.ofList w) ('\x60' :: (w ++ ['\x60']))

/-- A comparator: a symbol, a name in any ASCII letter case, or another word,
    which names no comparator. -/
inductive SpellsComparator : Comparator → List Char → Prop
  | equals : SpellsComparator .equals "=".toList
  | notEquals : SpellsComparator .notEquals "!=".toList
  | greaterThan : SpellsComparator .greaterThan ">".toList
  | lessThan : SpellsComparator .lessThan "<".toList
  | greaterThanOrEqualTo : SpellsComparator .greaterThanOrEqualTo ">=".toList
  | lessThanOrEqualTo : SpellsComparator .lessThanOrEqualTo "<=".toList
  | name {c : Comparator} {w : List Char} : c ∈ Comparator.all → lowerAscii w = c.name.toList →
    SpellsComparator c w
  | other {w : List Char} : w ≠ [] → (∀ c ∈ w, isComparatorCharacter c) →
    (∀ c ∈ Comparator.all, lowerAscii w ≠ c.name.toList) → SpellsComparator .unknown w

/-- The inside of quotes: a backslash takes the character after it as it is, and
    only so a quote or a backslash stands there. -/
inductive Escaped : List Char → List Char → Prop
  | nil : Escaped [] []
  | plain {c : Char} {s t : List Char} : c ≠ '"' → c ≠ '\\' → Escaped s t →
    Escaped (c :: s) (c :: t)
  | escape {c : Char} {s t : List Char} : Escaped s t → Escaped (c :: s) ('\\' :: c :: t)

/-- A text between quotes. -/
inductive Quoted : String → List Char → Prop
  | quotes {s t : List Char} : Escaped s t → Quoted (String.ofList s) ('"' :: (t ++ ['"']))

/-- Texts between quotes, parted by commas, with any blanks around them. -/
inductive Items : List String → List Char → Prop
  | last {s : String} {b t b' : List Char} : Blank b → Quoted s t → Blank b' →
    Items [s] (b ++ (t ++ b'))
  | more {s : String} {ss : List String} {b t b' u : List Char} : Blank b → Quoted s t →
    Blank b' → Items ss u → Items (s :: ss) (b ++ (t ++ (b' ++ ',' :: u)))

/-- A sign of a number, and whether it is a minus. -/
inductive Sign : Bool → List Char → Prop
  | none : Sign false []
  | plus : Sign false ['+']
  | minus : Sign true ['-']

/-- A decimal number: a sign, digits, and a point among them or at their ends.
    It stands for the double nearest to it. -/
inductive SpellsNumber : Double → List Char → Prop
  | whole {negative : Bool} {sign whole : List Char} : Sign negative sign → whole ≠ [] →
    (∀ c ∈ whole, isDigit c) →
    SpellsNumber ((Decimal.ofDigits whole [] 0).nearest negative) (sign ++ whole)
  | fraction {negative : Bool} {sign whole fraction : List Char} : Sign negative sign →
    whole ≠ [] ∨ fraction ≠ [] → (∀ c ∈ whole, isDigit c) → (∀ c ∈ fraction, isDigit c) →
    SpellsNumber ((Decimal.ofDigits whole fraction 0).nearest negative)
      (sign ++ (whole ++ '.' :: fraction))

/-- An operand: a text, a list of texts, a truth value, a number, or a text of
    the characters of dates that names an instant. -/
inductive SpellsOperand : Operand → List Char → Prop
  | text {s : String} {t : List Char} : Quoted s t → SpellsOperand (.text s) t
  | empty {b : List Char} : Blank b → SpellsOperand (.list []) ('[' :: (b ++ [']']))
  | list {ss : List String} {t : List Char} : Items ss t →
    SpellsOperand (.list ss) ('[' :: (t ++ [']']))
  | boolean {b : Bool} {w : List Char} :
    lowerAscii w = (if b then "true".toList else "false".toList) → SpellsOperand (.boolean b) w
  | number {d : Double} {w : List Char} : SpellsNumber d w → SpellsOperand (.number d) w
  | date {i : Instant} {w : List Char} : (∀ c ∈ w, isNumberCharacter c) →
    Instant.ofText? w = some i → SpellsOperand (.date i) w

/-- A condition: a name, a comparator, and an operand unless the comparator
    takes none. -/
inductive SpellsCondition : Condition → List (List Char) → Prop
  | unary {property : String} {comparator : Comparator} {name word : List Char} :
    SpellsName property name → SpellsComparator comparator word → comparator.isUnary →
    SpellsCondition ⟨property, comparator, none⟩ [name, word]
  | binary {property : String} {comparator : Comparator} {x : Operand}
    {name word operand : List Char} : SpellsName property name →
    SpellsComparator comparator word → comparator.isUnary = false → SpellsOperand x operand →
    SpellsCondition ⟨property, comparator, some x⟩ [name, word, operand]

/-! ## Expressions -/

/-- The parts of a query: filters joined by a connective, and one of these. -/
inductive Phrase where
  | operand (connective : Connective) (f : Filter)
  | chain (connective : Connective) (fs : List Filter)

/-- The tokens of a part of a query. What `and` joins is a condition or a query
    in parentheses, and what `or` joins is a chain of `and`. -/
inductive Spells : Phrase → List (List Char) → Prop
  | condition {c : Condition} {ts : List (List Char)} : SpellsCondition c ts →
    Spells (.operand .and (.condition c)) ts
  | parentheses {fs : List Filter} {ts : List (List Char)} : Spells (.chain .or fs) ts →
    Spells (.operand .and (.group .or fs)) (['('] :: (ts ++ [[')']]))
  | conjunction {fs : List Filter} {ts : List (List Char)} : Spells (.chain .and fs) ts →
    Spells (.operand .or (.group .and fs)) ts
  | single {connective : Connective} {f : Filter} {ts : List (List Char)} :
    Spells (.operand connective f) ts → Spells (.chain connective [f]) ts
  | joined {connective : Connective} {f : Filter} {fs : List Filter} {w : List Char}
    {ts us : List (List Char)} : Spells (.operand connective f) ts →
    lowerAscii w = lowerAscii connective.keyword → Spells (.chain connective fs) us →
    Spells (.chain connective (f :: fs)) (ts ++ w :: us)

/-- Parts of a query whose filters become flat. -/
def Phrase.Flat : Phrase → Prop
  | operand connective f => connective ≠ .unknown ∧ f.flattened.Flat
  | chain connective fs => connective ≠ .unknown ∧ fs ≠ [] ∧ ∀ f ∈ fs, f.flattened.Flat

/-- No chain is empty, so that all that tokens spell becomes flat. -/
theorem flat_of_spells {p : Phrase} {ts : List (List Char)} (h : Spells p ts) : p.Flat := by
  induction h with
  | condition =>
    refine ⟨by decide, ?_⟩
    rw [Filter.flattened]
    exact .condition
  | parentheses _ ih => exact ⟨by decide, Filter.flat_flattened_group ih.1 ih.2.1 ih.2.2⟩
  | conjunction _ ih => exact ⟨by decide, Filter.flat_flattened_group ih.1 ih.2.1 ih.2.2⟩
  | single _ ih => exact ⟨ih.1, List.cons_ne_nil _ _, List.forall_mem_singleton.2 ih.2⟩
  | joined _ _ _ ih ihs =>
    exact ⟨ih.1, List.cons_ne_nil _ _, List.forall_mem_cons.2 ⟨ih.2, ihs.2.2⟩⟩

/-! ## Texts -/

/-- Tokens with blanks between them, of which `gap` holds, and behind the last
    one. -/
inductive Spaced (gap : List Char → Prop) : List (List Char) → List Char → Prop
  | last {t b : List Char} : Blank b → Spaced gap [t] (t ++ b)
  | more {t b s : List Char} {ts : List (List Char)} : Blank b → gap b → Spaced gap ts s →
    Spaced gap (t :: ts) (t ++ (b ++ s))

/-- The texts of a query that stands for a group of the connective `or`: blanks,
    and its tokens with blanks between them. -/
def IsSpelling (gap : List Char → Prop) (fs : List Filter) (s : List Char) : Prop :=
  ∃ ts b r, Spells (.chain .or fs) ts ∧ Blank b ∧ Spaced gap ts r ∧ s = b ++ r

/-- Tokens at the start of a text, with blanks before each of them, and behind
    each of them a rest of which `ok` holds. -/
inductive Run (ok : List Char → Prop) : List (List Char) → List Char → List Char → Prop
  | nil {s : List Char} : Run ok [] s s
  | cons {b t s r : List Char} {ts : List (List Char)} : Blank b → ok s → Run ok ts s r →
    Run ok (t :: ts) (b ++ (t ++ s)) r

namespace Run

variable {ok : List Char → Prop} {ts us : List (List Char)} {s m r t : List Char}

theorem nil_iff : Run ok [] s r ↔ s = r :=
  ⟨fun h => by cases h; rfl, fun h => h ▸ .nil⟩

theorem cons_iff : Run ok (t :: ts) s r ↔
    ∃ b m, Blank b ∧ ok m ∧ s = b ++ (t ++ m) ∧ Run ok ts m r := by
  refine ⟨fun h => ?_, fun ⟨b, m, hb, hm, hs, h⟩ => hs ▸ .cons hb hm h⟩
  cases h with
  | cons hb hm h => exact ⟨_, _, hb, hm, rfl, h⟩

theorem append (h : Run ok ts s m) (hu : Run ok us m r) : Run ok (ts ++ us) s r := by
  induction h with
  | nil => exact hu
  | cons hb hok _ ih => exact .cons hb hok (ih hu)

theorem exists_of_append (h : Run ok (ts ++ us) s r) : ∃ m, Run ok ts s m ∧ Run ok us m r := by
  induction ts generalizing s with
  | nil => exact ⟨s, .nil, h⟩
  | cons t ts ih =>
    obtain ⟨b, m, hb, hm, rfl, hrest⟩ := cons_iff.1 h
    obtain ⟨_, hts, hus⟩ := ih hrest
    exact ⟨_, .cons hb hm hts, hus⟩

theorem suffix (h : Run ok ts s r) : r <:+ s := by
  induction h with
  | nil => exact List.suffix_refl _
  | cons _ _ _ ih =>
    exact ih.trans ((List.suffix_append _ _).trans (List.suffix_append _ _))

end Run

/-- Whether a text starts with a blank, or not at all. -/
def Apart (s : List Char) : Prop := Ends (fun c => !isBlank c) s

theorem apart_of_blank {b : List Char} (hb : Blank b) : Apart b := fun c hc => by
  have hc := hb c (List.mem_of_mem_head? hc)
  simp only [hc, Bool.not_true]

theorem apart_append {b s : List Char} (hb : Blank b) (hne : b ≠ []) : Apart (b ++ s) :=
  ends_append hne fun c hc => by rw [hb c hc, Bool.not_true]

theorem Spaced.exists_run {ts : List (List Char)} {s b : List Char} (h : Spaced (· ≠ []) ts s)
    (hb : Blank b) : ∃ r, Blank r ∧ Run Apart ts (b ++ s) r := by
  induction h generalizing b with
  | last hlast => exact ⟨_, hlast, .cons hb (apart_of_blank hlast) .nil⟩
  | more hmore hne _ ih =>
    obtain ⟨r, hr, hrun⟩ := ih hmore
    exact ⟨r, hr, .cons hb (apart_append hmore hne) hrun⟩

theorem Run.exists_spaced {ts : List (List Char)} {s r : List Char}
    (h : Run (fun _ => True) ts s r) (hne : ts ≠ []) (hr : Blank r) :
    ∃ b t, Blank b ∧ Spaced (fun _ => True) ts t ∧ s = b ++ t := by
  induction h with
  | nil => exact absurd rfl hne
  | @cons b t s r ts hb _ h ih =>
    cases ts with
    | nil =>
      cases h
      exact ⟨b, _, hb, .last hr, rfl⟩
    | cons u us =>
      obtain ⟨b', s', hb', hspaced, rfl⟩ := ih (List.cons_ne_nil _ _) hr
      exact ⟨b, _, hb, .more hb' trivial hspaced, rfl⟩

end Query

end Sift
