import Sift.Json.Shape
import Sift.Json.Writer
import Sift.Proofs.Double.Approximate
import Sift.Proofs.Json.Proper

/-!
# JSON texts that are read back

The text of a value reads as this value with its objects sorted, if its numbers
can be read and it is not nested too deep. Integers, strings and words read back as
they are. A double may read back as a neighbour, as its digits are only read
approximately, but it does so as a double.

* `Json.readString_writtenText`: a string reads back from its escapes;
* `Json.Number.reread`, `Json.reread`: what is read from a number and from a value, and
  `Json.Number.reread_double_eq_self`: numbers of few digits that are read as they are;
* `Json.Readable`: the values that can be read back;
* `Json.Reads`: what a reader has to do on the items of a list for the list to be
  read;
* `Json.LaysOut`: ways to write a value, and `Json.LaysOut.ofText_eq`: that a text
  reads back in all of them;
* `Json.ofText_laidOut`, `Json.ofText_toText`: the texts over several lines and on
  one line.
-/

namespace Sift.Json

open Text Decimal

/-! ## Spaces -/

section

variable {b s : List Char}

theorem skipSpaces_append (hb : ∀ c ∈ b, isSpace c) : skipSpaces (b ++ s) = skipSpaces s :=
  List.dropWhile_append_of_pos hb

theorem skipSpaces_cons {c : Char} (h : isSpace c = false) : skipSpaces (c :: s) = c :: s :=
  List.dropWhile_cons_of_neg (by simp [h])

theorem isSpace_of_mem_newLine {level : Nat} {c : Char} (h : c ∈ newLine level) : isSpace c := by
  rcases List.mem_cons.1 h with rfl | h
  · rfl
  · rw [List.eq_of_mem_replicate h]
    rfl

end

/-! ## Strings -/

theorem hexValue?_digitChar {n : Nat} (h : n < 16) : hexValue? (Nat.digitChar n) = some n := by
  have hall : ∀ n ∈ List.range 16, hexValue? (Nat.digitChar n) = some n := by decide
  exact hall n (List.mem_range.2 h)

/-- A control reads back from its code unit in four digits. -/
theorem unicodeEscape_of_lt {c : Char} (h : c.toNat < 32) (t : List Char) :
    unicodeEscape ('0' :: '0' :: Nat.digitChar (c.toNat / 16) ::
      Nat.digitChar (c.toNat % 16) :: t) = .ok (c, t) := by
  have hcount (a b c d : Char) : ¬byteCount (a :: b :: c :: d :: t) < 4 := by
    have ha := a.utf8Size_pos
    have hb := b.utf8Size_pos
    have hc := c.utf8Size_pos
    have hd := d.utf8Size_pos
    simp only [byteCount, List.foldr_cons]
    omega
  have hvalue : hexValue4? ['0', '0', Nat.digitChar (c.toNat / 16),
      Nat.digitChar (c.toNat % 16)] = some c.toNat := by
    have hhigh := hexValue?_digitChar (n := c.toNat / 16) (by omega)
    have hlow := hexValue?_digitChar (n := c.toNat % 16) (by omega)
    simp only [hexValue4?, hhigh, hlow, show hexValue? '0' = some 0 from rfl]
    exact congrArg some (by omega)
  rw [unicodeEscape, codeUnit, if_neg (hcount _ _ _ _)]
  simp only [List.take_succ_cons, List.take_zero, hvalue, List.drop_succ_cons, List.drop_zero]
  rw [if_neg (by omega), if_neg (by omega), Char.ofNat_toNat]

/-- A character reads back from its escape. -/
theorem stringCharacter_escape (c : Char) (t : List Char) :
    stringCharacter (escape c ++ t) = .ok (some (c, t)) := by
  by_cases hshort : c ∈ ['"', '\\', '\n', '\r', '\t', '\x08', '\x0c']
  · simp only [List.mem_cons, List.not_mem_nil, or_false] at hshort
    rcases hshort with rfl | rfl | rfl | rfl | rfl | rfl | rfl <;> rfl
  simp only [List.mem_cons, List.not_mem_nil, or_false, not_or] at hshort
  obtain ⟨hquote, hslash, hn, hr, ht, hb, hf⟩ := hshort
  simp only [escape, hquote, hslash, hn, hr, ht, hb, hf, or_self, if_false]
  split
  · rename_i hcontrol
    exact congrArg (Except.map some) (unicodeEscape_of_lt hcontrol t)
  · rename_i hcontrol
    rw [List.singleton_append]
    unfold stringCharacter
    split <;> simp_all

theorem steps_escape (cs t : List Char) :
    Steps stringCharacter (cs.flatMap escape ++ '"' :: t) cs ('"' :: t) := by
  induction cs with
  | nil => exact .done rfl
  | cons c cs ih =>
    rw [List.flatMap_cons, List.append_assoc]
    refine .next (stringCharacter_escape c _) ?_ ih
    have hpos : 0 < (escape c).length := by
      rw [escape]
      repeat' split
      all_goals exact Nat.succ_pos _
    simp only [List.length_append]
    omega

/-- A string reads back from its text. -/
theorem readString_writtenText (s : String) (t : List Char) :
    ∃ r, writtenText s ++ t = '"' :: r ∧ readString r = .ok (s, t) := by
  refine ⟨s.toList.flatMap escape ++ '"' :: t, ?_, ?_⟩
  · rw [writtenText, List.cons_append, List.cons_append, List.append_assoc, List.singleton_append]
  · rw [readString, many_eq_of_steps (steps_escape s.toList t)]
    simp only [String.ofList_toList]

/-! ## Numbers -/

/-- The characters that carry a number on. -/
def inNumber (c : Char) : Bool := isDigit c || c == '.' || c == 'e' || c == 'E'

theorem inNumber_eq_false_iff {c : Char} :
    inNumber c = false ↔ isDigit c = false ∧ c ≠ '.' ∧ c ≠ 'e' ∧ c ≠ 'E' := by
  simp [inNumber, and_assoc]

section

variable {negative : Bool} {whole point fraction power rest : List Char} {e : Int} {d : Double}

theorem ends_isDigit (h : Ends inNumber rest) : Ends isDigit rest := fun c hc =>
  (inNumber_eq_false_iff.1 (h c hc)).1

/-- Digits behind the sign of a number are taken whole. -/
theorem exists_whole (hwhole : Whole whole) (hrest : Ends isDigit rest) :
    ∃ c r, whole ++ rest = c :: r ∧ isDigit c = true ∧ wordOf isDigit (c :: r) = (whole, rest) ∧
      ¬(c = '0' ∧ whole.length ≠ 1) := by
  obtain ⟨c, w, rfl⟩ := List.exists_cons_of_ne_nil hwhole.ne_nil
  refine ⟨c, w ++ rest, rfl, hwhole.isDigit c List.mem_cons_self,
    wordOf_append hwhole.isDigit hrest, ?_⟩
  rintro ⟨rfl, hlength⟩
  exact hlength (congrArg List.length (hwhole.eq_of_zero rfl))

theorem readNumber_integer (hwhole : Whole whole) (hrest : Ends inNumber rest) :
    readNumber negative (whole ++ rest) = integerOf negative whole rest := by
  obtain ⟨c, r, heq, hc, hword, hzero⟩ := exists_whole hwhole (ends_isDigit hrest)
  rw [heq]
  simp only [readNumber, hc, hword, hzero, Bool.not_true, Bool.false_eq_true, if_false]
  cases rest with
  | nil => rfl
  | cons c' rest =>
    obtain ⟨-, hpoint, he, hE⟩ := inNumber_eq_false_iff.1 (ends_cons.1 hrest)
    split
    · rename_i heq
      exact absurd (List.cons.inj heq).1 hpoint
    · rename_i heq
      cases heq
      rw [if_neg (not_or.2 ⟨he, hE⟩)]
    · rename_i heq
      cases heq

theorem readExponent_digits (n : Nat) (hrest : Ends inNumber rest) :
    readExponent ('+' :: (digitsOf n ++ rest)) = .ok ((n : Int), rest) ∧
      readExponent ('-' :: (digitsOf n ++ rest)) = .ok (-(n : Int), rest) := by
  obtain ⟨c, r, heq, hc, hword, -⟩ := exists_whole (whole_digitsOf n) (ends_isDigit hrest)
  rw [heq]
  simp only [readExponent, hc, if_true, hword, valueOf_digitsOf, Bool.false_eq_true, if_false,
    and_self]

theorem doubleOf_cut {digits : List Char} (he : e.natAbs ≤ 9999)
    (hd : (cut whole fraction e).approximate negative = d) (hfinite : d.isFinite) :
    doubleOf negative (cut whole fraction e) e digits rest = .ok (.number (.double d), rest) := by
  have hbound : ¬exponentBound < e.natAbs := by
    rw [exponentBound]
    omega
  rw [doubleOf, if_neg hbound, hd]
  exact if_pos hfinite

/-- A double near digits and a power of ten is read from them. -/
theorem withExponent_power (hpower : Power power e) (hrest : Ends inNumber rest)
    (hd : (cut whole fraction e).approximate negative = d) (hfinite : d.isFinite) :
    withExponent negative whole fraction (power ++ rest) = .ok (.number (.double d), rest) := by
  cases hpower with
  | none =>
    cases rest with
    | nil => exact doubleOf_cut (by decide) hd hfinite
    | cons c rest =>
      obtain ⟨-, -, he, hE⟩ := inNumber_eq_false_iff.1 (ends_cons.1 hrest)
      simp only [List.nil_append, withExponent, he, hE, or_self, if_false]
      exact doubleOf_cut (by decide) hd hfinite
  | @plus n hn =>
    simp only [List.cons_append, withExponent, true_or, if_true, (readExponent_digits n hrest).1]
    exact doubleOf_cut (by omega) hd hfinite
  | @minus n hn =>
    simp only [List.cons_append, withExponent, true_or, if_true, (readExponent_digits n hrest).2]
    exact doubleOf_cut (by omega) hd hfinite

theorem readNumber_double (hwhole : Whole whole) (hpoint : Point point fraction)
    (hpower : Power power e) (hne : point ≠ [] ∨ power ≠ []) (hrest : Ends inNumber rest)
    (hd : (cut whole fraction e).approximate negative = d) (hfinite : d.isFinite) :
    readNumber negative (whole ++ (point ++ power ++ rest)) =
      .ok (.number (.double d), rest) := by
  have hexponent := withExponent_power hpower hrest hd hfinite
  have hends : Ends isDigit (power ++ rest) := by
    cases hpower with
    | none => exact ends_isDigit hrest
    | plus _ | minus _ => exact ends_cons.2 (by decide)
  cases hpoint with
  | none =>
    obtain ⟨c, r, heq, hc, hword, hzero⟩ := exists_whole hwhole hends
    rw [List.nil_append, heq]
    simp only [readNumber, hc, hword, hzero, Bool.not_true, Bool.false_eq_true, if_false]
    cases hpower with
    | none => exact absurd hne (by simp)
    | plus _ | minus _ => exact hexponent
  | some hfraction hdigits =>
    have hpointEnds : Ends isDigit ('.' :: (fraction ++ (power ++ rest))) :=
      ends_cons.2 (by decide)
    obtain ⟨c, r, heq, hc, hword, hzero⟩ := exists_whole hwhole hpointEnds
    rw [List.append_assoc, List.cons_append, heq]
    simp only [readNumber, hc, hword, hzero, Bool.not_true, Bool.false_eq_true, if_false,
      wordOf_append hdigits hends]
    split
    · exact absurd rfl hfraction
    · exact absurd rfl hfraction
    · exact hexponent

end

/-! ## Values as they are read -/

/-- What is read from the text of a number. -/
def Number.reread : Number → Number
  | .integer i => .integer i
  | .double d =>
    match readNumber d.negative (d.spelled.drop d.sign.length) with
    | .ok (.number n, _) => n
    | _ => .double d

mutual

/-- What is read from the text of a value: the value with the entries of its objects
    sorted, and with its numbers as they are read. -/
def reread : Json → Json
  | .null => .null
  | .boolean b => .boolean b
  | .number n => .number n.reread
  | .text s => .text s
  | .list items => .list (rereadItems items)
  | .object entries => ofEntries (rereadEntries entries)
termination_by structural j => j

/-- The items of a list, as they are read. -/
def rereadItems : List Json → List Json
  | [] => []
  | j :: items => j.reread :: rereadItems items
termination_by structural items => items

/-- The entries of an object with their values as they are read, in the order they
    stand. -/
def rereadEntries : List (String × Json) → List (String × Json)
  | [] => []
  | (key, j) :: entries => (key, j.reread) :: rereadEntries entries
termination_by structural entries => entries

end

theorem rereadItems_eq (items : List Json) : rereadItems items = items.map reread := by
  induction items with
  | nil => rw [rereadItems, List.map_nil]
  | cons j items ih => rw [rereadItems, ih, List.map_cons]

theorem rereadEntries_eq (entries : List (String × Json)) :
    rereadEntries entries = entries.map fun entry => (entry.1, entry.2.reread) := by
  induction entries with
  | nil => rw [rereadEntries, List.map_nil]
  | cons entry entries ih =>
    obtain ⟨key, j⟩ := entry
    rw [rereadEntries, ih, List.map_cons]

section

variable {d : Double} {whole point fraction power : List Char} {e : Int}

theorem readNumber_spelledAs (hd : d.isFinite) (h : d.SpelledAs whole point fraction power e)
    {rest : List Char} (hrest : Ends inNumber rest) :
    readNumber d.negative (whole ++ (point ++ power ++ rest)) =
      .ok (.number (.double ((cut whole fraction e).approximate d.negative)), rest) :=
  readNumber_double h.isWhole h.isPoint h.isPower h.ne_nil hrest rfl
    (Double.isFinite_approximate_of_spelledAs hd h)

/-- What is read from the text of a finite double is made of its digits. -/
theorem Number.reread_double (hd : d.isFinite) (h : d.SpelledAs whole point fraction power e) :
    (Number.double d).reread = .double ((cut whole fraction e).approximate d.negative) := by
  have hread := readNumber_spelledAs hd h ends_nil
  rw [List.append_nil] at hread
  rw [reread, h.spelled_eq, List.drop_left, hread]

/-- A double that is written with few digits is read as it is. -/
theorem Number.reread_double_eq_self (hd : d.isFinite)
    (h : d.SpelledAs whole point fraction power e)
    (hdigits : valueOf (whole ++ fraction) < 2 ^ 53)
    (hplaces : (e - fraction.length).natAbs ≤ 22) : (Number.double d).reread = .double d := by
  rw [reread_double hd h, Double.approximate_of_spelledAs h hdigits hplaces]

/-- A finite double is read as a finite double. -/
theorem exists_readNumber_spelled (hd : d.isFinite) : ∃ whole tail d', Whole whole ∧
    d.spelled = d.sign ++ (whole ++ tail) ∧ d'.isFinite ∧
    (Number.double d).reread = .double d' ∧ ∀ rest, Ends inNumber rest →
      readNumber d.negative (whole ++ (tail ++ rest)) = .ok (.number (.double d'), rest) := by
  obtain ⟨whole, point, fraction, power, e, h⟩ := Double.exists_spelledAs hd
  exact ⟨whole, point ++ power, _, h.isWhole, h.spelled_eq,
    Double.isFinite_approximate_of_spelledAs hd h, Number.reread_double hd h,
    fun _ hrest => readNumber_spelledAs hd h hrest⟩

end

/-! ## Readable values -/

/-- The values, nested at most `depth` levels deep, whose numbers JSON can
    read. -/
inductive Readable : (depth : Nat) → Json → Prop
  | null {depth : Nat} : Readable depth .null
  | boolean {depth : Nat} (b : Bool) : Readable depth (.boolean b)
  | integer {depth : Nat} {i : Int} : -(Nat.pow 2 63 : Nat) ≤ i → i < (Nat.pow 2 64 : Nat) →
    Readable depth (.number (.integer i))
  | double {depth : Nat} {d : Double} : d.isFinite → Readable depth (.number (.double d))
  | text {depth : Nat} (s : String) : Readable depth (.text s)
  | list {depth : Nat} {items : List Json} : (∀ j ∈ items, Readable depth j) →
    Readable (depth + 1) (.list items)
  | object {depth : Nat} {entries : List (String × Json)} :
    (∀ entry ∈ entries, Readable depth entry.2) → Readable (depth + 1) (.object entries)

theorem readable_ofDouble (d : Double) {depth : Nat} : (ofDouble d).Readable depth := by
  rw [ofDouble]
  split
  · rename_i hfinite
    exact .double hfinite
  · exact .null

/-- How the text of a value starts: with no space, and not with the end of a
    list. -/
def Starts (s : List Char) : Prop := ∃ c r, s = c :: r ∧ isSpace c = false ∧ c ≠ ']'

theorem starts_of_isDigit {c : Char} {s : List Char} (h : isDigit c) : Starts (c :: s) := by
  have hall := of_isDigit (p := fun c => !isSpace c && c != ']') (by decide) h
  rw [Bool.and_eq_true, Bool.not_eq_true', bne_iff_ne] at hall
  exact ⟨c, s, rfl, hall⟩

/-- What a reader makes of a text of a value, with spaces in front of it and
    anything behind it that does not carry it on. -/
structure Reads (inner : Reader Reason Json) (j : Json) (text : List Char) : Prop where
  starts : Starts text
  read : ∀ b rest, (∀ c ∈ b, isSpace c) → Ends inNumber rest →
    inner (b ++ (text ++ rest)) = .ok (j.reread, rest)

theorem Reads.read_append {inner : Reader Reason Json} {j : Json} {text rest : List Char}
    (h : Reads inner j text) (hrest : Ends inNumber rest) :
    inner (text ++ rest) = .ok (j.reread, rest) :=
  h.read [] rest (fun _ hc => absurd hc List.not_mem_nil) hrest

/-! ## Lists and objects

The items of a list and the entries of an object stand behind commas, with the
spaces `gap` in front of each, and `colonGap` behind a colon. What follows the
last one, `t`, is spaces and the end of the list or of the object. -/

section

variable {inner : Reader Reason Json} {text : Json → List Char} {gap colonGap t rest : List Char}

/-- The text of an item or an entry, with the comma in front of it. -/
def behindComma (gap s : List Char) : List Char := ',' :: (gap ++ s)

/-- The text of an entry. -/
def entryText (text : Json → List Char) (colonGap : List Char) (entry : String × Json) :
    List Char :=
  writtenText entry.1 ++ (':' :: (colonGap ++ text entry.2))

theorem nextItem_of_reads {j : Json} (h : Reads inner j (text j)) (hgap : ∀ c ∈ gap, isSpace c)
    (hrest : Ends inNumber rest) :
    nextItem inner (behindComma gap (text j) ++ rest) = .ok (some (j.reread, rest)) := by
  have hread := h.read_append hrest
  obtain ⟨c, r, htext, hspace, hclose⟩ := h.starts
  rw [htext, List.cons_append] at hread
  simp only [behindComma, htext, List.cons_append, List.append_assoc, nextItem,
    skipSpaces_cons (show isSpace ',' = false from rfl), skipSpaces_append hgap,
    skipSpaces_cons hspace]
  split
  · rename_i heq
    cases heq
  · rename_i heq
    exact absurd (List.cons.inj heq).1 hclose
  · rw [hread]
    rfl

theorem ends_behindComma {α : Type} {text : α → List Char} (xs : List α) (ht : Ends inNumber t) :
    Ends inNumber ((xs.flatMap fun x => behindComma gap (text x)) ++ t) := by
  cases xs with
  | nil => exact ht
  | cons x xs => exact ends_cons.2 (by decide)

theorem steps_items {items : List Json} (h : ∀ j ∈ items, Reads inner j (text j))
    (hgap : ∀ c ∈ gap, isSpace c) (ht : Ends inNumber t) (hclose : skipSpaces t = ']' :: rest) :
    Steps (nextItem inner) ((items.flatMap fun j => behindComma gap (text j)) ++ t)
      (items.map reread) t := by
  induction items with
  | nil =>
    refine .done ?_
    rw [List.flatMap_nil, List.nil_append, nextItem, hclose]
    rfl
  | cons j items ih =>
    rw [List.forall_mem_cons] at h
    rw [List.flatMap_cons, List.append_assoc, List.map_cons]
    refine .next (nextItem_of_reads h.1 hgap (ends_behindComma items ht)) ?_ (ih h.2)
    simp only [behindComma, List.cons_append, List.length_cons, List.length_append]
    omega

/-- A list is read if its items are. -/
theorem readList_of_reads {x : Json} {items : List Json} (hx : Reads inner x (text x))
    (h : ∀ j ∈ items, Reads inner j (text j)) (hgap : ∀ c ∈ gap, isSpace c)
    (ht : Ends inNumber t) (hclose : skipSpaces t = ']' :: rest) :
    readList inner (gap ++ (text x ++ ((items.flatMap fun j => behindComma gap (text j)) ++ t))) =
      .ok ((list (x :: items)).reread, rest) := by
  have hends : Ends inNumber ((items.flatMap fun j => behindComma gap (text j)) ++ t) :=
    ends_behindComma items ht
  have hread := hx.read_append hends
  obtain ⟨c, r, htext, hspace, hbracket⟩ := hx.starts
  rw [htext, List.cons_append] at hread
  rw [htext, List.cons_append, readList, skipSpaces_append hgap, skipSpaces_cons hspace]
  split
  · rename_i heq
    cases heq
  · rename_i heq
    exact absurd (List.cons.inj heq).1 hbracket
  · rw [hread, reread, rereadItems_eq, List.map_cons]
    simp only [bind, Except.bind, many_eq_of_steps (steps_items h hgap ht hclose), hclose]
    rfl

theorem readEntry_of_reads {entry : String × Json} (h : Reads inner entry.2 (text entry.2))
    (hgap : ∀ c ∈ colonGap, isSpace c) (hrest : Ends inNumber rest) :
    ∃ r, entryText text colonGap entry ++ rest = '"' :: r ∧
      readEntry inner r = .ok ((entry.1, entry.2.reread), rest) := by
  obtain ⟨r, heq, hstring⟩ :=
    readString_writtenText entry.1 (':' :: (colonGap ++ (text entry.2 ++ rest)))
  refine ⟨r, ?_, ?_⟩
  · rw [← heq, entryText]
    simp only [List.append_assoc, List.cons_append]
  · have hread := h.read colonGap rest hgap hrest
    simp only [readEntry, hstring, bind, Except.bind,
      skipSpaces_cons (show isSpace ':' = false from rfl), hread]
    rfl

theorem nextEntry_of_reads {entry : String × Json} (h : Reads inner entry.2 (text entry.2))
    (hgap : ∀ c ∈ gap, isSpace c) (hcolonGap : ∀ c ∈ colonGap, isSpace c)
    (hrest : Ends inNumber rest) :
    nextEntry inner (behindComma gap (entryText text colonGap entry) ++ rest) =
      .ok (some ((entry.1, entry.2.reread), rest)) := by
  obtain ⟨r, heq, hread⟩ := readEntry_of_reads h hcolonGap hrest
  simp only [behindComma, List.cons_append, List.append_assoc, nextEntry, heq,
    skipSpaces_cons (show isSpace ',' = false from rfl), skipSpaces_append hgap,
    skipSpaces_cons (show isSpace '"' = false from rfl), hread]
  rfl

theorem steps_entries {entries : List (String × Json)}
    (h : ∀ entry ∈ entries, Reads inner entry.2 (text entry.2)) (hgap : ∀ c ∈ gap, isSpace c)
    (hcolonGap : ∀ c ∈ colonGap, isSpace c) (ht : Ends inNumber t)
    (hclose : skipSpaces t = '\x7d' :: rest) :
    Steps (nextEntry inner)
      ((entries.flatMap fun entry => behindComma gap (entryText text colonGap entry)) ++ t)
      (entries.map fun entry => (entry.1, entry.2.reread)) t := by
  induction entries with
  | nil =>
    refine .done ?_
    rw [List.flatMap_nil, List.nil_append, nextEntry, hclose]
    rfl
  | cons entry entries ih =>
    rw [List.forall_mem_cons] at h
    rw [List.flatMap_cons, List.append_assoc, List.map_cons]
    refine .next (nextEntry_of_reads h.1 hgap hcolonGap (ends_behindComma entries ht)) ?_ (ih h.2)
    simp only [behindComma, List.cons_append, List.length_cons, List.length_append]
    omega

/-- An object is read if its entries are. -/
theorem readObject_of_reads {x : String × Json} {entries : List (String × Json)}
    (hx : Reads inner x.2 (text x.2)) (h : ∀ entry ∈ entries, Reads inner entry.2 (text entry.2))
    (hgap : ∀ c ∈ gap, isSpace c) (hcolonGap : ∀ c ∈ colonGap, isSpace c)
    (ht : Ends inNumber t) (hclose : skipSpaces t = '\x7d' :: rest) :
    readObject inner (gap ++ (entryText text colonGap x ++
      ((entries.flatMap fun entry => behindComma gap (entryText text colonGap entry)) ++ t))) =
      .ok ((object (x :: entries)).reread, rest) := by
  have hends : Ends inNumber
      ((entries.flatMap fun entry => behindComma gap (entryText text colonGap entry)) ++ t) :=
    ends_behindComma entries ht
  obtain ⟨r, heq, hread⟩ := readEntry_of_reads hx hcolonGap hends
  rw [heq, reread, rereadEntries_eq, List.map_cons]
  simp only [readObject, skipSpaces_append hgap,
    skipSpaces_cons (show isSpace '"' = false from rfl), hread, bind, Except.bind,
    many_eq_of_steps (steps_entries h hgap hcolonGap ht hclose), hclose]
  rfl

end

/-! ## Values -/

section

variable {inner : Option (Reader Reason Json)} {j : Json} {text s : List Char}

theorem reads_of_readValueWith (hstarts : Starts text)
    (h : ∀ rest, Ends inNumber rest →
      readValueWith inner (text ++ rest) = .ok (j.reread, rest)) :
    Reads (readValueWith inner) j text where
  starts := hstarts
  read b rest hb hrest := by
    rw [← h rest hrest, readValueWith, readValueWith, skipSpaces_append hb]

theorem readValueWith_of_isDigit {c : Char} (h : isDigit c) :
    readValueWith inner (c :: s) = readNumber false (c :: s) := by
  have hall := of_isDigit (p := fun c => !isSpace c && !"ntf\"-[\x7b".toList.contains c)
    (by decide) h
  rw [Bool.and_eq_true, Bool.not_eq_true', Bool.not_eq_true'] at hall
  obtain ⟨hspace, hcontains⟩ := hall
  rw [readValueWith, skipSpaces_cons hspace]
  -- A digit is none of the characters that other values start with.
  split
  · rename_i heq
    cases heq
  all_goals
    first
    | rename_i heq
      rw [(List.cons.inj heq).1] at hcontains
      exact absurd hcontains (by decide)
    | skip
  rename_i heq
  cases heq
  exact if_pos h

theorem reads_whole {whole tail : List Char} {d : Bool} (hwhole : Whole whole)
    (h : ∀ rest, Ends inNumber rest → readNumber d (whole ++ (tail ++ rest)) =
      .ok (j.reread, rest)) :
    Reads (readValueWith inner) j ((if d then ['-'] else []) ++ (whole ++ tail)) := by
  cases d with
  | true =>
    refine reads_of_readValueWith ⟨'-', _, rfl, by decide, by decide⟩ fun rest hrest => ?_
    rw [← h rest hrest, if_pos rfl, List.append_assoc, List.append_assoc]
    rfl
  | false =>
    obtain ⟨c, w, rfl⟩ := List.exists_cons_of_ne_nil hwhole.ne_nil
    have hc := hwhole.isDigit c List.mem_cons_self
    refine reads_of_readValueWith (starts_of_isDigit hc) fun rest hrest => ?_
    rw [← h rest hrest, if_neg Bool.false_ne_true, List.nil_append, List.append_assoc]
    exact readValueWith_of_isDigit hc

theorem reads_integer {i : Int} (hlow : -(Nat.pow 2 63 : Nat) ≤ i)
    (hhigh : i < (Nat.pow 2 64 : Nat)) :
    Reads (readValueWith inner) (.number (.integer i)) (signedDigits i) := by
  have hwhole := whole_digitsOf i.natAbs
  have hreads : Reads (readValueWith inner) (.number (.integer i))
      ((if decide (i < 0) then ['-'] else []) ++ (digitsOf i.natAbs ++ [])) := by
    refine reads_whole hwhole fun rest hrest => ?_
    rw [List.nil_append, readNumber_integer hwhole hrest, integerOf, valueOf_digitsOf, reread,
      Number.reread]
    by_cases hneg : i < 0
    · have habs : -(i.natAbs : Int) = i := by omega
      rw [decide_eq_true hneg, if_pos rfl, if_pos (by omega), habs]
    · have habs : (i.natAbs : Int) = i := by omega
      rw [decide_eq_false hneg, if_neg Bool.false_ne_true, if_pos (by omega), habs]
  rw [List.append_nil] at hreads
  rw [signedDigits]
  split
  · rename_i hneg
    rwa [decide_eq_true hneg, if_pos rfl] at hreads
  · rename_i hneg
    rwa [decide_eq_false hneg, if_neg Bool.false_ne_true] at hreads

theorem reads_double {d : Double} (h : d.isFinite) :
    Reads (readValueWith inner) (.number (.double d)) d.spelled := by
  obtain ⟨whole, tail, d', hwhole, hspelled, -, hreread, hread⟩ := exists_readNumber_spelled h
  rw [hspelled]
  refine reads_whole hwhole fun rest hrest => ?_
  rw [hread rest hrest, reread, hreread]

theorem reads_text (s : String) : Reads (readValueWith inner) (.text s) (writtenText s) := by
  refine reads_of_readValueWith ⟨'"', _, rfl, by decide, by decide⟩ fun rest _ => ?_
  obtain ⟨r, heq, hread⟩ := readString_writtenText s rest
  rw [heq, readValueWith, skipSpaces_cons (by decide)]
  change (readString r).map _ = _
  rw [hread, reread]
  rfl

end

/-! ## Layouts -/

/-- A way to write values: with the spaces `gap level` in front of the items and
    entries at a level and of the end of what they stand in, and `colonGap` behind a
    colon. -/
structure LaysOut (text : Json → Nat → List Char) (gap : Nat → List Char)
    (colonGap : List Char) : Prop where
  isSpace_gap : ∀ level, ∀ c ∈ gap level, isSpace c
  isSpace_colonGap : ∀ c ∈ colonGap, isSpace c
  null : ∀ level, text .null level = "null".toList
  boolean : ∀ b level, text (.boolean b) level = if b then "true".toList else "false".toList
  number : ∀ n level, text (.number n) level = n.written
  string : ∀ s level, text (.text s) level = writtenText s
  noItems : ∀ level, text (.list []) level = "[]".toList
  items : ∀ x xs level, text (.list (x :: xs)) level =
    '[' :: (gap (level + 1) ++ (text x (level + 1) ++
      ((xs.flatMap fun j => behindComma (gap (level + 1)) (text j (level + 1))) ++
        (gap level ++ [']']))))
  noEntries : ∀ level, text (.object []) level = ['\x7b', '\x7d']
  entries : ∀ x xs level, text (.object (x :: xs)) level =
    '\x7b' :: (gap (level + 1) ++ (entryText (text · (level + 1)) colonGap x ++
      ((xs.flatMap fun entry => behindComma (gap (level + 1))
        (entryText (text · (level + 1)) colonGap entry)) ++ (gap level ++ ['\x7d']))))

/-- Values without items and entries are read at any depth. -/
theorem reads_readValue {j : Json} {text : List Char}
    (h : ∀ inner, Reads (readValueWith inner) j text) (depth : Nat) :
    Reads (readValue depth) j text := by
  cases depth with
  | zero => exact h none
  | succ depth => exact h (some (readValue depth))

/-- Where spaces end at a character that carries no number on, they carry none on. -/
theorem ends_spaces {b s : List Char} (hb : ∀ c ∈ b, isSpace c) (hs : Ends inNumber s) :
    Ends inNumber (b ++ s) := by
  cases b with
  | nil => exact hs
  | cons c b =>
    refine ends_cons.2 ?_
    have hc := hb c List.mem_cons_self
    rw [isSpace, Bool.or_eq_true, Bool.or_eq_true, Bool.or_eq_true] at hc
    simp only [decide_eq_true_eq] at hc
    rcases hc with ((rfl | rfl) | rfl) | rfl <;> rfl

section

variable {text : Json → Nat → List Char} {gap : Nat → List Char} {colonGap : List Char}

/-- Values are read in any layout. -/
theorem LaysOut.reads (hlayout : LaysOut text gap colonGap) {depth : Nat} {j : Json}
    (h : j.Readable depth) (level : Nat) : Reads (readValue depth) j (text j level) := by
  induction h generalizing level with
  | null =>
    rw [hlayout.null]
    exact reads_readValue (fun _ =>
      reads_of_readValueWith ⟨'n', _, rfl, by decide, by decide⟩ fun _ _ => rfl) _
  | boolean b =>
    rw [hlayout.boolean]
    cases b with
    | true =>
      exact reads_readValue (fun _ =>
        reads_of_readValueWith ⟨'t', _, rfl, by decide, by decide⟩ fun _ _ => rfl) _
    | false =>
      exact reads_readValue (fun _ =>
        reads_of_readValueWith ⟨'f', _, rfl, by decide, by decide⟩ fun _ _ => rfl) _
  | integer hlow hhigh =>
    rw [hlayout.number]
    exact reads_readValue (fun _ => reads_integer hlow hhigh) _
  | double hfinite =>
    rw [hlayout.number]
    exact reads_readValue (fun _ => reads_double hfinite) _
  | text s =>
    rw [hlayout.string]
    exact reads_readValue (fun _ => reads_text s) _
  | @list depth items hitems ih =>
    cases items with
    | nil =>
      rw [hlayout.noItems]
      exact reads_of_readValueWith ⟨'[', _, rfl, by decide, by decide⟩ fun _ _ => rfl
    | cons x items =>
      rw [List.forall_mem_cons] at ih
      rw [hlayout.items]
      refine reads_of_readValueWith ⟨'[', _, rfl, by decide, by decide⟩ fun rest _ => ?_
      have hread := readList_of_reads (ih.1 (level + 1)) (fun j hj => ih.2 j hj (level + 1))
        (hlayout.isSpace_gap (level + 1))
        (ends_spaces (hlayout.isSpace_gap level) (ends_cons.2 (by decide)))
        ((skipSpaces_append (hlayout.isSpace_gap level)).trans (skipSpaces_cons (s := rest) rfl))
      rw [← hread]
      simp only [List.append_assoc, List.cons_append]
      rfl
  | @object depth entries hentries ih =>
    cases entries with
    | nil =>
      rw [hlayout.noEntries]
      exact reads_of_readValueWith ⟨'\x7b', _, rfl, by decide, by decide⟩ fun _ _ => rfl
    | cons x entries =>
      rw [List.forall_mem_cons] at ih
      rw [hlayout.entries]
      refine reads_of_readValueWith ⟨'\x7b', _, rfl, by decide, by decide⟩ fun rest _ => ?_
      have hread : readObject (readValue depth) (gap (level + 1) ++
          (entryText (text · (level + 1)) colonGap x ++
            ((entries.flatMap fun entry => behindComma (gap (level + 1))
              (entryText (text · (level + 1)) colonGap entry)) ++
                (gap level ++ '\x7d' :: rest)))) = .ok ((object (x :: entries)).reread, rest) :=
        readObject_of_reads (ih.1 (level + 1)) (fun entry hentry => ih.2 entry hentry (level + 1))
          (hlayout.isSpace_gap (level + 1)) hlayout.isSpace_colonGap
          (ends_spaces (hlayout.isSpace_gap level) (ends_cons.2 (by decide)))
          ((skipSpaces_append (hlayout.isSpace_gap level)).trans (skipSpaces_cons rfl))
      rw [← hread]
      simp only [List.append_assoc, List.cons_append]
      rfl

/-- A text in any layout reads back as the value with its objects sorted. -/
theorem LaysOut.ofText_eq (hlayout : LaysOut text gap colonGap) {j : Json}
    (h : j.Readable depthLimit) (level : Nat) :
    ofText (String.ofList (text j level)) = .ok j.reread := by
  have hread := (hlayout.reads h level).read_append ends_nil
  rw [List.append_nil] at hread
  rw [ofText, String.toList_ofList]
  simp only [hread]
  rfl

end

/-! ### Several lines -/

theorem laidOutItems_eq (items : List Json) (level : Nat) : laidOutItems items level =
    items.flatMap fun j => behindComma (newLine level) (j.laidOutAt level) := by
  induction items with
  | nil => rw [laidOutItems, List.flatMap_nil]
  | cons j items ih =>
    rw [laidOutItems, ih, List.flatMap_cons, behindComma, List.cons_append]

theorem laidOutEntries_eq (entries : List (String × Json)) (level : Nat) :
    laidOutEntries entries level = entries.flatMap fun entry =>
      behindComma (newLine level) (entryText (laidOutAt · level) [' '] entry) := by
  induction entries with
  | nil => rw [laidOutEntries, List.flatMap_nil]
  | cons entry entries ih =>
    obtain ⟨key, j⟩ := entry
    rw [laidOutEntries, ih, List.flatMap_cons, behindComma, entryText]
    simp only [List.append_assoc, List.cons_append]
    rfl

theorem laysOut_laidOutAt : LaysOut laidOutAt newLine [' '] where
  isSpace_gap _ _ := isSpace_of_mem_newLine
  isSpace_colonGap c hc := List.mem_singleton.1 hc ▸ rfl
  null _ := rfl
  boolean _ _ := rfl
  number _ _ := rfl
  string _ _ := rfl
  noItems _ := rfl
  items x xs level := by
    rw [laidOutAt, laidOutItems_eq]
    simp only [List.append_assoc, List.cons_append]
  noEntries _ := rfl
  entries x xs level := by
    obtain ⟨key, j⟩ := x
    rw [laidOutAt, laidOutEntries_eq, entryText]
    simp only [List.append_assoc, List.cons_append]
    rfl

/-- The text of a value over several lines reads back as this value with its
    objects sorted. -/
theorem ofText_laidOut {j : Json} (h : j.Readable depthLimit) :
    ofText (String.ofList j.laidOut) = .ok j.reread := laysOut_laidOutAt.ofText_eq h 0

/-! ### One line -/

theorem writtenItems_eq (items : List Json) : writtenItems items =
    items.flatMap fun j => behindComma [] j.written := by
  induction items with
  | nil => rw [writtenItems, List.flatMap_nil]
  | cons j items ih =>
    rw [writtenItems, ih, List.flatMap_cons, behindComma, List.nil_append, List.cons_append]

theorem writtenEntries_eq (entries : List (String × Json)) : writtenEntries entries =
    entries.flatMap fun entry => behindComma [] (entryText written [] entry) := by
  induction entries with
  | nil => rw [writtenEntries, List.flatMap_nil]
  | cons entry entries ih =>
    obtain ⟨key, j⟩ := entry
    rw [writtenEntries, ih, List.flatMap_cons, behindComma, entryText]
    simp only [List.append_assoc, List.cons_append, List.nil_append]

theorem laysOut_written : LaysOut (fun j _ => j.written) (fun _ => []) [] where
  isSpace_gap _ _ hc := absurd hc List.not_mem_nil
  isSpace_colonGap _ hc := absurd hc List.not_mem_nil
  null _ := rfl
  boolean _ _ := rfl
  number _ _ := rfl
  string _ _ := rfl
  noItems _ := rfl
  items x xs _ := by
    rw [written, writtenItems_eq]
    simp only [List.append_assoc, List.cons_append, List.nil_append]
  noEntries _ := rfl
  entries x xs _ := by
    obtain ⟨key, j⟩ := x
    rw [written, writtenEntries_eq, entryText]
    simp only [List.append_assoc, List.cons_append, List.nil_append]

/-- The text of a value on one line reads back as this value with its objects
    sorted. -/
theorem ofText_toText {j : Json} (h : j.Readable depthLimit) : ofText j.toText = .ok j.reread :=
  laysOut_written.ofText_eq h 0

end Sift.Json
