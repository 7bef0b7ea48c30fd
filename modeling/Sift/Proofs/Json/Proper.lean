import Mathlib.Data.String.Basic
import Sift.Json.Reader
import Sift.Proofs.Double.Decimal
import Sift.Proofs.Results
import Sift.Proofs.Text.Reader

/-!
# JSON values as they are read

What reading makes sure of: the keys of an object come out distinct and sorted,
and a number is an integer of 64 bits or a finite double. What is stored is
written in an order of its own, so reading it back sorts it first.

* `Json.Proper`: the values that reading gives, and `Json.proper_of_ofText`:
  that it gives no others;
* `Json.sorted`: entries sorted by key, and `Json.perm_sorted`,
  `Json.pairwise_sorted`: that they are the same entries in the right order;
* `Json.arranged`: a value with all of its objects sorted, and
  `Json.arranged_of_proper`: that this is how values that were read stand
  already.
-/

namespace Sift.Json

open Text

/-! ## Sorted entries -/

/-- The entries sorted by key; of several with one key the last one counts. -/
def sorted (entries : List (String × Json)) : List (String × Json) :=
  entries.foldl (fun sorted entry => put entry.1 entry.2 sorted) []

theorem ofEntries_eq (entries : List (String × Json)) :
    ofEntries entries = object (sorted entries) := rfl

variable {key : String} {value : Json} {entry : String × Json}
  {l entries : List (String × Json)}

theorem eq_or_mem_of_mem_put (h : entry ∈ put key value l) : entry = (key, value) ∨ entry ∈ l := by
  induction l with
  | nil => exact .inl (List.mem_singleton.1 h)
  | cons x l ih =>
    obtain ⟨k, v⟩ := x
    rw [put] at h
    split at h
    · exact List.mem_cons.1 h
    split at h
    · exact (List.mem_cons.1 h).imp_right (List.mem_cons_of_mem _)
    · rcases List.mem_cons.1 h with rfl | h
      · exact .inr List.mem_cons_self
      · exact (ih h).imp_right (List.mem_cons_of_mem _)

theorem perm_put (h : key ∉ l.map Prod.fst) : (put key value l).Perm ((key, value) :: l) := by
  induction l with
  | nil => exact .refl _
  | cons x l ih =>
    obtain ⟨k, v⟩ := x
    rw [List.map_cons, List.mem_cons, not_or] at h
    rw [put]
    split
    · exact .refl _
    · rw [if_neg h.1]
      exact ((ih h.2).cons _).trans (.swap ..)

theorem pairwise_put (h : (l.map Prod.fst).Pairwise (· < ·)) :
    ((put key value l).map Prod.fst).Pairwise (· < ·) := by
  induction l with
  | nil => exact List.pairwise_singleton _ _
  | cons x l ih =>
    obtain ⟨k, v⟩ := x
    have hl := List.pairwise_cons.1 h
    rw [put]
    split
    · rename_i hlt
      refine List.pairwise_cons.2 ⟨?_, h⟩
      intro n hn
      rcases List.mem_cons.1 hn with rfl | hn
      · exact hlt
      · exact lt_trans hlt (hl.1 n hn)
    split
    · rename_i he
      subst he
      exact h
    · rename_i hlt hne
      refine List.pairwise_cons.2 ⟨?_, ih hl.2⟩
      intro n hn
      obtain ⟨entry, hentry, rfl⟩ := List.mem_map.1 hn
      rcases eq_or_mem_of_mem_put hentry with rfl | hentry
      · exact lt_of_le_of_ne (not_lt.1 hlt) (Ne.symm hne)
      · exact hl.1 _ (List.mem_map_of_mem hentry)

theorem pairwise_foldl_put (h : (l.map Prod.fst).Pairwise (· < ·)) :
    ((entries.foldl (fun sorted entry => put entry.1 entry.2 sorted) l).map Prod.fst).Pairwise
      (· < ·) := by
  induction entries generalizing l with
  | nil => exact h
  | cons entry entries ih => exact ih (pairwise_put h)

/-- Sorted entries have distinct keys in order. -/
theorem pairwise_sorted (entries : List (String × Json)) :
    ((sorted entries).map Prod.fst).Pairwise (· < ·) := pairwise_foldl_put List.Pairwise.nil

theorem mem_of_mem_foldl_put
    (h : entry ∈ entries.foldl (fun sorted entry => put entry.1 entry.2 sorted) l) :
    entry ∈ l ∨ entry ∈ entries := by
  induction entries generalizing l with
  | nil => exact .inl h
  | cons x entries ih =>
    rcases ih h with h | h
    · rcases eq_or_mem_of_mem_put h with rfl | h
      · exact .inr List.mem_cons_self
      · exact .inl h
    · exact .inr (List.mem_cons_of_mem _ h)

theorem mem_of_mem_sorted (h : entry ∈ sorted entries) : entry ∈ entries :=
  (mem_of_mem_foldl_put h).resolve_left List.not_mem_nil

theorem perm_foldl_put (h : ((l ++ entries).map Prod.fst).Nodup) :
    (entries.foldl (fun sorted entry => put entry.1 entry.2 sorted) l).Perm (l ++ entries) := by
  induction entries generalizing l with
  | nil => rw [List.append_nil, List.foldl_nil]
  | cons entry entries ih =>
    have hmiddle : (l ++ entry :: entries).Perm (entry :: (l ++ entries)) := List.perm_middle
    have hnodup := (hmiddle.map Prod.fst).nodup_iff.1 h
    rw [List.map_cons, List.nodup_cons, List.map_append, List.mem_append, not_or] at hnodup
    have hput : (put entry.1 entry.2 l ++ entries).Perm (entry :: (l ++ entries)) :=
      (perm_put hnodup.1.1).append_right entries
    refine (ih ?_).trans (hput.trans hmiddle.symm)
    exact ((hput.trans hmiddle.symm).map Prod.fst).nodup_iff.2 h

/-- Sorting entries with distinct keys neither loses nor adds any. -/
theorem perm_sorted (h : (entries.map Prod.fst).Nodup) : (sorted entries).Perm entries :=
  perm_foldl_put h

/-- Entries in order are determined by what they are. -/
theorem eq_of_perm_of_pairwise {α : Type} {l entries : List (String × α)} (h : l.Perm entries)
    (hl : (l.map Prod.fst).Pairwise (· < ·)) (hentries : (entries.map Prod.fst).Pairwise (· < ·)) :
    l = entries := by
  rw [List.pairwise_map] at hl hentries
  refine h.eq_of_pairwise ?_ hl hentries
  intro a b _ _ hab hba
  exact absurd hab (lt_asymm hba)

/-- Entries with distinct keys that are put in order are sorted. -/
theorem sorted_eq_of_perm (h : l.Perm entries) (hl : (l.map Prod.fst).Pairwise (· < ·)) :
    sorted entries = l := by
  have hnodup : (entries.map Prod.fst).Nodup := (h.map Prod.fst).nodup_iff.1 (hl.imp ne_of_lt)
  exact eq_of_perm_of_pairwise ((perm_sorted hnodup).trans h.symm) (pairwise_sorted entries) hl

theorem sorted_eq_self (h : (entries.map Prod.fst).Pairwise (· < ·)) : sorted entries = entries :=
  sorted_eq_of_perm (.refl entries) h

theorem get?_cons :
    get? ((key, value) :: l) name = if key = name then some value else get? l name := by
  by_cases h : key = name <;> simp [get?, h]

theorem get?_of_mem (h : (entries.map Prod.fst).Nodup) (hmem : (key, value) ∈ entries) :
    get? entries key = some value := by
  induction entries with
  | nil => exact absurd hmem List.not_mem_nil
  | cons x entries ih =>
    rw [List.map_cons, List.nodup_cons] at h
    rcases List.mem_cons.1 hmem with rfl | hmem
    · rw [get?_cons, if_pos rfl]
    · have hne : x.1 ≠ key := by
        rintro rfl
        exact h.1 (List.mem_map.2 ⟨_, hmem, rfl⟩)
      rw [get?_cons, if_neg hne]
      exact ih h.2 hmem

theorem get?_put :
    get? (put key value l) name = if key = name then some value else get? l name := by
  induction l with
  | nil => rw [put, get?_cons]
  | cons entry l ih =>
    obtain ⟨k, v⟩ := entry
    rw [put]
    split
    · rw [get?_cons]
    · split
      · rename_i he
        rw [get?_cons, get?_cons, he]
        split <;> rfl
      · rename_i hne
        rw [get?_cons, get?_cons, ih]
        -- The entry that is passed is under another key.
        split
        · rename_i hk
          rw [if_neg fun he => hne (he.trans hk.symm)]
        · rfl

/-- Of several entries with one key, the last one is read. -/
theorem get?_foldl_put : get? (entries.foldl (fun l entry => put entry.1 entry.2 l) l) name =
    (get? entries.reverse name).or (get? l name) := by
  induction entries generalizing l with
  | nil => rfl
  | cons entry entries ih =>
    obtain ⟨k, v⟩ := entry
    rw [List.foldl_cons, ih, get?_put, List.reverse_cons]
    simp only [get?, List.find?_append, Option.map_or, Option.or_assoc]
    congr 1
    by_cases h : k = name <;> simp [h]

theorem get?_sorted : get? (sorted entries) name = get? entries.reverse name := by
  rw [sorted, get?_foldl_put]
  exact Option.or_none

/-- An entry with a key of its own that is sorted in among others is found, and
    the others stay as they are. -/
theorem sorted_cons (value : Json) (hkey : key ∉ l.map Prod.fst)
    (hl : (l.map Prod.fst).Pairwise (· < ·)) :
    get? (sorted ((key, value) :: l)) key = some value ∧
      ((sorted ((key, value) :: l)).filter fun entry => entry.1 ≠ key) = l := by
  have hnodup : (((key, value) :: l).map Prod.fst).Nodup :=
    List.nodup_cons.2 ⟨hkey, hl.imp ne_of_lt⟩
  have hperm := perm_sorted hnodup
  have hsorted := pairwise_sorted ((key, value) :: l)
  refine ⟨get?_of_mem (hsorted.imp ne_of_lt) (hperm.mem_iff.2 List.mem_cons_self), ?_⟩
  have hothers : (l.filter fun entry => entry.1 ≠ key) = l := by
    rw [List.filter_eq_self]
    intro entry hentry
    rw [decide_eq_true_eq]
    rintro rfl
    exact hkey (List.mem_map_of_mem hentry)
  have hfilter := hperm.filter fun entry => entry.1 ≠ key
  rw [List.filter_cons_of_neg (by simp), hothers] at hfilter
  exact eq_of_perm_of_pairwise hfilter (hsorted.sublist (List.filter_sublist.map Prod.fst)) hl

/-! ## Arranged values -/

mutual

/-- The value with the entries of its objects sorted, as it is read from its
    text. -/
def arranged : Json → Json
  | .null => .null
  | .boolean b => .boolean b
  | .number n => .number n
  | .text s => .text s
  | .list items => .list (arrangedItems items)
  | .object entries => ofEntries (arrangedEntries entries)
termination_by structural j => j

/-- The items of a list, arranged. -/
def arrangedItems : List Json → List Json
  | [] => []
  | j :: items => j.arranged :: arrangedItems items
termination_by structural items => items

/-- The entries of an object with their values arranged, in the order they
    stand. -/
def arrangedEntries : List (String × Json) → List (String × Json)
  | [] => []
  | (key, j) :: entries => (key, j.arranged) :: arrangedEntries entries
termination_by structural entries => entries

end

theorem arrangedItems_eq (items : List Json) : arrangedItems items = items.map arranged := by
  induction items with
  | nil => rw [arrangedItems, List.map_nil]
  | cons j items ih => rw [arrangedItems, ih, List.map_cons]

theorem arrangedEntries_eq (entries : List (String × Json)) :
    arrangedEntries entries = entries.map fun entry => (entry.1, entry.2.arranged) := by
  induction entries with
  | nil => rw [arrangedEntries, List.map_nil]
  | cons entry entries ih =>
    obtain ⟨key, j⟩ := entry
    rw [arrangedEntries, ih, List.map_cons]

/-! ## Proper values -/

/-- The values that reading gives. -/
inductive Proper : Json → Prop
  | null : Proper .null
  | boolean (b : Bool) : Proper (.boolean b)
  | integer {i : Int} : -(Nat.pow 2 63 : Nat) ≤ i → i < (Nat.pow 2 64 : Nat) →
    Proper (.number (.integer i))
  | double {d : Double} : d.isFinite → Proper (.number (.double d))
  | text (s : String) : Proper (.text s)
  | list {items : List Json} : (∀ j ∈ items, Proper j) → Proper (.list items)
  | object {entries : List (String × Json)} : (entries.map Prod.fst).Pairwise (· < ·) →
    (∀ entry ∈ entries, Proper entry.2) → Proper (.object entries)

attribute [simp] Proper.null Proper.boolean Proper.text

@[simp] theorem proper_list_iff {items : List Json} :
    (list items).Proper ↔ ∀ j ∈ items, j.Proper :=
  ⟨fun h => by cases h; assumption, .list⟩

@[simp] theorem proper_object_iff : (object entries).Proper ↔
    (entries.map Prod.fst).Pairwise (· < ·) ∧ ∀ entry ∈ entries, entry.2.Proper :=
  ⟨fun h => by cases h; constructor <;> assumption, fun h => .object h.1 h.2⟩

@[simp] theorem proper_integer_iff {i : Int} : (number (.integer i)).Proper ↔
    -(Nat.pow 2 63 : Nat) ≤ i ∧ i < (Nat.pow 2 64 : Nat) :=
  ⟨fun h => by cases h; constructor <;> assumption, fun h => .integer h.1 h.2⟩

theorem isFinite_toDouble {n : Number} (h : Proper (.number n)) : n.toDouble.isFinite := by
  cases h with
  | integer hlow hhigh => exact Double.isFinite_ofInt hlow hhigh
  | double hfinite => exact hfinite

theorem arranged_of_proper {j : Json} (h : j.Proper) : j.arranged = j := by
  induction h with
  | list _ ih => rw [arranged, arrangedItems_eq, List.map_congr_left ih, List.map_id']
  | @object entries hkeys _ ih =>
    have hentries : (entries.map fun entry => (entry.1, entry.2.arranged)) = entries := by
      refine (List.map_congr_left fun entry hentry => ?_).trans (List.map_id' entries)
      rw [ih entry hentry]
    rw [arranged, arrangedEntries_eq, hentries, ofEntries_eq, sorted_eq_self hkeys]
  | _ => rw [arranged]

theorem proper_ofEntries (h : ∀ entry ∈ entries, entry.2.Proper) : (ofEntries entries).Proper :=
  .object (pairwise_sorted entries) fun entry hentry => h entry (mem_of_mem_sorted hentry)

/-! ## Reading -/

section

variable {s r : List Char} {j : Json}

theorem isFinite_ofMagnitude_zero (negative : Bool) : (Double.ofMagnitude negative 0).isFinite :=
  rfl

theorem proper_of_doubleOf {negative : Bool} {x : Decimal} {exponent : Int}
    {digits rest : List Char} (h : doubleOf negative x exponent digits rest = .ok (j, r)) :
    j.Proper := by
  unfold doubleOf at h
  split at h
  · split at h
    · cases h
      exact .double (isFinite_ofMagnitude_zero negative)
    · exact absurd h stopAt_ne_ok
  · dsimp only at h
    split at h
    · rename_i hfinite
      cases h
      exact .double hfinite
    · exact absurd h stopAt_ne_ok

theorem proper_of_withExponent {negative : Bool} {whole fraction : List Char}
    (h : withExponent negative whole fraction s = .ok (j, r)) : j.Proper := by
  unfold withExponent at h
  split at h
  · split at h
    · split at h
      · exact absurd h (by simp)
      · exact proper_of_doubleOf h
    · exact proper_of_doubleOf h
  · exact proper_of_doubleOf h

theorem proper_of_integerOf {negative : Bool} {digits rest : List Char}
    (h : integerOf negative digits rest = .ok (j, r)) : j.Proper := by
  rw [integerOf] at h
  split at h
  · split at h
    · cases h
      exact .integer (by omega) (by omega)
    · exact proper_of_doubleOf h
  · split at h
    · cases h
      exact .integer (by omega) (by omega)
    · exact proper_of_doubleOf h

theorem stopPast_ne_ok {α : Type} {reason : Reason} {x : α} :
    stopPast reason s ≠ .ok x := by
  simp [stopPast]

theorem proper_of_readNumber {negative : Bool} (h : readNumber negative s = .ok (j, r)) :
    j.Proper := by
  unfold readNumber at h
  split at h
  · exact absurd h stopAt_ne_ok
  split at h
  · exact absurd h stopPast_ne_ok
  dsimp only at h
  split at h
  · exact absurd h stopPast_ne_ok
  split at h
  · split at h
    · exact absurd h stopPast_ne_ok
    · exact absurd h stopPast_ne_ok
    · exact proper_of_withExponent h
  · split at h
    · exact proper_of_withExponent h
    · exact proper_of_integerOf h
  · exact proper_of_integerOf h

theorem proper_of_readWord {value : Json} (hvalue : value.Proper) {word : List Char}
    (h : readWord value word s = .ok (j, r)) : j.Proper := by
  induction word generalizing s with
  | nil =>
    rw [readWord] at h
    cases h
    exact hvalue
  | cons c word ih =>
    cases s with
    | nil => exact absurd h stopAt_ne_ok
    | cons x s =>
      rw [readWord] at h
      split at h
      · exact ih h
      · exact absurd h stopPast_ne_ok

/-! Values within values are read by `inner`, which reads proper values only. -/

variable {inner : Reader Reason Json} (hinner : ∀ s j r, inner s = .ok (j, r) → j.Proper)

include hinner

theorem proper_of_nextItem (h : nextItem inner s = .ok (some (j, r))) : j.Proper := by
  unfold nextItem at h
  split at h
  · split at h
    · exact absurd h stopPast_ne_ok
    · exact absurd h stopPast_ne_ok
    · obtain ⟨⟨j', r'⟩, hj, he⟩ := Except.map_eq_ok.1 h
      cases he
      exact hinner _ _ _ hj
  · exact absurd h (by simp)

theorem proper_of_readList (h : readList inner s = .ok (j, r)) : j.Proper := by
  unfold readList at h
  split at h
  · exact absurd h stopPast_ne_ok
  · cases h
    exact .list fun _ hx => absurd hx List.not_mem_nil
  · obtain ⟨⟨first, s'⟩, hfirst, h⟩ := Except.bind_eq_ok.1 h
    obtain ⟨⟨others, s''⟩, hothers, h⟩ := Except.bind_eq_ok.1 h
    dsimp only at hothers h
    split at h
    · cases h
      refine .list ?_
      rw [List.forall_mem_cons]
      refine ⟨hinner _ _ _ hfirst, ?_⟩
      intro x hx
      obtain ⟨_, _, hstep⟩ := step_of_mem_many hothers hx
      exact proper_of_nextItem hinner hstep
    · exact absurd h stopPast_ne_ok
    · exact absurd h stopPast_ne_ok

theorem proper_of_readEntry {entry : String × Json} (h : readEntry inner s = .ok (entry, r)) :
    entry.2.Proper := by
  obtain ⟨⟨key, s'⟩, _, h⟩ := Except.bind_eq_ok.1 h
  dsimp only at h
  split at h
  · obtain ⟨⟨value, r'⟩, hvalue, h⟩ := Except.bind_eq_ok.1 h
    cases h
    exact hinner _ _ _ hvalue
  · exact absurd h stopPast_ne_ok
  · exact absurd h stopPast_ne_ok

theorem proper_of_nextEntry {entry : String × Json}
    (h : nextEntry inner s = .ok (some (entry, r))) : entry.2.Proper := by
  unfold nextEntry at h
  split at h
  · split at h
    · exact absurd h stopPast_ne_ok
    · obtain ⟨⟨entry', r'⟩, hentry, he⟩ := Except.map_eq_ok.1 h
      cases he
      exact proper_of_readEntry hinner hentry
    · exact absurd h stopPast_ne_ok
    · exact absurd h stopPast_ne_ok
  · exact absurd h (by simp)

theorem proper_of_readObject (h : readObject inner s = .ok (j, r)) : j.Proper := by
  unfold readObject at h
  split at h
  · exact absurd h stopPast_ne_ok
  · cases h
    exact .object List.Pairwise.nil fun _ hx => absurd hx List.not_mem_nil
  · obtain ⟨⟨first, s'⟩, hfirst, h⟩ := Except.bind_eq_ok.1 h
    obtain ⟨⟨others, s''⟩, hothers, h⟩ := Except.bind_eq_ok.1 h
    dsimp only at hothers h
    split at h
    · cases h
      refine proper_ofEntries ?_
      rw [List.forall_mem_cons]
      refine ⟨proper_of_readEntry hinner hfirst, ?_⟩
      intro x hx
      obtain ⟨_, _, hstep⟩ := step_of_mem_many hothers hx
      exact proper_of_nextEntry hinner hstep
    · exact absurd h stopPast_ne_ok
    · exact absurd h stopPast_ne_ok
  · exact absurd h stopPast_ne_ok

end

theorem proper_of_readValueWith {inner : Option (Reader Reason Json)}
    (hinner : ∀ read ∈ inner, ∀ s j r, read s = .ok (j, r) → j.Proper) {s r : List Char} {j : Json}
    (h : readValueWith inner s = .ok (j, r)) : j.Proper := by
  unfold readValueWith at h
  split at h
  · exact absurd h stopPast_ne_ok
  · exact proper_of_readWord .null h
  · exact proper_of_readWord (.boolean true) h
  · exact proper_of_readWord (.boolean false) h
  · obtain ⟨⟨t, r'⟩, _, he⟩ := Except.map_eq_ok.1 h
    cases he
    exact .text t
  · exact proper_of_readNumber h
  · split at h
    · exact absurd h stopPast_ne_ok
    · exact proper_of_readList (hinner _ rfl) h
  · split at h
    · exact absurd h stopPast_ne_ok
    · exact proper_of_readObject (hinner _ rfl) h
  · split at h
    · exact proper_of_readNumber h
    · exact absurd h stopPast_ne_ok

theorem proper_of_readValue {depth : Nat} {s r : List Char} {j : Json}
    (h : readValue depth s = .ok (j, r)) : j.Proper := by
  induction depth generalizing s r j with
  | zero => exact proper_of_readValueWith (fun _ he => absurd he (by simp)) h
  | succ depth ih =>
    refine proper_of_readValueWith ?_ h
    intro read he s j r hread
    cases he
    exact ih hread

/-- The value of a text is proper. -/
theorem proper_of_ofText {text : String} {j : Json} (h : ofText text = .ok j) : j.Proper := by
  rw [ofText] at h
  split at h
  · exact absurd h (by simp)
  · rename_i hread
    split at h
    · cases h
      exact proper_of_readValue hread
    · exact absurd h (by simp)

end Sift.Json
