/-!
# Columns

Named entries in the order of their first insertion, each name once: the
properties of a record, the declarations of a schema, the counts of a tally.

* `Columns`: the type;
* `Columns.set`: an entry put in the place of one with the same name, or after
  all others;
* `names_set`, `get?_set`: what that does to the names and to look-ups;
* `get?_eq_some_iff`: a look-up finds the entries.
-/

namespace Sift

/-- Entries with distinct names, in order. -/
structure Columns (α : Type) where
  entries : List (String × α)
  nodup : (entries.map Prod.fst).Nodup

namespace Columns

variable {α : Type}

instance [DecidableEq α] : DecidableEq (Columns α) := fun a b =>
  if h : a.entries = b.entries then
    .isTrue (by cases a; cases b; simp_all)
  else .isFalse fun e => h (e ▸ rfl)

theorem eq_of_entries_eq {c d : Columns α} (h : c.entries = d.entries) : c = d := by
  cases c
  cases d
  cases h
  rfl

/-- No entries. -/
def empty : Columns α := ⟨[], .nil⟩

/-- The names, in order. -/
def names (c : Columns α) : List String := c.entries.map Prod.fst

/-- Puts an entry in the place of the one with its name, or at the end. -/
def setIn (name : String) (value : α) : List (String × α) → List (String × α)
  | [] => [(name, value)]
  | (n, v) :: rest => if n = name then (name, value) :: rest else (n, v) :: setIn name value rest

theorem names_setIn (name : String) (value : α) (l : List (String × α)) :
    (setIn name value l).map Prod.fst =
      if name ∈ l.map Prod.fst then l.map Prod.fst else l.map Prod.fst ++ [name] := by
  induction l with
  | nil => simp [setIn]
  | cons x l ih =>
    obtain ⟨n, v⟩ := x
    by_cases h : n = name
    · subst h
      simp [setIn]
    · have h' : ¬name = n := fun e => h e.symm
      simp only [setIn, h, ↓reduceIte, List.map_cons, ih, List.mem_cons, h', false_or]
      split <;> rfl

/-- The columns with an entry put in the place of the one with its name, or at
    the end. -/
def set (name : String) (value : α) (c : Columns α) : Columns α where
  entries := setIn name value c.entries
  nodup := by
    rw [names_setIn]
    split
    · exact c.nodup
    · rename_i h
      refine List.nodup_append.2 ⟨c.nodup, by simp, fun a ha b hb => ?_⟩
      rw [List.mem_singleton.1 hb]
      exact fun e => h (e ▸ ha)

/-- The value under a name. -/
def get? (c : Columns α) (name : String) : Option α :=
  (c.entries.find? fun entry => entry.1 == name).map Prod.snd

/-- The entries set one after the other. -/
def ofList (entries : List (String × α)) : Columns α :=
  entries.foldl (fun c entry => c.set entry.1 entry.2) empty

theorem names_set (name : String) (value : α) (c : Columns α) :
    (c.set name value).names = if name ∈ c.names then c.names else c.names ++ [name] :=
  names_setIn name value c.entries

/-- Where the names are the distinct ones of a list, one more of these is a new name
    or none. -/
theorem eraseDups_concat_of_names_eq {c : Columns α} {l : List String}
    (h : c.names = l.eraseDups) (name : String) :
    (l ++ [name]).eraseDups = if name ∈ c.names then c.names else c.names ++ [name] := by
  have hmem : name ∈ c.names ↔ name ∈ l := by rw [h, List.mem_eraseDups]
  rw [List.eraseDups_append, ← h]
  by_cases hname : name ∈ l
  · simp [hmem, hname, List.removeAll]
  · simp [hmem, hname, List.removeAll, List.eraseDups_cons]

theorem names_set_sublist (name : String) (value : α) (c : Columns α) :
    (c.set name value).names.Sublist (c.names ++ [name]) := by
  rw [names_set]
  split
  · exact List.sublist_append_left ..
  · exact List.Sublist.refl _

theorem mem_setIn {name : String} {value : α} {entry : String × α} {l : List (String × α)}
    (h : entry ∈ setIn name value l) : entry = (name, value) ∨ entry ∈ l := by
  induction l with
  | nil => exact .inl (List.mem_singleton.1 h)
  | cons x l ih =>
    obtain ⟨n, v⟩ := x
    rw [setIn] at h
    split at h
    · exact (List.mem_cons.1 h).imp_right (List.mem_cons_of_mem _)
    · rcases List.mem_cons.1 h with rfl | h
      · exact .inr List.mem_cons_self
      · exact (ih h).imp_right (List.mem_cons_of_mem _)

/-- The entries of columns with an entry set are this one and entries from
    before. -/
theorem mem_entries_set {name : String} {value : α} {entry : String × α} {c : Columns α}
    (h : entry ∈ (c.set name value).entries) : entry = (name, value) ∨ entry ∈ c.entries :=
  mem_setIn h

theorem setIn_of_notMem {name : String} (value : α) {l : List (String × α)}
    (h : name ∉ l.map Prod.fst) : setIn name value l = l ++ [(name, value)] := by
  induction l with
  | nil => rfl
  | cons x l ih =>
    obtain ⟨n, v⟩ := x
    rw [List.map_cons, List.mem_cons, not_or] at h
    rw [setIn, if_neg fun e => h.1 e.symm, ih h.2, List.cons_append]

/-- An entry with a new name goes to the end. -/
theorem entries_set_of_notMem {name : String} (value : α) {c : Columns α} (h : name ∉ c.names) :
    (c.set name value).entries = c.entries ++ [(name, value)] := setIn_of_notMem value h

theorem find?_setIn (name key : String) (value : α) (l : List (String × α)) :
    ((setIn name value l).find? fun entry => entry.1 == key).map Prod.snd =
      if key = name then some value
      else (l.find? fun entry => entry.1 == key).map Prod.snd := by
  induction l with
  | nil =>
    by_cases h : key = name
    · simp [setIn, h]
    · have h' : ¬name = key := fun e => h e.symm
      simp [setIn, h, h']
  | cons x l ih =>
    obtain ⟨n, v⟩ := x
    by_cases hn : n = name
    · subst hn
      by_cases h : key = n
      · simp [setIn, h]
      · have h' : ¬n = key := fun e => h e.symm
        simp [setIn, h, h']
    · simp only [setIn, hn, ↓reduceIte, List.find?_cons]
      by_cases hk : n = key
      · subst hk
        simp [hn]
      · have hb : (n == key) = false := by simpa using hk
        simp only [hb]
        exact ih

theorem get?_set (name key : String) (value : α) (c : Columns α) :
    (c.set name value).get? key = if key = name then some value else c.get? key :=
  find?_setIn name key value c.entries

theorem find?_eq_some_iff {l : List (String × α)} (h : (l.map Prod.fst).Nodup) {name : String}
    {value : α} : (l.find? fun entry => entry.1 == name).map Prod.snd = some value ↔
      (name, value) ∈ l := by
  induction l with
  | nil => simp
  | cons x l ih =>
    obtain ⟨n, v⟩ := x
    rw [List.map_cons, List.nodup_cons] at h
    rw [List.find?_cons, List.mem_cons]
    by_cases hn : n = name
    · subst hn
      have hmem : (n, value) ∉ l := fun hmem => h.1 (List.mem_map.2 ⟨_, hmem, rfl⟩)
      simp [hmem, eq_comm]
    · have hb : (n == name) = false := by simpa using hn
      have hne : ¬(name, value) = (n, v) := fun e => hn (congrArg Prod.fst e).symm
      rw [hb, ih h.2]
      simp only [hne, false_or]

/-- What columns have under a name is one of their entries. -/
theorem get?_eq_some_iff {name : String} {value : α} {c : Columns α} :
    c.get? name = some value ↔ (name, value) ∈ c.entries := find?_eq_some_iff c.nodup

/-- Look-ups do not depend on the order of the entries. -/
theorem get?_eq_of_perm {c d : Columns α} (h : c.entries.Perm d.entries) (name : String) :
    c.get? name = d.get? name := by
  refine Option.ext fun value => ?_
  rw [get?_eq_some_iff, get?_eq_some_iff, h.mem_iff]

theorem get?_eq_none_iff {name : String} {c : Columns α} :
    c.get? name = none ↔ name ∉ c.names := by
  rw [Option.eq_none_iff_forall_ne_some, names, List.mem_map]
  simp only [ne_eq, get?_eq_some_iff]
  exact ⟨fun h ⟨entry, hentry, he⟩ => h entry.2 (he ▸ hentry),
    fun h value hmem => h ⟨_, hmem, rfl⟩⟩

theorem mem_names_set {name key : String} {value : α} {c : Columns α} :
    name ∈ (c.set key value).names ↔ name ∈ c.names ∨ name = key := by
  rw [names_set]
  split
  · rename_i hkey
    exact ⟨.inl, fun h => h.elim id fun he => he ▸ hkey⟩
  · rw [List.mem_append, List.mem_singleton]

end Columns

end Sift
