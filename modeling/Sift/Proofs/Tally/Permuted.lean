import Sift.Proofs.Storage.Loaded
import Sift.Proofs.Tally.Entries
import Sift.Proofs.Tally.Order

/-!
# Listings of rows in another order

Rows in another order have a tally in another order, and under a name it may have
another tag first, of another color. No listing shows either of it: counts that are
the same up to their order and the colors of tags have one listing, if their labels
are distinct. Where a property holds values of one kind, the counts of the rows are
such, in whatever order the rows come.

* `Count.uncolored`: a count without the colors of tags;
* `listed_eq_of_perm_uncolored`: which counts have one listing;
* `OfOneKind`: properties with values of one kind, and `OfOneKind.perm_tally`: that
  their tallies do not depend on the order of the rows otherwise;
* `isStrictTotalOrder_and_listedBy_and_listed_eq`: what that is for listings, and
  `not_listed_tally_eq_and_not_listedBy_kind`: that it needs dates with leap seconds
  only where clocks have them, and has texts and tags as one kind.
-/

namespace Sift

open Std (TransCmp)

/-! ## Colors -/

namespace Count

/-- The count without the color of its tag. -/
def uncolored (c : Count) : Count := ⟨c.value.uncolored, c.count⟩

theorem label_uncolored (c : Count) : c.uncolored.label = c.label :=
  Value.label_uncolored c.value

theorem compare_uncolored (a b : Count) : a.uncolored.compare b.uncolored = a.compare b := by
  have hparts (v : Value) : kindRank v.uncolored = kindRank v ∧ v.uncolored.size = v.size ∧
      v.uncolored.time? = v.time? ∧ v.uncolored.word = v.word := by
    cases v <;> exact ⟨rfl, rfl, rfl, rfl⟩
  obtain ⟨hkind, hsize, htime, hword⟩ := hparts a.value
  obtain ⟨hkind', hsize', htime', hword'⟩ := hparts b.value
  rw [(compares _ _).eq_then, (compares a b).eq_then, uncolored, uncolored, hkind, hkind', hsize,
    hsize', htime, htime', hword, hword']

theorem compareCounts_uncolored (a b : Count) :
    a.uncolored.compareCounts b.uncolored = a.compareCounts b := by
  rw [compareCounts, compareCounts, compare_uncolored]
  rfl

end Count

/-! ## Counts in another order -/

section

variable {counts counts' : List Count}

theorem map_label_uncolored (counts : List Count) :
    (counts.map Count.uncolored).map Count.label = counts.map Count.label := by
  rw [List.map_map]
  exact List.map_congr_left fun c _ => Count.label_uncolored c

/-- Counts that are the same up to their order and the colors of tags are sorted
    alike, up to the colors of tags. -/
theorem map_uncolored_mergeSort {cmp : Count → Count → Ordering} [TransCmp cmp]
    (hlabel : ∀ a b, cmp a b = .eq → a.label = b.label)
    (hcolor : ∀ a b, cmp a.uncolored b.uncolored = cmp a b)
    (h : (counts.map Count.label).Nodup)
    (hperm : (counts.map Count.uncolored).Perm (counts'.map Count.uncolored)) :
    (counts.mergeSort fun a b => (cmp a b).isLE).map Count.uncolored =
      (counts'.mergeSort fun a b => (cmp a b).isLE).map Count.uncolored := by
  have h' : (counts'.map Count.label).Nodup := by
    rw [← map_label_uncolored] at h ⊢
    exact (hperm.map _).nodup_iff.1 h
  have hsorted {counts : List Count} (h : (counts.map Count.label).Nodup) :
      ((counts.mergeSort fun a b => (cmp a b).isLE).map Count.uncolored).Pairwise
        fun a b => cmp a b = .lt := by
    rw [List.pairwise_map]
    simp only [hcolor]
    exact pairwise_lt_mergeSort hlabel h
  refine eq_of_perm_of_pairwise_lt ?_ (hsorted h) (hsorted h')
  exact ((List.mergeSort_perm counts _).map _).trans
    (hperm.trans ((List.mergeSort_perm counts' _).map _).symm)

/-- Counts that are the same up to their order and the colors of tags have one
    listing, if their labels are distinct. -/
theorem listed_eq_of_perm_uncolored (h : (counts.map Count.label).Nodup)
    (hperm : (counts.map Count.uncolored).Perm (counts'.map Count.uncolored)) :
    listed counts = listed counts' ∧ listedWithCounts counts = listedWithCounts counts' := by
  have hvalues := map_uncolored_mergeSort Count.label_eq_of_compare_eq Count.compare_uncolored
    h hperm
  have hcounts := map_uncolored_mergeSort Count.label_eq_of_compareCounts_eq
    Count.compareCounts_uncolored h hperm
  constructor
  · rw [listed, listed, ← map_label_uncolored, hvalues, map_label_uncolored]
  · -- A line has the label and the number of a count, and so nothing of colors.
    have hline : (fun c : Count => c.label ++ ": " ++ toString c.count) =
        (fun c => c.label ++ ": " ++ toString c.count) ∘ Count.uncolored :=
      funext fun c => by rw [Function.comp_apply, Count.label_uncolored]; rfl
    rw [listedWithCounts, listedWithCounts, hline, ← List.map_map, hcounts, List.map_map]

end

/-! ## Rows in another order -/

section

variable {α : Type} [Row α] {rows rows' : List α} {property kind : String}

/-- The values of a property, where it has any, are of one kind, without numbers that
    are none, and with leap seconds where clocks have them. -/
structure OfOneKind (rows : List α) (property kind : String) : Prop where
  kind_eq : ∀ row ∈ rows, Row.value row property ≠ .null → (Row.value row property).kind = kind
  noNaN : ∀ row ∈ rows, ∀ d, Row.value row property = .number d → ¬d.isNaN
  proper : ∀ row ∈ rows, (Row.value row property).Proper

theorem OfOneKind.perm (h : OfOneKind rows property kind) (hperm : rows.Perm rows') :
    OfOneKind rows' property kind where
  kind_eq row hrow := h.kind_eq row (hperm.mem_iff.2 hrow)
  noNaN row hrow := h.noNaN row (hperm.mem_iff.2 hrow)
  proper row hrow := h.proper row (hperm.mem_iff.2 hrow)

theorem perm_occurring (property : String) (hperm : rows.Perm rows') :
    (occurring rows property).Perm (occurring rows' property) :=
  (hperm.flatMap_right _).filter _

theorem Value.eq_or_option_of_mem_occurrences {v w : Value} (h : v ∈ w.occurrences) :
    v = w ∨ ∃ ts t, w = .optionList ts ∧ v = .option t := by
  cases w with
  | optionList ts =>
    obtain ⟨t, -, rfl⟩ := List.mem_map.1 h
    exact .inr ⟨ts, t, rfl, rfl⟩
  | _ => exact .inl (List.mem_singleton.1 h)

/-- The kind of the values that are counted one by one. -/
theorem OfOneKind.kind_eq_of_mem_occurring (h : OfOneKind rows property kind) {v : Value}
    (hv : v ∈ occurring rows property) :
    v.kind = if kind = "option_list" then "option" else kind := by
  obtain ⟨hmem, hne⟩ := mem_occurring_iff.1 hv
  obtain ⟨row, hrow, hmem⟩ := List.mem_flatMap.1 hmem
  have hkind := h.kind_eq row hrow
  rcases Value.eq_or_option_of_mem_occurrences hmem with rfl | ⟨ts, t, hts, rfl⟩
  · have hnull : Row.value row property ≠ .null := fun he => hne (by rw [he, Value.label])
    rw [← hkind hnull]
    cases hvalue : Row.value row property with
    | optionList ts => exact absurd (by rw [hvalue, Value.label]) hne
    | _ => rfl
  · rw [hts] at hkind
    rw [← hkind (by simp)]
    rfl

theorem OfOneKind.not_isNaN (h : OfOneKind rows property kind) {d : Double}
    (hd : .number d ∈ occurring rows property) : ¬d.isNaN := by
  obtain ⟨row, hrow, hmem⟩ := List.mem_flatMap.1 (mem_occurring_iff.1 hd).1
  rcases Value.eq_or_option_of_mem_occurrences hmem with he | ⟨_, _, _, he⟩
  · exact h.noNaN row hrow d he.symm
  · cases he

theorem OfOneKind.proper_of_mem_occurring (h : OfOneKind rows property kind) {v : Value}
    (hv : v ∈ occurring rows property) : v.Proper := by
  obtain ⟨row, hrow, hmem⟩ := List.mem_flatMap.1 (mem_occurring_iff.1 hv).1
  exact Value.proper_of_mem_occurrences (h.proper row hrow) hmem

/-- The values that are counted under one label are the same up to the colors of
    tags. -/
theorem OfOneKind.uncolored_eq (h : OfOneKind rows property kind) {v w : Value}
    (hv : v ∈ occurring rows property) (hw : w ∈ occurring rows property)
    (hlabel : v.label = w.label) : v.uncolored = w.uncolored := by
  have hkind := (h.kind_eq_of_mem_occurring hv).trans (h.kind_eq_of_mem_occurring hw).symm
  refine (Value.uncolored_eq_or_noNumbers (h.proper_of_mem_occurring hv)
    (h.proper_of_mem_occurring hw) hkind (mem_occurring_iff.1 hv).2 hlabel).resolve_right ?_
  rintro ⟨hnan, -⟩
  exact h.not_isNaN hv hnan

/-- Rows in another order have the same counts, up to the colors of tags. -/
theorem OfOneKind.exists_uncolored_eq (h : OfOneKind rows property kind)
    (hperm : rows.Perm rows') {c : Count} (hc : c ∈ tally rows property) :
    ∃ c' ∈ tally rows' property, c'.uncolored = c.uncolored := by
  have hoccurring := perm_occurring property hperm
  obtain ⟨c', hc', hlabel⟩ :=
    exists_mem_tally_label_eq (hoccurring.mem_iff.1 (value_mem_occurring hc))
  have hvalue : c'.value.uncolored = c.value.uncolored :=
    h.uncolored_eq (hoccurring.mem_iff.2 (value_mem_occurring hc')) (value_mem_occurring hc) hlabel
  have hcount : c'.count = c.count := by
    rw [(of_mem_tally hc).2, (of_mem_tally hc').2, hoccurring.countP_eq, hlabel]
    rfl
  exact ⟨c', hc', by rw [Count.uncolored, hvalue, hcount, Count.uncolored]⟩

/-- The tallies of rows in another order are the same up to their own order and the
    colors of tags. -/
theorem OfOneKind.perm_tally (h : OfOneKind rows property kind) (hperm : rows.Perm rows') :
    ((tally rows property).map Count.uncolored).Perm
      ((tally rows' property).map Count.uncolored) := by
  have hnodup (rows : List α) : ((tally rows property).map Count.uncolored).Nodup := by
    refine List.Nodup.of_map Count.label ?_
    rw [map_label_uncolored]
    exact (map_label_tally rows property).2
  rw [List.perm_ext_iff_of_nodup (hnodup rows) (hnodup rows')]
  intro c
  rw [List.mem_map, List.mem_map]
  constructor
  · rintro ⟨c, hc, rfl⟩
    exact h.exists_uncolored_eq hperm hc
  · rintro ⟨c, hc, rfl⟩
    exact (h.perm hperm).exists_uncolored_eq hperm.symm hc

end

/-! ## Listings -/

/-- Listings do not depend on the order of what they list. Values with distinct labels
    have a strict total order, of whatever kinds they are; they are listed in it, each
    of them once, or by count first; and so they have one listing in whatever order
    they come. The rows of a property with values of one kind have one listing as
    well. The dates among these values must have their leap seconds where clocks have
    them, as those of loaded records have. -/
theorem isStrictTotalOrder_and_listedBy_and_listed_eq {α : Type} [Row α] :
    (∀ s : Set Count, s.InjOn Count.label →
      IsStrictTotalOrder s fun a b => a.1.compare b.1 = .lt) ∧
    (∀ counts : List Count, (counts.map Count.label).Nodup →
      ListedBy (fun a b => a.value.Precedes b.value) Count.label counts (listed counts) ∧
      ListedBy (fun a b => b.count < a.count ∨ a.count = b.count ∧ a.value.Precedes b.value)
        (fun c => c.label ++ ": " ++ toString c.count) counts (listedWithCounts counts) ∧
      ∀ counts', counts.Perm counts' →
        listed counts = listed counts' ∧ listedWithCounts counts = listedWithCounts counts') ∧
    (∀ (rows rows' : List α) (property kind : String), OfOneKind rows property kind →
      rows.Perm rows' →
        listed (tally rows property) = listed (tally rows' property) ∧
          listedWithCounts (tally rows property) = listedWithCounts (tally rows' property)) ∧
    ∀ layout given j rs schema, Document.records layout given j = .ok (rs, schema) →
      ∀ r ∈ rs, ∀ property, (r.value property).Proper := by
  refine ⟨fun s hs => Count.isStrictTotalOrder_compare hs, ?_, ?_, ?_⟩
  · intro counts h
    exact ⟨listedBy_listed h, listedBy_listedWithCounts h,
      fun counts' hperm => listed_eq_of_perm_uncolored h (hperm.map _)⟩
  · intro rows rows' property kind h hperm
    exact listed_eq_of_perm_uncolored (map_label_tally rows property).2 (h.perm_tally hperm)
  · intro layout given j rs schema h r hr property
    exact Document.proper_value_of_records h hr property

/-- Values of several kinds with distinct labels. -/
def assorted : List Count :=
  [⟨.text "late", 2⟩, ⟨.date Instant.inLeapSecond, 1⟩, ⟨.option ⟨"home", .red⟩, 2⟩,
    ⟨.boolean true, 2⟩]

/-- Tasks whose tags have one name in two colors. -/
def colored : List Record :=
  [.set "tags" (.optionList [⟨"late", .red⟩, .plain "home"]) (.new "a"), .new "b",
    Record.set "tags" (.optionList [⟨"late", .blue⟩]) (.new "c")]

theorem isStrictTotalOrder_and_listedBy_and_listed_eq_assorted :
    ({c | c ∈ assorted} : Set Count).InjOn Count.label ∧
      IsStrictTotalOrder {c | c ∈ assorted} (fun a b => a.1.compare b.1 = .lt) ∧
      (assorted.map Count.label).Nodup ∧ assorted.Perm assorted.reverse ∧
      listed assorted = listed assorted.reverse ∧
      OfOneKind colored "tags" "option_list" ∧ colored.Perm colored.reverse ∧
      listedWithCounts (tally colored "tags") = listedWithCounts (tally colored.reverse "tags") ∧
      Document.records .records none Record.logbook = .ok (Record.logged, .stock) ∧
      (Value.date .inLeapSecond).Proper := by
  have hlabels : (assorted.map Count.label).Nodup := by decide
  have hinj : ({c | c ∈ assorted} : Set Count).InjOn Count.label :=
    fun _ ha _ hb => List.inj_on_of_nodup_map hlabels ha hb
  have hkind : OfOneKind colored "tags" "option_list" := by
    refine ⟨by decide, ?_, ?_⟩
    · exact List.forall_mem_cons.2 ⟨nofun, List.forall_mem_cons.2 ⟨nofun,
        List.forall_mem_singleton.2 nofun⟩⟩
    · exact List.forall_mem_cons.2 ⟨trivial, List.forall_mem_cons.2 ⟨trivial,
        List.forall_mem_singleton.2 trivial⟩⟩
  have hperm := (List.reverse_perm assorted).symm
  have hrows := (List.reverse_perm colored).symm
  have hloaded : Document.records .records none Record.logbook = .ok (Record.logged, .stock) :=
    rfl
  obtain ⟨horder, hcounts, htallies, hproper⟩ :=
    @isStrictTotalOrder_and_listedBy_and_listed_eq Record _
  exact ⟨hinj, horder _ hinj, hlabels, hperm, ((hcounts _ hlabels).2.2 _ hperm).1, hkind, hrows,
    (htallies _ _ _ _ hkind hrows).2, hloaded, hproper _ _ _ _ _ hloaded _ List.mem_cons_self
      "date"⟩

/-! ### Where listings differ -/

/-- Counts that are in the order of their values are listed as they come. -/
theorem listed_of_pairwise {counts : List Count}
    (h : counts.Pairwise fun a b => (a.compare b).isLE) :
    listed counts = counts.map Count.label := by
  rw [listed, List.mergeSort_of_pairwise h]

/-- A tenth of a second into the second that a leap second where clocks have none is
    written as. -/
def Instant.tenthAfter : Instant where
  date := inLeapSecond.date
  second := afterMisplaced.second
  nanosecond := ⟨100000000, by decide⟩

/-- Tasks of which two are due at instants that are written in the same way, one before
    that of the third task and one after it. -/
def overdue : List Record :=
  [.set "due" (.date .misplacedLeapSecond) (.new "a"),
    .set "due" (.date .afterMisplaced) (.new "b"), .set "due" (.date .tenthAfter) (.new "c")]

/-- A tag between texts. -/
def interleaved : List Count := [⟨.text "a", 1⟩, ⟨.option (.plain "b"), 1⟩, ⟨.text "c", 1⟩]

/-- Listings of dates depend on the order of the rows if leap seconds stand where
    clocks have none, and listings are not by kind if texts and tags are two kinds. -/
theorem not_listed_tally_eq_and_not_listedBy_kind :
    (¬∀ (rows rows' : List Record) (property kind : String),
      (∀ r ∈ rows, r.value property ≠ .null → (r.value property).kind = kind) →
      (∀ r ∈ rows, ∀ d, r.value property = .number d → ¬d.isNaN) → rows.Perm rows' →
        listed (tally rows property) = listed (tally rows' property)) ∧
    ∀ rank : String → Nat, rank "text" ≠ rank "option" →
      ¬∀ counts : List Count, (counts.map Count.label).Nodup →
        ListedBy (fun a b => rank a.value.kind ≤ rank b.value.kind) Count.label counts
          (listed counts) := by
  constructor
  · intro h
    have htally : tally overdue "due" =
        [⟨.date .misplacedLeapSecond, 2⟩, ⟨.date .tenthAfter, 1⟩] := by
      decide +kernel
    have htally' : tally overdue.reverse "due" =
        [⟨.date .tenthAfter, 1⟩, ⟨.date .afterMisplaced, 2⟩] := by
      decide +kernel
    have hnumbers : ∀ r ∈ overdue, ∀ d, r.value "due" = .number d → ¬d.isNaN :=
      List.forall_mem_cons.2 ⟨nofun, List.forall_mem_cons.2 ⟨nofun,
        List.forall_mem_singleton.2 nofun⟩⟩
    have hlisted := h overdue overdue.reverse "due" "date" (by decide) hnumbers
      (List.reverse_perm overdue).symm
    rw [htally, htally', listed_of_pairwise (by decide), listed_of_pairwise (by decide)] at hlisted
    exact absurd hlisted (by decide +kernel)
  · intro rank hne h
    have hsorted {counts : List Count} (h : counts.map Count.label = ["a", "b", "c"]) :
        counts.Pairwise fun a b => compareOn Count.label a b = .lt := by
      have hlabels : (counts.map Count.label).Pairwise (· < ·) := by
        rw [h]
        decide
      exact (List.pairwise_map.1 hlabels).imp compareOfLessAndEq_eq_lt.2
    obtain ⟨sorted, hperm, hpairwise, hlabels⟩ := h interleaved (by decide)
    rw [listed_of_pairwise (by decide)] at hlabels
    obtain rfl := eq_of_perm_of_pairwise_lt hperm (hsorted hlabels.symm) (hsorted rfl)
    obtain ⟨hfirst, hrest⟩ := List.pairwise_cons.1 hpairwise
    have htext : rank "text" ≤ rank "option" := hfirst _ List.mem_cons_self
    have htag : rank "option" ≤ rank "text" :=
      (List.pairwise_cons.1 hrest).1 _ List.mem_cons_self
    exact hne (Nat.le_antisymm htext htag)

end Sift
