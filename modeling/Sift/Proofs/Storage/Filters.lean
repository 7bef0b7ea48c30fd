import Sift.Document
import Sift.Filter.Checking
import Sift.Filter.Stored
import Sift.Proofs.Json.RoundTrip
import Sift.Proofs.Json.Shape
import Sift.Proofs.Query.Divergence
import Sift.Proofs.Storage.Values

/-!
# Stored filters

A filter is stored as a tree of objects that are tagged with their kinds. All
of it reads back but for dates, which are texts then: a filter that is read has
no dates until it is checked, and a check makes the same dates of the texts.

* `Filter.undated`: the filter with its dates as texts, and
  `Filter.ofJsonAt_toJson`: that this is what reads back, of what is written and
  of what is read;
* `Filter.Plain`: the filters without dates and with finite numbers, and
  `Filter.plain_of_ofJsonAt_and_filtersOf`: that no others are read;
* `Filter.ofJson_toJson_and_of_ofJson`: so these filters, among them all that
  are read, read back as they are;
* `Filter.check_undated`, `Filter.exists_ofJson_toJson_and_check`: a checked
  filter is restored by checking what is read back, and
  `Filter.not_exists_ofJson_toJson_and_check`: that this needs dates with leap
  seconds only where clocks have them, and for texts numbers that are read as they
  are.
-/

namespace Sift

open Json

/-! ## Operands -/

namespace Operand

/-- The operand with a date as a text. -/
def undated : Operand → Operand
  | date i => text (String.ofList i.zulu)
  | x => x

/-- An operand reads back, a date as a text. -/
theorem ofJson_toJson {x : Operand} (hx : ∀ d, x = .number d → d.isFinite) :
    Json.optional ofJson x.toJson = .ok (some x.undated) := by
  cases x with
  | number d =>
    rw [toJson, ofDouble, if_pos (hx d rfl)]
    rfl
  | list names =>
    have hnames : readAll asText (names.map .text) = .ok (names.map id) :=
      readAll_map fun _ _ => rfl
    rw [toJson, Json.optional, ofJson, hnames, List.map_id]
    · rfl
    · exact Json.noConfusion
  | _ => rfl

/-- The operands that are stored with their kind: dates are stored as texts, and
    there is no JSON for numbers that are not finite. -/
def Plain : Operand → Prop
  | number d => d.isFinite
  | date _ => False
  | boolean _ | text _ | list _ => True

theorem undated_of_plain {x : Operand} (h : x.Plain) : x.undated = x := by
  cases x with
  | date i => exact h.elim
  | _ => rfl

/-- The operands that are read are stored with their kind. -/
theorem plain_of_ofJson {j : Json} {x : Operand} (hj : j.Proper) (h : ofJson j = .ok x) :
    x.Plain := by
  unfold ofJson at h
  split at h
  · cases h
    trivial
  · cases h
    exact isFinite_toDouble hj
  · cases h
    trivial
  · split at h
    · cases h
      trivial
    · exact absurd h (by simp)
  · exact absurd h (by simp)

theorem arranged_toJson (x : Operand) : x.toJson.arranged = x.toJson := by
  cases x with
  | number d =>
    rw [toJson, ofDouble]
    split
    · rw [arranged]
    · rw [arranged]
  | list names =>
    rw [toJson, arranged, arrangedItems_eq, List.map_map]
    rfl
  | _ => rw [toJson, arranged]

/-- An operand is read from its text as it is if its number is. -/
theorem reread_toJson {x : Operand}
    (hx : ∀ d, x = .number d → (Json.Number.double d).reread = .double d) :
    x.toJson.reread = x.toJson.arranged := by
  cases x with
  | number d =>
    rw [toJson, ofDouble]
    split
    · rw [reread, arranged, hx d rfl]
    · rw [reread, arranged]
  | list names =>
    rw [toJson, reread, arranged, rereadItems_eq, arrangedItems_eq, List.map_map, List.map_map]
    rfl
  | _ => rw [toJson, reread, arranged]

theorem readable_toJson (x : Operand) {depth : Nat} : x.toJson.Readable (depth + 1) := by
  cases x with
  | boolean b => exact .boolean b
  | number d => exact readable_ofDouble d
  | date i => exact .text _
  | text s => exact .text s
  | list names => exact .list (List.forall_mem_map.2 fun name _ => .text name)

end Operand

/-! ## Filters -/

namespace Condition

/-- The condition with a date as a text. -/
def undated (c : Condition) : Condition := { c with operand := c.operand.map Operand.undated }

/-- A condition is read off its property, its comparator and its operand,
    wherever these stand. -/
theorem ofEntries_of_get? {c : Condition} {entries : List (String × Json)}
    (hcomparator : get? entries "comparator" = some (.text c.comparator.name))
    (hproperty : get? entries "property" = some (.text c.property))
    (hvalue : get? entries "value" = c.operand.map Operand.toJson)
    (hfinite : ∀ d, c.operand = some (.number d) → d.isFinite) :
    ofEntries entries = .ok c.undated := by
  have hread : field? entries "comparator" readComparator = .ok (some c.comparator) := by
    rw [field?, hcomparator]
    exact congrArg (fun c => Except.ok (some c)) (Comparator.ofName_name _)
  have hoperand : field? entries "value" (Json.optional Operand.ofJson) =
      .ok (c.operand.map fun x => some x.undated) := by
    rw [field?, hvalue]
    cases hx : c.operand with
    | none => rfl
    | some x =>
      rw [Option.map_some, Option.map_some]
      dsimp only
      rw [Operand.ofJson_toJson (fun d hd => hfinite d (hx.trans (congrArg some hd)))]
      rfl
  have hjoin : (c.operand.map fun x => some x.undated).join = c.operand.map Operand.undated := by
    cases c.operand <;> rfl
  rw [ofEntries, hread, hoperand, field?, hproperty]
  exact congrArg (fun x => Except.ok (Condition.mk c.property c.comparator x)) hjoin

/-- The operands of conditions that are read are stored with their kind. -/
theorem plain_of_ofEntries {entries : List (String × Json)} {c : Condition} {x : Operand}
    (hentries : ∀ entry ∈ entries, entry.2.Proper) (h : ofEntries entries = .ok c)
    (hx : c.operand = some x) : x.Plain := by
  obtain ⟨comparator, -, h⟩ := Except.bind_eq_ok.1 h
  obtain ⟨property, -, h⟩ := Except.bind_eq_ok.1 h
  obtain ⟨operand, hoperand, h⟩ := Except.bind_eq_ok.1 h
  split at h
  · exact absurd h (by simp)
  · exact absurd h (by simp)
  · cases h
    obtain rfl := Option.join_eq_some_iff.1 hx
    obtain ⟨j, hj, hread⟩ := exists_of_field? hoperand
    exact Operand.plain_of_ofJson (hentries _ hj) (read_of_optional hread)

theorem plain_of_ofFields {fields : List Json} {c : Condition} {x : Operand}
    (hfields : ∀ j ∈ fields, j.Proper) (h : ofFields fields = .ok c) (hx : c.operand = some x) :
    x.Plain := by
  unfold ofFields at h
  split at h
  · exact absurd h (by simp [tooShort])
  obtain ⟨property, -, h⟩ := Except.bind_eq_ok.1 h
  split at h
  · exact absurd h (by simp [tooShort])
  obtain ⟨comparator, -, h⟩ := Except.bind_eq_ok.1 h
  split at h
  · cases h
    exact absurd hx (by simp)
  obtain ⟨operand, hoperand, h⟩ := Except.bind_eq_ok.1 h
  split at h
  · cases h
    obtain rfl : operand = some x := hx
    exact Operand.plain_of_ofJson (hfields _ (by simp)) (read_of_optional hoperand)
  · exact absurd h (by simp [tooLong])

theorem arranged_toJson (c : Condition) : c.toJson.arranged =
    .object ([("comparator", .text c.comparator.name), ("property", .text c.property),
      ("type", .text "condition")] ++
        match c.operand with
        | none => []
        | some x => [("value", x.toJson)]) := by
  rw [toJson, arranged, arrangedEntries_eq, ofEntries_eq]
  congr 1
  cases c.operand with
  | none =>
    refine sorted_eq_of_perm (List.reverse_perm _).symm ?_
    show ["comparator", "property", "type"].Pairwise (· < ·)
    decide
  | some x =>
    rw [List.map_append, List.map_singleton, x.arranged_toJson]
    refine sorted_eq_of_perm ((List.reverse_perm _).symm.append_right _) ?_
    show ["comparator", "property", "type", "value"].Pairwise (· < ·)
    decide

theorem readable_toJson (c : Condition) {depth : Nat} : c.toJson.Readable (depth + 2) := by
  refine .object fun entry hentry => ?_
  simp only [List.mem_append, List.mem_cons, List.not_mem_nil, or_false] at hentry
  rcases hentry with (rfl | rfl | rfl) | hentry
  · exact .text _
  · exact .text _
  · exact .text _
  · cases hx : c.operand with
    | none => simp [hx] at hentry
    | some x =>
      obtain rfl : entry = ("value", x.toJson) := by simpa [hx] using hentry
      exact x.readable_toJson

theorem reread_toJson {c : Condition}
    (hc : ∀ d, c.operand = some (.number d) → (Json.Number.double d).reread = .double d) :
    c.toJson.reread = c.toJson.arranged := by
  rw [toJson, reread, arranged, rereadEntries_eq, arrangedEntries_eq]
  congr 1
  cases hx : c.operand with
  | none => rfl
  | some x =>
    have hoperand : x.toJson.reread = x.toJson.arranged :=
      x.reread_toJson fun d hd => hc d (hx.trans (congrArg some hd))
    rw [List.map_append, List.map_append, List.map_singleton, List.map_singleton, hoperand]
    rfl

end Condition

namespace Filter

mutual

/-- The filter with its dates as texts. -/
def undated : Filter → Filter
  | condition c => condition c.undated
  | group connective fs => group connective (undatedIn fs)
termination_by structural f => f

/-- The filters of a group with their dates as texts. -/
def undatedIn : List Filter → List Filter
  | [] => []
  | f :: fs => f.undated :: undatedIn fs
termination_by structural fs => fs

end

theorem undatedIn_eq (fs : List Filter) : undatedIn fs = fs.map undated := by
  induction fs with
  | nil => rw [undatedIn, List.map_nil]
  | cons f fs ih => rw [undatedIn, ih, List.map_cons]

theorem allToJson_eq (fs : List Filter) : allToJson fs = fs.map toJson := by
  induction fs with
  | nil => rw [allToJson, List.map_nil]
  | cons f fs ih => rw [allToJson, ih, List.map_cons]

theorem arranged_toJson_group (connective : Connective) (fs : List Filter) :
    (group connective fs).toJson.arranged =
      .object [("filters", .list (fs.map fun f => f.toJson.arranged)),
        ("operator", .text connective.name), ("type", .text "group")] := by
  have hfilters : (Json.list (allToJson fs)).arranged =
      .list (fs.map fun f => f.toJson.arranged) := by
    rw [allToJson_eq, arranged, arrangedItems_eq, List.map_map]
    rfl
  rw [toJson, arranged, arrangedEntries_eq, ofEntries_eq, ← hfilters]
  congr 1
  refine sorted_eq_of_perm (List.reverse_perm _).symm ?_
  show ["filters", "operator", "type"].Pairwise (· < ·)
  decide

/-- The operands of the conditions, from left to right. -/
def operands (f : Filter) : List Operand := f.conditions.filterMap Condition.operand

theorem mem_operands_condition {c : Condition} {x : Operand} :
    x ∈ (condition c).operands ↔ c.operand = some x := by
  rw [operands, conditions, List.mem_filterMap]
  simp

theorem mem_operands_group {connective : Connective} {fs : List Filter} {x : Operand} :
    x ∈ (group connective fs).operands ↔ ∃ f ∈ fs, x ∈ f.operands := by
  simp only [operands, conditions, List.mem_filterMap, mem_conditionsIn]
  constructor
  · rintro ⟨c, ⟨f, hf, hc⟩, hx⟩
    exact ⟨f, hf, c, hc, hx⟩
  · rintro ⟨f, hf, c, hc, hx⟩
    exact ⟨c, ⟨f, hf, hc⟩, hx⟩

/-! ### Reading -/

/-- A condition is read in any place. -/
theorem ofJsonAt_condition {place : Place} {entries : List (String × Json)} {c : Condition}
    (htype : get? entries "type" = some (.text "condition"))
    (h : Condition.ofEntries entries = .ok c) :
    ofJsonAt place (.object entries) = .ok (condition c) := by
  rw [ofJsonAt, htype]
  dsimp only
  rw [Kind.ofJson, if_pos rfl]
  change (Condition.ofEntries entries >>= fun c => pure (condition c)) = _
  rw [h]
  rfl

/-- A group is read off its connective and its filters. -/
theorem ofJsonAt_group {place : Place} {entries : List (String × Json)} {connective : Connective}
    {fs : List Filter} (htype : get? entries "type" = some (.text "group"))
    (hoperator : get? entries "operator" = some (.text connective.name))
    (hfilters : filtersOfEntries entries = [.ok fs]) :
    ofJsonAt place (.object entries) = .ok (group connective fs) := by
  rw [ofJsonAt, htype]
  dsimp only
  rw [Kind.ofJson, if_neg (by decide), if_pos rfl]
  change groupOf (get? entries "operator") (filtersOfEntries entries) = _
  rw [hoperator, hfilters]
  exact congrArg (fun c => Except.ok (group c fs)) (Connective.ofName_name connective)

theorem readFilters_eq (items : List Json) :
    readFilters items = readAll (ofJsonAt .inside) items := by
  induction items with
  | nil => rw [readFilters, readAll]
  | cons j items ih => rw [readFilters, readAll, ih]

/-- A filter reads back with its dates as texts, both as it is written and as
    it is read. -/
theorem ofJsonAt_toJson {f : Filter} (hf : ∀ d, .number d ∈ f.operands → d.isFinite)
    (place : Place) :
    ofJsonAt place f.toJson = .ok f.undated ∧ ofJsonAt place f.toJson.arranged = .ok f.undated := by
  induction f generalizing place with
  | condition c =>
    have hfinite (d : Double) (hd : c.operand = some (.number d)) : d.isFinite :=
      hf d (mem_operands_condition.2 hd)
    rw [toJson, c.arranged_toJson, undated]
    constructor
    · refine ofJsonAt_condition rfl (Condition.ofEntries_of_get? rfl rfl ?_ hfinite)
      cases c.operand <;> rfl
    · refine ofJsonAt_condition rfl (Condition.ofEntries_of_get? rfl rfl ?_ hfinite)
      cases c.operand <;> rfl
  | group connective fs ih =>
    have hread (f : Filter) (hmem : f ∈ fs) := ih f hmem
      (fun d hd => hf d (mem_operands_group.2 ⟨f, hmem, hd⟩)) .inside
    rw [arranged_toJson_group, toJson, allToJson_eq, undated, undatedIn_eq]
    constructor
    · refine ofJsonAt_group rfl rfl ?_
      have hfs := readAll_map fun f hf => (hread f hf).1
      simp [filtersOfEntries, filtersOf, readFilters_eq, hfs]
    · refine ofJsonAt_group rfl rfl ?_
      have hfs := readAll_map fun f hf => (hread f hf).2
      simp [filtersOfEntries, filtersOf, readFilters_eq, hfs]

theorem readable_toJson_group {depth : Nat} {connective : Connective} {fs : List Filter}
    (hfs : ∀ f ∈ fs, f.toJson.Readable depth) :
    (group connective fs).toJson.Readable (depth + 2) := by
  have hfilters : (Json.list (allToJson fs)).Readable (depth + 1) := by
    rw [allToJson_eq]
    exact .list (List.forall_mem_map.2 hfs)
  rw [toJson]
  refine .object fun entry hentry => ?_
  simp only [List.mem_cons, List.not_mem_nil, or_false] at hentry
  rcases hentry with rfl | rfl | rfl
  · exact .text _
  · exact .text _
  · exact hfilters

/-- If its numbers are read as they are, a filter is read from its text with the
    entries of its objects sorted. -/
theorem reread_toJson {f : Filter}
    (hf : ∀ d, .number d ∈ f.operands → (Json.Number.double d).reread = .double d) :
    f.toJson.reread = f.toJson.arranged := by
  induction f with
  | condition c => exact c.reread_toJson fun d hd => hf d (mem_operands_condition.2 hd)
  | group connective fs ih =>
    have hitems : fs.map (fun f => f.toJson.reread) = fs.map fun f => f.toJson.arranged :=
      List.map_congr_left fun f hmem =>
        ih f hmem fun d hd => hf d (mem_operands_group.2 ⟨f, hmem, hd⟩)
    have hfilters : (Json.list (allToJson fs)).reread = (Json.list (allToJson fs)).arranged := by
      rw [allToJson_eq, reread, arranged, rereadItems_eq, arrangedItems_eq, List.map_map,
        List.map_map]
      exact congrArg Json.list hitems
    rw [toJson, reread, arranged]
    simp only [rereadEntries, arrangedEntries, hfilters]
    rfl

/-! ### Plain filters -/

/-- The filters whose operands are stored with their kinds. -/
def Plain (f : Filter) : Prop := ∀ x ∈ f.operands, x.Plain

theorem plain_condition {c : Condition} :
    (condition c).Plain ↔ ∀ x, c.operand = some x → x.Plain := by
  simp only [Plain, mem_operands_condition]

theorem plain_group {connective : Connective} {fs : List Filter} :
    (group connective fs).Plain ↔ ∀ f ∈ fs, f.Plain := by
  simp only [Plain, mem_operands_group]
  constructor
  · intro h f hf x hx
    exact h x ⟨f, hf, hx⟩
  · rintro h x ⟨f, hf, hx⟩
    exact h f hf x hx

theorem undated_of_plain {f : Filter} (h : f.Plain) : f.undated = f := by
  induction f with
  | condition c =>
    obtain ⟨property, comparator, operand⟩ := c
    cases operand with
    | none => rw [undated, Condition.undated, Option.map_none]
    | some x =>
      have hx := Operand.undated_of_plain (h x (mem_operands_condition.2 rfl))
      rw [undated, Condition.undated, Option.map_some, hx]
  | group connective fs ih =>
    rw [plain_group] at h
    rw [undated, undatedIn_eq, List.map_congr_left fun f hf => ih f hf (h f hf), List.map_id']

/-- A group has the filters that are read for it, if there are any. -/
theorem exists_of_groupOf {operator : Option Json} {f : Filter}
    {reads : List (Except ShapeError (List Filter))} (h : groupOf operator reads = .ok f) :
    ∃ connective fs, f = group connective fs ∧ ∀ g ∈ fs, .ok fs ∈ reads := by
  obtain ⟨fs, hfs, h⟩ : ∃ fs, (∀ g ∈ fs, .ok fs ∈ reads) ∧ groupOf operator [.ok fs] = .ok f := by
    rcases reads with _ | ⟨read, _ | ⟨_, _⟩⟩
    · exact ⟨[], fun _ hg => absurd hg List.not_mem_nil, h⟩
    · cases read with
      | error fault => exact absurd h (by simp [groupOf, bind, Except.bind])
      | ok fs => exact ⟨fs, fun _ _ => List.mem_cons_self, h⟩
    · cases read <;> exact absurd h (by simp [groupOf, bind, Except.bind])
  cases operator with
  | none => exact absurd h (by simp [groupOf, bind, Except.bind])
  | some j =>
    obtain ⟨_, he, h⟩ := Except.bind_eq_ok.1 h
    cases he
    obtain ⟨connective, -, h⟩ := Except.bind_eq_ok.1 h
    cases h
    exact ⟨connective, fs, rfl, hfs⟩

theorem mem_filtersOfEntries {entries : List (String × Json)}
    {read : Except ShapeError (List Filter)} (h : read ∈ filtersOfEntries entries) :
    ∃ entry ∈ entries, filtersOf entry.2 = read := by
  induction entries with
  | nil =>
    rw [filtersOfEntries] at h
    exact absurd h List.not_mem_nil
  | cons entry entries ih =>
    obtain ⟨name, value⟩ := entry
    rw [filtersOfEntries] at h
    split at h
    · rcases List.mem_cons.1 h with rfl | h
      · exact ⟨_, List.mem_cons_self, rfl⟩
      · obtain ⟨entry, hentry, hread⟩ := ih h
        exact ⟨entry, List.mem_cons_of_mem _ hentry, hread⟩
    · obtain ⟨entry, hentry, hread⟩ := ih h
      exact ⟨entry, List.mem_cons_of_mem _ hentry, hread⟩

theorem exists_of_groupOfFields {fields : List Json} {f : Filter}
    (h : groupOfFields fields = .ok f) :
    ∃ connective fs, f = group connective fs ∧ ∀ g ∈ fs, ∃ j ∈ fields, filtersOf j = .ok fs := by
  unfold groupOfFields at h
  split at h
  · exact absurd h (by simp [tooShort])
  · obtain ⟨connective, -, h⟩ := Except.bind_eq_ok.1 h
    cases h
    exact ⟨connective, [], rfl, fun _ hg => absurd hg List.not_mem_nil⟩
  · obtain ⟨connective, -, h⟩ := Except.bind_eq_ok.1 h
    obtain ⟨fs, hfs, h⟩ := Except.bind_eq_ok.1 h
    cases h
    exact ⟨connective, fs, rfl, fun _ _ => ⟨_, by simp, hfs⟩⟩
  · obtain ⟨_, -, h⟩ := Except.bind_eq_ok.1 h
    obtain ⟨_, -, h⟩ := Except.bind_eq_ok.1 h
    exact absurd h (by simp [tooLong])

/-- The filters that are read from proper JSON have no dates, and finite numbers
    only. Filters are also read from a list that is no filter itself, the one
    that a group has them in, so the induction says the same of that. -/
theorem plain_of_ofJsonAt_and_filtersOf {j : Json} (hj : j.Proper) :
    (∀ place f, ofJsonAt place j = .ok f → f.Plain) ∧
      ∀ fs, filtersOf j = .ok fs → ∀ f ∈ fs, f.Plain := by
  induction hj with
  | @list items hitems ih =>
    constructor
    · intro place f h
      rcases items with _ | ⟨kind, fields⟩
      · rw [ofJsonAt] at h
        exact absurd h (by simp)
      rw [List.forall_mem_cons] at hitems ih
      rw [ofJsonAt] at h
      obtain ⟨k, -, h⟩ := Except.bind_eq_ok.1 h
      cases k with
      | condition =>
        obtain ⟨c, hc, h⟩ := Except.bind_eq_ok.1 h
        cases h
        exact plain_condition.2 fun x hx => Condition.plain_of_ofFields hitems.2 hc hx
      | group =>
        obtain ⟨connective, fs, rfl, hfs⟩ := exists_of_groupOfFields h
        rw [plain_group]
        intro g hg
        obtain ⟨j, hj, hread⟩ := hfs g hg
        exact (ih.2 j hj).2 fs hread g hg
    · intro fs h f hf
      rw [filtersOf, readFilters_eq] at h
      obtain ⟨j, hj, hread⟩ := exists_of_mem_readAll h hf
      exact (ih j hj).1 .inside f hread
  | @object entries _ hvalues ih =>
    constructor
    · intro place f h
      rw [ofJsonAt] at h
      split at h
      · exact absurd h (by simp)
      obtain ⟨k, -, h⟩ := Except.bind_eq_ok.1 h
      cases k with
      | condition =>
        obtain ⟨c, hc, h⟩ := Except.bind_eq_ok.1 h
        cases h
        exact plain_condition.2 fun x hx => Condition.plain_of_ofEntries hvalues hc hx
      | group =>
        obtain ⟨connective, fs, rfl, hfs⟩ := exists_of_groupOf h
        rw [plain_group]
        intro g hg
        obtain ⟨entry, hentry, hread⟩ := mem_filtersOfEntries (hfs g hg)
        exact (ih entry hentry).2 fs hread g hg
    · intro fs h
      rw [filtersOf] at h
      exact absurd h (by simp [unlike])
  | _ =>
    constructor
    · intro place f h
      rw [ofJsonAt] at h
      exact absurd h (by simp [unlike])
    · intro fs h
      rw [filtersOf] at h
      exact absurd h (by simp [unlike])

/-- Storing and reading changes nothing about a filter without dates and with
    finite numbers, and what is read from any document is such a filter. -/
theorem ofJson_toJson_and_of_ofJson :
    (∀ f : Filter, f.Plain → ofJson f.toJson = .ok f ∧ ofJson f.toJson.arranged = .ok f) ∧
      ∀ (j : Json) (f : Filter), j.Proper → ofJson j = .ok f →
        f.Plain ∧ ofJson f.toJson = .ok f ∧ ofJson f.toJson.arranged = .ok f := by
  have hplain (f : Filter) (hf : f.Plain) :
      ofJson f.toJson = .ok f ∧ ofJson f.toJson.arranged = .ok f := by
    have hread := ofJsonAt_toJson (fun d hd => hf (.number d) hd) .outside
    rwa [undated_of_plain hf] at hread
  refine ⟨hplain, ?_⟩
  intro j f hj h
  have hf := (plain_of_ofJsonAt_and_filtersOf hj).1 .outside f h
  exact ⟨hf, hplain f hf⟩

/-- A filter as it may be stored by hand: a group under the other name of its
    filters, conditions as lists, a kind by its number, names that mean nothing,
    and operands that are not needed. -/
def handwritten : Json :=
  .object [("children", .list [
      .list [.number (.integer 0), .text "status", .text "resembles", .text "2016-12-31"],
      .object [("operator", .text "nand"), ("type", .number (.integer 1))],
      .object [("comparator", .text "is_empty"), ("property", .text "title"),
        ("type", .text "condition"), ("value", .number (.integer 3))],
      .list [.text "condition", .text "title", .text "equals"]]),
    ("operator", .object [("OR", .null)]), ("type", .text "group")]

/-- What it is read as. -/
def understood : Filter :=
  group .or [condition ⟨"status", .unknown, some (.text "2016-12-31")⟩, group .unknown [],
    condition ⟨"title", .isEmpty, some (.number (.ofInt 3))⟩,
    condition ⟨"title", .equals, Option.none⟩]

theorem proper_handwritten : handwritten.Proper := by
  simp only [handwritten, proper_list_iff, proper_object_iff, proper_integer_iff,
    List.forall_mem_cons, List.not_mem_nil, false_implies, implies_true, Proper.text, Proper.null]
  decide

theorem ofJson_toJson_understood :
    (understood.Plain ∧ ofJson understood.toJson = .ok understood ∧
      ofJson understood.toJson.arranged = .ok understood) ∧
    handwritten.Proper ∧ ofJson handwritten = .ok understood ∧
      understood.Plain ∧ ofJson understood.toJson = .ok understood ∧
        ofJson understood.toJson.arranged = .ok understood := by
  have hread : ofJson handwritten = .ok understood := rfl
  have hthree : (Double.ofInt 3).isFinite := Double.isFinite_ofInt (by decide) (by decide)
  have hplain : understood.Plain := by
    simp [Plain, operands, conditions, conditionsIn, understood, Operand.Plain, hthree]
  exact ⟨⟨hplain, ofJson_toJson_and_of_ofJson.1 understood hplain⟩, proper_handwritten, hread,
    ofJson_toJson_and_of_ofJson.2 handwritten understood proper_handwritten hread⟩

end Filter

/-! ## Checked filters -/

variable {schema : Schema}

theorem Operand.resolve_undated {property : String} {t : PropertyType} {x y : Operand}
    (h : x.resolve property t = .ok y) (hy : ∀ i, y = .date i → Instant.ofText? i.zulu = some i) :
    y.undated.resolve property t = .ok y := by
  have hdate {i : Instant} (hi : Instant.ofText? i.zulu = some i) :
      (undated (.date i)).resolve property .date = .ok (.date i) := by
    rw [undated, resolve, String.toList_ofList, hi]
  rcases resolve_cases h with rfl | ⟨rfl, _, i, _, _, rfl⟩
  · cases y with
    | date i =>
      cases t with
      | date => exact hdate (hy i rfl)
      | _ => exact absurd h (by simp [resolve])
    | _ => exact h
  · exact hdate (hy i rfl)

theorem Condition.check_undated {c d : Condition} (h : c.check schema = .ok d)
    (hd : ∀ i, d.operand = some (.date i) → Instant.ofText? i.zulu = some i) :
    d.undated.check schema = .ok d := by
  obtain ⟨property, comparator, operand⟩ := c
  unfold check at h
  dsimp only at h
  split at h
  · exact absurd h (by simp)
  rename_i hknown
  split at h
  · exact absurd h (by simp)
  rename_i t ht
  split at h
  · exact absurd h (by simp)
  rename_i hallows
  split at h
  · rename_i hunary
    cases h
    simp [undated, check, hknown, ht, hallows, hunary]
  rename_i hbinary
  split at h
  · exact absurd h (by simp)
  obtain ⟨y, hy, rfl⟩ := Except.map_eq_ok.1 h
  have hresolve := Operand.resolve_undated hy fun i hi => hd i (congrArg some hi)
  simp [undated, check, hknown, ht, hallows, hbinary, hresolve, Except.map]

namespace Filter

theorem exists_of_mem_checkAll {fs gs : List Filter} {g : Filter} (h : checkAll schema fs = .ok gs)
    (hg : g ∈ gs) : ∃ f ∈ fs, f.check schema = .ok g := by
  induction fs generalizing gs with
  | nil =>
    rw [checkAll_eq_ok_nil.1 h] at hg
    exact absurd hg List.not_mem_nil
  | cons f fs ih =>
    obtain ⟨g', gs', hf, hfs, rfl⟩ := checkAll_eq_ok_cons.1 h
    rcases List.mem_cons.1 hg with rfl | hg
    · exact ⟨f, List.mem_cons_self, hf⟩
    · obtain ⟨f', hf', hcheck⟩ := ih hfs hg
      exact ⟨f', List.mem_cons_of_mem _ hf', hcheck⟩

/-- A check takes the operands from the filter, or makes dates of texts. -/
theorem mem_operands_of_check {f g : Filter} (h : f.check schema = .ok g) {y : Operand}
    (hy : y ∈ g.operands) :
    y ∈ f.operands ∨ ∃ s i, Instant.ofText? s = some i ∧ y = .date i := by
  induction f generalizing g with
  | condition c =>
    rw [check] at h
    obtain ⟨d, hd, rfl⟩ := Except.map_eq_ok.1 h
    rw [mem_operands_condition] at hy ⊢
    cases Condition.resolved_of_check hd with
    | same => exact .inl hy
    | unary _ => exact absurd hy (by simp)
    | date _ _ hi =>
      cases hy
      exact .inr ⟨_, _, hi, rfl⟩
  | group connective fs ih =>
    obtain ⟨-, gs, hgs, rfl⟩ := check_group_eq_ok.1 h
    obtain ⟨g, hg, hy⟩ := mem_operands_group.1 hy
    obtain ⟨f, hf, hcheck⟩ := exists_of_mem_checkAll hgs hg
    rw [mem_operands_group]
    exact (ih f hf hcheck hy).imp_left fun hy => ⟨f, hf, hy⟩

/-- A check restores a checked filter from the filter with its dates as texts,
    if these read back. -/
theorem check_undated {f g : Filter} (h : f.check schema = .ok g)
    (hg : ∀ i, .date i ∈ g.operands → Instant.ofText? i.zulu = some i) :
    g.undated.check schema = .ok g := by
  induction f generalizing g with
  | condition c =>
    rw [check] at h
    obtain ⟨d, hd, rfl⟩ := Except.map_eq_ok.1 h
    have hcheck := Condition.check_undated hd fun i hi => hg i (mem_operands_condition.2 hi)
    rw [undated, check, hcheck, Except.map]
  | group connective fs ih =>
    obtain ⟨hconnective, gs, hgs, rfl⟩ := check_group_eq_ok.1 h
    rw [undated, undatedIn_eq, check_group_eq_ok]
    refine ⟨hconnective, gs, checkAll_map ?_, rfl⟩
    intro g hmem
    obtain ⟨f, hf, hcheck⟩ := exists_of_mem_checkAll hgs hmem
    exact ih f hf hcheck fun i hi => hg i (mem_operands_group.2 ⟨g, hmem, hi⟩)

/-- A checked filter is restored by reading what is stored of it and checking
    that with the same schema: all of it, dates to the nanosecond. Dates that
    were in the filter before the check must not have leap seconds where clocks
    have none; those that the check makes never do. From a text, the same is read
    if it is not nested too deep and its numbers are read as they are. -/
theorem exists_ofJson_toJson_and_check {f g : Filter}
    (h : f.check schema = .ok g) (hproper : ∀ i, .date i ∈ f.operands → i.Proper)
    (hfinite : ∀ d, .number d ∈ g.operands → d.isFinite)
    (hyears : ∀ i, .date i ∈ g.operands → i.FourDigitYear) :
    ∃ e : Filter, ofJson g.toJson = .ok e ∧ ofJson g.toJson.arranged = .ok e ∧
      e.check schema = .ok g ∧ (g.toJson.Readable depthLimit →
        (∀ d, .number d ∈ g.operands → (Json.Number.double d).reread = .double d) →
        ∃ j, Document.parse .json g.toJson.toText = .ok j ∧ ofJson j = .ok e) := by
  have hread := ofJsonAt_toJson hfinite .outside
  refine ⟨g.undated, hread.1, hread.2, check_undated h ?_, ?_⟩
  · intro i hi
    refine Instant.ofText?_zulu ?_ (hyears i hi)
    rcases mem_operands_of_check h hi with hi | ⟨s, j, hj, he⟩
    · exact hproper i hi
    · cases he
      exact Instant.proper_of_ofText? hj
  · intro hreadable hsteady
    refine ⟨g.toJson.arranged, ?_, hread.2⟩
    rw [Document.parse, ofText_toText hreadable, reread_toJson hsteady]
    rfl

/-- A filter by a leap second with a fraction, written in another zone, and by
    one that is a date already; the operand of the last condition is not
    needed. -/
def aroundLeapSecond : Filter :=
  group .and [condition ⟨"date", .onOrAfter, some (.text "2015-07-01T01:59:60.25+02:00")⟩,
    group .or [
      condition ⟨"timestamp", .before, some (.date .inLeapSecond)⟩,
      condition ⟨"number", .greaterThan, some (.number (.ofInt 3))⟩],
    condition ⟨"status", .isEmpty, some (.text "open")⟩]

/-- What a check makes of it. -/
def resolvedLeapSecond : Filter :=
  group .and [
    condition ⟨"date", .onOrAfter, some (.date .inLeapSecond)⟩,
    group .or [
      condition ⟨"timestamp", .before, some (.date .inLeapSecond)⟩,
      condition ⟨"number", .greaterThan, some (.number (.ofInt 3))⟩],
    condition ⟨"status", .isEmpty, Option.none⟩]

theorem exists_ofJson_toJson_resolvedLeapSecond :
    aroundLeapSecond.check .stock = .ok resolvedLeapSecond ∧
    (∀ i, .date i ∈ aroundLeapSecond.operands → i.Proper) ∧
    (∀ d, .number d ∈ resolvedLeapSecond.operands → d.isFinite) ∧
    (∀ i, .date i ∈ resolvedLeapSecond.operands → i.FourDigitYear) ∧
    resolvedLeapSecond.toJson.Readable depthLimit ∧
    (∀ d, .number d ∈ resolvedLeapSecond.operands → (Json.Number.double d).reread = .double d) ∧
    ∃ e : Filter, ofJson resolvedLeapSecond.toJson = .ok e ∧
      ofJson resolvedLeapSecond.toJson.arranged = .ok e ∧
      e.check .stock = .ok resolvedLeapSecond ∧
      ∃ j, Document.parse .json resolvedLeapSecond.toJson.toText = .ok j ∧ ofJson j = .ok e := by
  have hcheck : aroundLeapSecond.check .stock = .ok resolvedLeapSecond := rfl
  have hproper : ∀ i, .date i ∈ aroundLeapSecond.operands → i.Proper := by
    intro i hi
    obtain rfl : i = .inLeapSecond := by
      simpa [operands, conditions, conditionsIn, aroundLeapSecond] using hi
    exact fun _ => rfl
  have hthree : (Double.ofInt 3).isFinite := Double.isFinite_ofInt (by decide) (by decide)
  have hfinite : ∀ d, .number d ∈ resolvedLeapSecond.operands → d.isFinite := by
    simp [operands, conditions, conditionsIn, resolvedLeapSecond, hthree]
  have hyear : Instant.inLeapSecond.FourDigitYear := by decide
  have hyears : ∀ i, .date i ∈ resolvedLeapSecond.operands → i.FourDigitYear := by
    simp [operands, conditions, conditionsIn, resolvedLeapSecond, hyear]
  have hreread : (Json.Number.double (.ofInt 3)).reread = .double (.ofInt 3) := by
    decide +kernel
  have hsteady : ∀ d, .number d ∈ resolvedLeapSecond.operands →
      (Json.Number.double d).reread = .double d := by
    simp [operands, conditions, conditionsIn, resolvedLeapSecond, hreread]
  have hreadable : resolvedLeapSecond.toJson.Readable depthLimit := by
    refine readable_toJson_group (List.forall_mem_cons.2 ⟨Condition.readable_toJson _, ?_⟩)
    refine List.forall_mem_cons.2 ⟨readable_toJson_group ?_,
      List.forall_mem_singleton.2 (Condition.readable_toJson _)⟩
    exact List.forall_mem_cons.2 ⟨Condition.readable_toJson _,
      List.forall_mem_singleton.2 (Condition.readable_toJson _)⟩
  obtain ⟨e, he, harranged, hchecked, htext⟩ :=
    exists_ofJson_toJson_and_check hcheck hproper hfinite hyears
  exact ⟨hcheck, hproper, hfinite, hyears, hreadable, hsteady, e, he, harranged, hchecked,
    htext hreadable hsteady⟩

/-- A filter by a date. -/
def byDate (i : Instant) : Filter := condition ⟨"date", .before, some (.date i)⟩

/-- A filter by a number. -/
def byNumber (d : Double) : Filter := condition ⟨"number", .equals, some (.number d)⟩

theorem mem_operands_byDate {i : Instant} {x : Operand} :
    x ∈ (byDate i).operands ↔ .date i = x := by
  rw [byDate, mem_operands_condition, Option.some.injEq]

theorem mem_operands_byNumber {d : Double} {x : Operand} :
    x ∈ (byNumber d).operands ↔ .number d = x := by
  rw [byNumber, mem_operands_condition, Option.some.injEq]

/-- A filter by a leap second where clocks have none is restored as a filter by the
    instant that is written in the same way. -/
theorem check_undated_byDate : (byDate .misplacedLeapSecond).undated.check .stock =
    .ok (byDate .afterMisplaced) := by
  have hundated : (byDate .misplacedLeapSecond).undated = (byDate .afterMisplaced).undated := by
    simp only [byDate, undated, Condition.undated, Option.map_some, Operand.undated,
      Instant.zulu_misplacedLeapSecond]
  rw [hundated]
  refine check_undated (f := byDate .afterMisplaced) rfl fun i hi => ?_
  cases mem_operands_byDate.1 hi
  exact Instant.ofText?_zulu (Instant.proper_of_lt (by decide)) (by decide)

/-- A number with seventeen digits that are read as the next greater double. -/
def unsteady : Double := ⟨false, 4632409357216853856, by decide⟩

/-- That double. -/
def afterUnsteady : Double := ⟨false, 4632409357216853857, by decide⟩

/-- A filter by that number is read from its text as a filter by the other one. -/
theorem ofText_byNumber : Json.ofText (byNumber unsteady).toJson.toText =
    .ok (byNumber afterUnsteady).toJson.arranged := by
  have hreread : (Json.Number.double unsteady).reread = .double afterUnsteady := by
    decide +kernel
  have hreadable : (byNumber unsteady).toJson.Readable depthLimit := Condition.readable_toJson _
  rw [ofText_toText hreadable, byNumber, toJson, Condition.toJson, reread]
  show Except.ok (Json.ofEntries [("type", .text "condition"), ("property", .text "number"),
    ("comparator", .text "equals"), ("value", .number (Json.Number.double unsteady).reread)]) = _
  rw [hreread]
  rfl

/-- Not every checked filter is restored: not one by a leap second where clocks have
    none, and, if it is stored as a text, not one by a number whose digits are read as
    a neighbour. -/
theorem not_exists_ofJson_toJson_and_check :
    (¬∀ (schema : Schema) (f g : Filter), f.check schema = .ok g →
      (∀ d, .number d ∈ g.operands → d.isFinite) →
      (∀ i, .date i ∈ g.operands → i.FourDigitYear) →
      ∃ e : Filter, ofJson g.toJson = .ok e ∧ e.check schema = .ok g) ∧
    ¬∀ (schema : Schema) (f g : Filter), f.check schema = .ok g →
      (∀ d, .number d ∈ g.operands → d.isFinite) →
      (∀ i, .date i ∈ g.operands → i.FourDigitYear) →
      ∃ (j : Json) (e : Filter), Document.parse .json g.toJson.toText = .ok j ∧
        ofJson j = .ok e ∧ e.check schema = .ok g := by
  constructor
  · intro h
    have hfinite : ∀ d, .number d ∈ (byDate .misplacedLeapSecond).operands → d.isFinite :=
      fun d hd => Operand.noConfusion (mem_operands_byDate.1 hd)
    have hyears : ∀ i, .date i ∈ (byDate .misplacedLeapSecond).operands → i.FourDigitYear := by
      intro i hi
      cases mem_operands_byDate.1 hi
      decide
    obtain ⟨e, he, hcheck⟩ :=
      h .stock (byDate .misplacedLeapSecond) (byDate .misplacedLeapSecond) rfl hfinite hyears
    rw [ofJson, (ofJsonAt_toJson hfinite .outside).1] at he
    cases he
    rw [check_undated_byDate] at hcheck
    cases hcheck
  · intro h
    have hfinite (d : Double) (hd : d.isFinite) :
        ∀ d', .number d' ∈ (byNumber d).operands → d'.isFinite := by
      intro d' hd'
      cases mem_operands_byNumber.1 hd'
      exact hd
    have hyears : ∀ i, .date i ∈ (byNumber unsteady).operands → i.FourDigitYear :=
      fun i hi => Operand.noConfusion (mem_operands_byNumber.1 hi)
    obtain ⟨j, e, hj, he, hcheck⟩ :=
      h .stock (byNumber unsteady) (byNumber unsteady) rfl (hfinite unsteady rfl) hyears
    rw [Document.parse, ofText_byNumber] at hj
    cases hj
    rw [ofJson, (ofJsonAt_toJson (hfinite afterUnsteady rfl) .outside).2] at he
    cases he
    cases hcheck

end Filter

end Sift
