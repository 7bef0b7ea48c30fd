import Sift.Proofs.Results
import Sift.Proofs.Selection.Checked
import Sift.Proofs.Tally.Counted

/-!
# The stages of a run

What a command line asks for decides which stages a run goes through. The first
one that fails decides what the run leaves, and where none does, it leaves what
was asked for, with an exit code that says whether something was found.

* `Command.Names`, `Command.Loads`, `Command.Asks`, `Command.Uses`: what the
  stages give: the schema that is named, the records and their schema, and the
  filter before and after its check;
* `Command.Fails`: how a stage fails, and with which line;
* `Arguments.stages`, `Command.FailsFirst`: the stages of a run, and the first
  one that fails;
* `Command.Leaves`: what a run leaves when all its stages succeed;
* `Command.perform_eq_error_iff`, `Command.perform_eq_ok_iff`: that these are
  the outcomes of a request;
* `Command.run_eq_run_of_same`: lists of comparators and of values do not depend
  on filters;
* `Command.exit_run_and_run_eq`: the exit codes of a run.
-/

namespace Sift.Command

/-- A stage of a run. -/
inductive Stage where
  | schema
  | records
  | filter
  | check

/-- The stages of a run, in order: lists of comparators and of values do without
    a filter, and comparators without records do with the schema. -/
def Arguments.stages (a : Arguments) : List Stage :=
  if (a.get? .comparators).isSome ∧ a.get? .records = .none then [.schema]
  else if (a.get? .comparators).isSome ∨ (a.get? .values).isSome then [.schema, .records]
  else if a.has .lenient then [.schema, .records, .filter]
  else [.schema, .records, .filter, .check]

variable {sources : Sources} {a : Arguments}

/-! ## What the stages give -/

section Stages

variable (sources) (a)

/-- The schema that a command line names, if it names one. -/
inductive Names : Option Schema → Prop
  | stock : a.get? .schema = none → Names none
  | document {path : String} {schema : Schema} : a.get? .schema = some path →
      (readDocument sources false path).bind Document.schema = .ok schema → Names (some schema)

/-- The records that a run loads and their schema. -/
inductive Loads : List Record → Schema → Prop
  | document {named : Option Schema} {path : String} {j : Json} {rs : List Record}
      {schema : Schema} : Names sources a named → a.get? .records = some path →
      readDocument sources (exhausted a [.schema]) path = .ok j →
      Document.records a.layout named j = .ok (rs, schema) → Loads rs schema

/-- The filter that a command line asks for; without any, it keeps all records. -/
inductive Asks : Filter → Prop
  | document {path : String} {f : Filter} : a.get? .filter = some path →
      (readDocument sources (exhausted a [.schema, .records]) path).bind Document.filter = .ok f →
      Asks f
  | query {text : String} {f : Filter} : a.get? .filter = none → a.query = some text →
      Document.query text = .ok f → Asks f
  | all : a.get? .filter = none → a.query = none → Asks .none

/-- The filter that a run uses: the one that is asked for, as the check leaves
    it. -/
inductive Uses (schema : Schema) : Filter → Prop
  | lenient {f : Filter} : a.has .lenient = true → Asks sources a f → Uses schema f
  | checked {f g : Filter} : a.has .lenient = false → Asks sources a f →
      Document.checked schema f = .ok g → Uses schema g

/-- How a stage fails, after those before it have succeeded, and the line about
    it. -/
inductive Fails : Stage → String → Prop
  | schema {path : String} {e : Error} : a.get? .schema = some path →
      (readDocument sources false path).bind Document.schema = .error e →
      Fails .schema ("Error: " ++ about "Failed to load schema" path e)
  | noRecords : a.get? .records = none →
      Fails .records "Error: No records specified. Use --records or set ROWQ_RECORDS"
  | unreadRecords {path : String} {e : Error} : a.get? .records = some path →
      readDocument sources (exhausted a [.schema]) path = .error e →
      Fails .records ("Error: " ++ about "Failed to read records" path e)
  | wrongRecords {named : Option Schema} {path : String} {j : Json} {e : Error} :
      Names sources a named → a.get? .records = some path →
      readDocument sources (exhausted a [.schema]) path = .ok j →
      Document.records a.layout named j = .error e →
      Fails .records ("Error: " ++ about "Failed to decode records" path e)
  | filter {path : String} {e : Error} : a.get? .filter = some path →
      (readDocument sources (exhausted a [.schema, .records]) path).bind Document.filter =
        .error e →
      Fails .filter ("Filter error: " ++ about "Failed to load filter" path e)
  | query {text : String} {e : Error} : a.get? .filter = none → a.query = some text →
      Document.query text = .error e → Fails .filter ("Filter error: " ++ e.chain)
  | check {rs : List Record} {schema : Schema} {f : Filter} {e : Error} :
      Loads sources a rs schema → Asks sources a f → Document.checked schema f = .error e →
      Fails .check ("Filter error: " ++ e.message)

/-- Among stages in order, the first one that fails, and its line. -/
inductive FailsFirst : List Stage → String → Prop
  | here {stage : Stage} {more : List Stage} {line : String} : Fails sources a stage line →
      FailsFirst (stage :: more) line
  | later {stage : Stage} {more : List Stage} {line : String} :
      (∀ line, ¬Fails sources a stage line) → FailsFirst more line →
      FailsFirst (stage :: more) line

/-- What a run leaves when all its stages succeed. -/
inductive Leaves : Outcome → Prop
  | comparators {named : Option Schema} {property : String} :
      a.get? .comparators = some property → a.get? .records = none → Names sources a named →
      Leaves (listComparators (named.getD .stock) property)
  | comparatorsOfRecords {rs : List Record} {schema : Schema} {property : String} :
      a.get? .comparators = some property → Loads sources a rs schema →
      Leaves (listComparators schema property)
  | values {rs : List Record} {schema : Schema} {property : String} :
      a.get? .comparators = none → a.get? .values = some property → Loads sources a rs schema →
      Leaves (listValues rs property (a.has .count))
  | records {rs : List Record} {schema : Schema} {f : Filter} : a.get? .comparators = none →
      a.get? .values = none → Loads sources a rs schema → Uses sources a schema f →
      Leaves (listRecords (f.select a.dateEquality rs) a.output)

end Stages

/-! ## Stages one by one -/

theorem schemaStage_eq_ok_iff {named : Option Schema} :
    schemaStage sources a = .ok named ↔ Names sources a named := by
  constructor
  · intro h
    rw [schemaStage] at h
    split at h
    · rename_i hpath
      exact Except.ok.inj h ▸ .stock hpath
    · rename_i hpath
      split at h
      · rename_i hschema
        exact Except.ok.inj h ▸ .document hpath hschema
      · cases h
  · rintro (hpath | ⟨hpath, hschema⟩)
    · simp only [schemaStage, hpath]
    · simp only [schemaStage, hpath, hschema]

theorem schemaStage_eq_error_iff {line : String} :
    schemaStage sources a = .error line ↔ Fails sources a .schema line := by
  constructor
  · intro h
    rw [schemaStage] at h
    split at h
    · cases h
    · rename_i hpath
      split at h
      · cases h
      · rename_i hschema
        exact Except.error.inj h ▸ .schema hpath hschema
  · rintro ⟨hpath, hschema⟩
    simp only [schemaStage, hpath, hschema]

/-- A run names one schema at most. -/
theorem Names.eq {named named' : Option Schema} (h : Names sources a named)
    (h' : Names sources a named') : named = named' :=
  Except.ok.inj ((schemaStage_eq_ok_iff.2 h).symm.trans (schemaStage_eq_ok_iff.2 h'))

theorem recordsStage_eq_ok_iff {named : Option Schema} (hnamed : Names sources a named)
    {rs : List Record} {schema : Schema} :
    recordsStage sources a named = .ok (rs, schema) ↔ Loads sources a rs schema := by
  constructor
  · intro h
    rw [recordsStage] at h
    split at h
    · cases h
    · rename_i hpath
      split at h
      · cases h
      · rename_i hread
        split at h
        · cases h
        · rename_i hload
          exact .document hnamed hpath hread (Except.ok.inj h ▸ hload)
  · rintro ⟨hnamed', hpath, hread, hload⟩
    obtain rfl := hnamed.eq hnamed'
    simp only [recordsStage, hpath, hread, hload]

theorem recordsStage_eq_error_iff {named : Option Schema} (hnamed : Names sources a named)
    {line : String} : recordsStage sources a named = .error line ↔
      Fails sources a .records line := by
  constructor
  · intro h
    rw [recordsStage] at h
    split at h
    · rename_i hpath
      exact Except.error.inj h ▸ .noRecords hpath
    · rename_i hpath
      split at h
      · rename_i hread
        exact Except.error.inj h ▸ .unreadRecords hpath hread
      · rename_i hread
        split at h
        · rename_i hload
          exact Except.error.inj h ▸ .wrongRecords hnamed hpath hread hload
        · cases h
  · intro h
    cases h with
    | noRecords hpath => simp only [recordsStage, hpath]
    | unreadRecords hpath hread => simp only [recordsStage, hpath, hread]
    | wrongRecords hnamed' hpath hread hload =>
      obtain rfl := hnamed.eq hnamed'
      simp only [recordsStage, hpath, hread, hload]

theorem filterStage_eq_ok_iff {f : Filter} :
    filterStage sources a = .ok f ↔ Asks sources a f := by
  constructor
  · intro h
    rw [filterStage] at h
    split at h
    · rename_i hpath
      split at h
      · rename_i hfilter
        exact Except.ok.inj h ▸ .document hpath hfilter
      · cases h
    · rename_i hpath hquery
      split at h
      · rename_i hparse
        exact Except.ok.inj h ▸ .query hpath hquery hparse
      · cases h
    · rename_i hpath hquery
      exact Except.ok.inj h ▸ .all hpath hquery
  · rintro (⟨hpath, hfilter⟩ | ⟨hpath, hquery, hparse⟩ | ⟨hpath, hquery⟩)
    · simp only [filterStage, hpath, hfilter]
    · simp only [filterStage, hpath, hquery, hparse]
    · simp only [filterStage, hpath, hquery]

theorem filterStage_eq_error_iff {line : String} :
    filterStage sources a = .error line ↔ Fails sources a .filter line := by
  constructor
  · intro h
    rw [filterStage] at h
    split at h
    · rename_i hpath
      split at h
      · cases h
      · rename_i hfilter
        exact Except.error.inj h ▸ .filter hpath hfilter
    · rename_i hpath hquery
      split at h
      · cases h
      · rename_i hparse
        exact Except.error.inj h ▸ .query hpath hquery hparse
    · cases h
  · intro h
    cases h with
    | filter hpath hfilter => simp only [filterStage, hpath, hfilter]
    | query hpath hquery hparse => simp only [filterStage, hpath, hquery, hparse]

/-- A run loads one list of records at most. -/
theorem Loads.eq {rs rs' : List Record} {schema schema' : Schema} (h : Loads sources a rs schema)
    (h' : Loads sources a rs' schema') : rs = rs' ∧ schema = schema' := by
  obtain ⟨hnamed, _, _, _⟩ := id h
  have heq := Except.ok.inj (((recordsStage_eq_ok_iff hnamed).2 h).symm.trans
    ((recordsStage_eq_ok_iff hnamed).2 h'))
  exact Prod.mk.inj heq

/-- A command line asks for one filter at most. -/
theorem Asks.eq {f g : Filter} (hf : Asks sources a f) (hg : Asks sources a g) : f = g :=
  Except.ok.inj ((filterStage_eq_ok_iff.2 hf).symm.trans (filterStage_eq_ok_iff.2 hg))

theorem checkStage_eq_error_iff {rs : List Record} {schema : Schema} {f : Filter}
    (hloads : Loads sources a rs schema) (hasks : Asks sources a f)
    (hlenient : a.has .lenient = false) {line : String} :
    checkStage a schema f = .error line ↔ Fails sources a .check line := by
  constructor
  · intro h
    rw [checkStage, hlenient, if_neg Bool.false_ne_true] at h
    split at h
    · cases h
    · rename_i hcheck
      exact Except.error.inj h ▸ .check hloads hasks hcheck
  · intro h
    cases h with
    | check hloads' hasks' hcheck =>
      obtain ⟨rfl, rfl⟩ := hloads.eq hloads'
      obtain rfl := hasks.eq hasks'
      simp only [checkStage, hlenient, Bool.false_eq_true, if_false, hcheck]

theorem checkStage_eq_ok_iff {schema : Schema} {f g : Filter} (hasks : Asks sources a f) :
    checkStage a schema f = .ok g ↔ Uses sources a schema g := by
  cases hlenient : a.has .lenient with
  | true =>
    rw [checkStage, hlenient, if_pos rfl]
    constructor
    · intro h
      exact Except.ok.inj h ▸ .lenient hlenient hasks
    · intro h
      cases h with
      | lenient _ hasks' => rw [hasks.eq hasks']
      | checked hstrict => exact absurd (hlenient.symm.trans hstrict) (by decide)
  | false =>
    rw [checkStage, hlenient, if_neg Bool.false_ne_true]
    constructor
    · intro h
      split at h
      · rename_i hcheck
        exact Except.ok.inj h ▸ .checked hlenient hasks hcheck
      · cases h
    · intro h
      cases h with
      | lenient hstrict => exact absurd (hlenient.symm.trans hstrict) (by decide)
      | checked _ hasks' hcheck =>
        obtain rfl := hasks.eq hasks'
        simp only [hcheck]

/-! ## All stages -/

/-- One more stage in front: a step that fails as the stage does, and then what
    fails as the other stages do. -/
theorem bind_eq_error_iff_failsFirst {α β : Type} {x : Except String α}
    {f : α → Except String β} {stage : Stage} {more : List Stage} {line : String}
    (hstage : ∀ line, x = .error line ↔ Fails sources a stage line)
    (hmore : ∀ v, x = .ok v → (f v = .error line ↔ FailsFirst sources a more line)) :
    x >>= f = .error line ↔ FailsFirst sources a (stage :: more) line := by
  cases x with
  | error e =>
    have hfails : Fails sources a stage e := (hstage e).1 rfl
    constructor
    · intro h
      obtain rfl : e = line := Except.error.inj h
      exact .here hfails
    · rintro (h | ⟨hnone, _⟩)
      · exact congrArg _ (Except.error.inj ((hstage line).2 h))
      · exact absurd hfails (hnone e)
  | ok v =>
    have hnone : ∀ line, ¬Fails sources a stage line := fun line h => by
      cases (hstage line).2 h
    refine (hmore v rfl).trans ⟨.later hnone, ?_⟩
    rintro (h | ⟨_, h⟩)
    · exact absurd h (hnone line)
    · exact h

theorem pure_eq_error_iff_failsFirst {β : Type} {v : β} {line : String} :
    (pure v : Except String β) = .error line ↔ FailsFirst sources a [] line :=
  iff_of_false nofun nofun

section Loading

variable {β : Type} {f : List Record × Schema → Except String β}

theorem load_eq_error_iff {more : List Stage} {line : String}
    (hmore : ∀ rs schema, Loads sources a rs schema →
      (f (rs, schema) = .error line ↔ FailsFirst sources a more line)) :
    (schemaStage sources a >>= fun named => recordsStage sources a named >>= f) = .error line ↔
      FailsFirst sources a (.schema :: .records :: more) line :=
  bind_eq_error_iff_failsFirst (fun _ => schemaStage_eq_error_iff) fun _ hschema =>
    have hnamed := schemaStage_eq_ok_iff.1 hschema
    bind_eq_error_iff_failsFirst (fun _ => recordsStage_eq_error_iff hnamed)
      fun loaded hrecords => hmore loaded.1 loaded.2 ((recordsStage_eq_ok_iff hnamed).1 hrecords)

theorem load_eq_ok_iff {v : β} :
    (schemaStage sources a >>= fun named => recordsStage sources a named >>= f) = .ok v ↔
      ∃ rs schema, Loads sources a rs schema ∧ f (rs, schema) = .ok v := by
  constructor
  · intro h
    obtain ⟨named, hschema, h⟩ := Except.bind_eq_ok.1 h
    obtain ⟨⟨rs, schema⟩, hrecords, h⟩ := Except.bind_eq_ok.1 h
    have hnamed := schemaStage_eq_ok_iff.1 hschema
    exact ⟨rs, schema, (recordsStage_eq_ok_iff hnamed).1 hrecords, h⟩
  · rintro ⟨rs, schema, hloads, h⟩
    obtain ⟨hnamed, _, _, _⟩ := id hloads
    exact Except.bind_eq_ok.2 ⟨_, schemaStage_eq_ok_iff.2 hnamed,
      Except.bind_eq_ok.2 ⟨_, (recordsStage_eq_ok_iff hnamed).2 hloads, h⟩⟩

end Loading

/-! What a request amounts to, by what it asks for. -/

theorem perform_comparators {property : String} (hcomparators : a.get? .comparators = some property)
    (hrecords : a.get? .records = none) : perform sources a =
      schemaStage sources a >>= fun named =>
        pure (listComparators (named.getD .stock) property) := by
  simp only [perform, hcomparators, hrecords]

theorem perform_comparatorsOfRecords {property path : String}
    (hcomparators : a.get? .comparators = some property)
    (hrecords : a.get? .records = some path) : perform sources a =
      schemaStage sources a >>= fun named => recordsStage sources a named >>= fun loaded =>
        pure (listComparators loaded.2 property) := by
  simp only [perform, hcomparators, hrecords]

theorem perform_values {property : String} (hcomparators : a.get? .comparators = none)
    (hvalues : a.get? .values = some property) : perform sources a =
      schemaStage sources a >>= fun named => recordsStage sources a named >>= fun loaded =>
        pure (listValues loaded.1 property (a.has .count)) := by
  simp only [perform, hcomparators, hvalues]

theorem perform_records (hcomparators : a.get? .comparators = none)
    (hvalues : a.get? .values = none) : perform sources a =
      schemaStage sources a >>= fun named => recordsStage sources a named >>= fun loaded =>
        filterStage sources a >>= fun f => checkStage a loaded.2 f >>= fun g =>
          pure (listRecords (g.select a.dateEquality loaded.1) a.output) := by
  simp only [perform, hcomparators, hvalues]

/-- A request fails as the first one of its stages that fails. -/
theorem perform_eq_error_iff {line : String} :
    perform sources a = .error line ↔ FailsFirst sources a a.stages line := by
  cases hcomparators : a.get? .comparators with
  | some property =>
    cases hrecords : a.get? .records with
    | none =>
      have hstages : a.stages = [.schema] := by
        simp [Arguments.stages, hcomparators, hrecords]
      rw [perform_comparators hcomparators hrecords, hstages]
      exact bind_eq_error_iff_failsFirst (fun _ => schemaStage_eq_error_iff)
        fun _ _ => pure_eq_error_iff_failsFirst
    | some path =>
      have hstages : a.stages = [.schema, .records] := by
        simp [Arguments.stages, hcomparators, hrecords]
      rw [perform_comparatorsOfRecords hcomparators hrecords, hstages]
      exact load_eq_error_iff fun _ _ _ => pure_eq_error_iff_failsFirst
  | none =>
    cases hvalues : a.get? .values with
    | some property =>
      have hstages : a.stages = [.schema, .records] := by
        simp [Arguments.stages, hcomparators, hvalues]
      rw [perform_values hcomparators hvalues, hstages]
      exact load_eq_error_iff fun _ _ _ => pure_eq_error_iff_failsFirst
    | none =>
      rw [perform_records hcomparators hvalues]
      cases hlenient : a.has .lenient with
      | true =>
        have hstages : a.stages = [.schema, .records, .filter] := by
          simp [Arguments.stages, hcomparators, hvalues, hlenient]
        rw [hstages]
        refine load_eq_error_iff fun rs schema _ =>
          bind_eq_error_iff_failsFirst (fun _ => filterStage_eq_error_iff) fun f _ => ?_
        rw [checkStage, hlenient, if_pos rfl]
        exact pure_eq_error_iff_failsFirst
      | false =>
        have hstages : a.stages = [.schema, .records, .filter, .check] := by
          simp [Arguments.stages, hcomparators, hvalues, hlenient]
        rw [hstages]
        exact load_eq_error_iff fun rs schema hloads =>
          bind_eq_error_iff_failsFirst (fun _ => filterStage_eq_error_iff) fun f hfilter =>
            bind_eq_error_iff_failsFirst (fun _ => checkStage_eq_error_iff hloads
              (filterStage_eq_ok_iff.1 hfilter) hlenient) fun _ _ => pure_eq_error_iff_failsFirst

/-- A request without a stage that fails leaves what was asked for. -/
theorem perform_eq_ok_iff {outcome : Outcome} :
    perform sources a = .ok outcome ↔ Leaves sources a outcome := by
  constructor
  · intro h
    cases hcomparators : a.get? .comparators with
    | some property =>
      cases hrecords : a.get? .records with
      | none =>
        rw [perform_comparators hcomparators hrecords] at h
        obtain ⟨named, hschema, h⟩ := Except.bind_eq_ok.1 h
        exact Except.ok.inj h ▸
          .comparators hcomparators hrecords (schemaStage_eq_ok_iff.1 hschema)
      | some path =>
        rw [perform_comparatorsOfRecords hcomparators hrecords] at h
        obtain ⟨rs, schema, hloads, h⟩ := load_eq_ok_iff.1 h
        exact Except.ok.inj h ▸ .comparatorsOfRecords hcomparators hloads
    | none =>
      cases hvalues : a.get? .values with
      | some property =>
        rw [perform_values hcomparators hvalues] at h
        obtain ⟨rs, schema, hloads, h⟩ := load_eq_ok_iff.1 h
        exact Except.ok.inj h ▸ .values hcomparators hvalues hloads
      | none =>
        rw [perform_records hcomparators hvalues] at h
        obtain ⟨rs, schema, hloads, h⟩ := load_eq_ok_iff.1 h
        obtain ⟨f, hfilter, h⟩ := Except.bind_eq_ok.1 h
        obtain ⟨g, hcheck, h⟩ := Except.bind_eq_ok.1 h
        exact Except.ok.inj h ▸ .records hcomparators hvalues hloads
          ((checkStage_eq_ok_iff (filterStage_eq_ok_iff.1 hfilter)).1 hcheck)
  · intro h
    cases h with
    | comparators hcomparators hrecords hnamed =>
      rw [perform_comparators hcomparators hrecords]
      exact Except.bind_eq_ok.2 ⟨_, schemaStage_eq_ok_iff.2 hnamed, rfl⟩
    | comparatorsOfRecords hcomparators hloads =>
      obtain ⟨_, hrecords, _, _⟩ := id hloads
      rw [perform_comparatorsOfRecords hcomparators hrecords]
      exact load_eq_ok_iff.2 ⟨_, _, hloads, rfl⟩
    | values hcomparators hvalues hloads =>
      rw [perform_values hcomparators hvalues]
      exact load_eq_ok_iff.2 ⟨_, _, hloads, rfl⟩
    | records hcomparators hvalues hloads huses =>
      rw [perform_records hcomparators hvalues]
      refine load_eq_ok_iff.2 ⟨_, _, hloads, ?_⟩
      obtain ⟨f, hasks⟩ : ∃ f, Asks sources a f := by
        cases huses with
        | lenient _ hasks => exact ⟨_, hasks⟩
        | checked _ hasks _ => exact ⟨_, hasks⟩
      exact Except.bind_eq_ok.2 ⟨f, filterStage_eq_ok_iff.2 hasks,
        Except.bind_eq_ok.2 ⟨_, (checkStage_eq_ok_iff hasks).2 huses, rfl⟩⟩

/-! ## Outcomes -/

theorem listValues_eq {rs : List Record} {property : String} {counted : Bool} :
    listValues rs property counted =
      ⟨if tally rs property = [] then 1 else 0, (listValues rs property counted).output, ""⟩ := by
  rw [listValues]
  cases tally rs property <;> rfl

theorem listRecords_eq {rs : List Record} {output : Output} :
    listRecords rs output = ⟨if rs = [] then 1 else 0, (listRecords rs output).output, ""⟩ := by
  cases rs <;> rfl

theorem output_listRecords_ids {rs : List Record} :
    (listRecords rs .ids).output = String.join (rs.map fun r => r.id ++ "\n") := by
  rw [listRecords]
  split <;> simp only [Outcome.success, Outcome.nothing, List.map_map] <;> rfl

/-- How a run ends when all its stages succeed, by what it was asked for. -/
structure Succeeds (sources : Sources) (a : Arguments) (outcome : Outcome) : Prop where
  exit_ne_two : outcome.exit ≠ 2
  errors : outcome.errors = ""
  comparators : (a.get? .comparators).isSome → outcome.exit = 0
  values : a.get? .comparators = none → ∀ property, a.get? .values = some property →
    ∃ rs schema, Loads sources a rs schema ∧
      ((∃ r ∈ rs, (r.value property).Counted) → outcome.exit = 0) ∧
      ((¬∃ r ∈ rs, (r.value property).Counted) → outcome.exit = 1)
  records : a.get? .comparators = none → a.get? .values = none →
    ∃ rs schema f, Loads sources a rs schema ∧ Uses sources a schema f ∧
      (f.select a.dateEquality rs ≠ [] → outcome.exit = 0) ∧
      (f.select a.dateEquality rs = [] → outcome.exit = 1) ∧
      (a.output = .ids → outcome.output =
        String.join ((f.select a.dateEquality rs).map fun r => r.id ++ "\n"))

/-- A list with something in it has another exit code than one without, and
    neither has that of a failure. -/
theorem ite_ne_two (p : Prop) [Decidable p] : (if p then 1 else 0 : UInt8) ≠ 2 := by
  split <;> decide

theorem Leaves.succeeds {outcome : Outcome} (h : Leaves sources a outcome) :
    Succeeds sources a outcome := by
  cases h with
  | comparators hcomparators | comparatorsOfRecords hcomparators =>
    exact {
      exit_ne_two := (by decide : (0 : UInt8) ≠ 2)
      errors := rfl
      comparators := fun _ => rfl
      values := fun hnone => nomatch hnone.symm.trans hcomparators
      records := fun hnone => nomatch hnone.symm.trans hcomparators }
  | @values rs schema property hcomparators hvalues hloads =>
    rw [listValues_eq]
    exact {
      exit_ne_two := ite_ne_two _
      errors := rfl
      comparators := fun hsome => by rw [hcomparators] at hsome; cases hsome
      values := fun _ property' hvalues' => by
        obtain rfl : property = property' := Option.some.inj (hvalues.symm.trans hvalues')
        refine ⟨rs, schema, hloads, fun ⟨r, hr, hcounted⟩ => if_neg fun hnil => ?_,
          fun hnone => if_pos (tally_eq_nil_iff.2 fun r hr hcounted => hnone ⟨r, hr, hcounted⟩)⟩
        exact tally_eq_nil_iff.1 hnil r hr hcounted
      records := fun _ hnone => nomatch hnone.symm.trans hvalues }
  | @records rs schema f hcomparators hvalues hloads huses =>
    rw [listRecords_eq]
    exact {
      exit_ne_two := ite_ne_two _
      errors := rfl
      comparators := fun hsome => by rw [hcomparators] at hsome; cases hsome
      values := fun _ _ hsome => nomatch hvalues.symm.trans hsome
      records := fun _ _ => ⟨rs, schema, f, hloads, huses, fun hne => if_neg hne,
        fun hnil => if_pos hnil, fun hids => by rw [hids]; exact output_listRecords_ids⟩ }

/-! ## What lists do not depend on -/

/-- Two requests, each with what it can read, that differ in nothing that a list
    of comparators or of values needs: in the filter, the query and the switch
    for the check at most. -/
structure Same (sources sources' : Sources) (a b : Arguments) : Prop where
  get? : ∀ s, s ≠ .filter → b.get? s = a.get? s
  count : b.has .count = a.has .count
  file : ∀ path, a.get? .schema = some path ∨ a.get? .records = some path →
    sources'.file path = sources.file path
  standardInput : sources'.standardInput = sources.standardInput

namespace Same

variable {sources' : Sources} {b : Arguments}

theorem readDocument_eq (h : Same sources sources' a b) (exhausted : Bool) {path : String}
    (hpath : a.get? .schema = some path ∨ a.get? .records = some path) :
    readDocument sources' exhausted path = readDocument sources exhausted path := by
  rw [readDocument, readDocument, h.file path hpath, h.standardInput]

theorem schemaStage_eq (h : Same sources sources' a b) :
    schemaStage sources' b = schemaStage sources a := by
  rw [schemaStage, schemaStage, h.get? .schema (by decide)]
  cases hpath : a.get? .schema with
  | none => rfl
  | some path => simp only [h.readDocument_eq false (.inl hpath)]

theorem recordsStage_eq (h : Same sources sources' a b) (named : Option Schema) :
    recordsStage sources' b named = recordsStage sources a named := by
  have hexhausted : exhausted b [.schema] = exhausted a [.schema] := by
    simp only [exhausted, List.any_cons, h.get? .schema (by decide)]
    rfl
  have hlayout : b.layout = a.layout := by
    rw [Arguments.layout, Arguments.layout, h.get? .input (by decide)]
  rw [recordsStage, recordsStage, h.get? .records (by decide), hexhausted, hlayout]
  cases hpath : a.get? .records with
  | none => rfl
  | some path => simp only [h.readDocument_eq _ (.inr hpath)]

/-- Lists of comparators and of values do not need the filter. -/
theorem perform_eq (h : Same sources sources' a b)
    (hlists : (a.get? .comparators).isSome ∨ (a.get? .values).isSome) :
    perform sources' b = perform sources a := by
  have hcomparators := h.get? .comparators (by decide)
  have hrecords := h.get? .records (by decide)
  have hvalues := h.get? .values (by decide)
  have hload : recordsStage sources' b = recordsStage sources a := funext h.recordsStage_eq
  cases hc : a.get? .comparators with
  | some property =>
    cases hr : a.get? .records with
    | none =>
      rw [perform_comparators (hcomparators.trans hc) (hrecords.trans hr),
        perform_comparators hc hr, h.schemaStage_eq]
    | some path =>
      rw [perform_comparatorsOfRecords (hcomparators.trans hc) (hrecords.trans hr),
        perform_comparatorsOfRecords hc hr, h.schemaStage_eq, hload]
  | none =>
    rw [hc] at hlists
    obtain ⟨property, hv⟩ := Option.isSome_iff_exists.1 (hlists.resolve_left Bool.false_ne_true)
    rw [perform_values (hcomparators.trans hc) (hvalues.trans hv), perform_values hc hv,
      h.schemaStage_eq, hload, h.count]

end Same

/-! ## Exit codes -/

theorem run_of_perform_eq_error {arguments : List String} {line : String}
    (h : Arguments.parse sources.environment arguments = .run a)
    (hperform : perform sources a = .error line) : run sources arguments = .failure line := by
  simp only [run, h, hperform]

theorem run_of_perform_eq_ok {arguments : List String} {outcome : Outcome}
    (h : Arguments.parse sources.environment arguments = .run a)
    (hperform : perform sources a = .ok outcome) : run sources arguments = outcome := by
  simp only [run, h, hperform]

/-- The outcome of a command line that is accepted. The exit code is 2 if one of
    the stages of the run fails, and only then; the first such stage decides on
    the error, and nothing is put out. Otherwise the exit code says whether a
    list of values or of records has something in it. Lists of comparators and
    of values do not depend on the filter, the query and the switch for the
    check. -/
theorem exit_run_and_run_eq {arguments : List String}
    (h : Arguments.parse sources.environment arguments = .run a) :
    ((run sources arguments).exit = 2 ↔ ∃ line, FailsFirst sources a a.stages line) ∧
      (∀ line, FailsFirst sources a a.stages line →
        run sources arguments = ⟨2, "", line ++ "\n"⟩) ∧
      ((¬∃ line, FailsFirst sources a a.stages line) →
        Succeeds sources a (run sources arguments)) ∧
      ∀ (sources' : Sources) (arguments' : List String) (b : Arguments),
        Arguments.parse sources'.environment arguments' = .run b → Same sources sources' a b →
        (a.get? .comparators).isSome ∨ (a.get? .values).isSome →
        run sources' arguments' = run sources arguments := by
  have hfails {line : String} (hfirst : FailsFirst sources a a.stages line) :
      run sources arguments = .failure line :=
    run_of_perform_eq_error h (perform_eq_error_iff.2 hfirst)
  have hsucceeds (hnone : ¬∃ line, FailsFirst sources a a.stages line) :
      Succeeds sources a (run sources arguments) := by
    cases hperform : perform sources a with
    | error line => exact absurd ⟨line, perform_eq_error_iff.1 hperform⟩ hnone
    | ok outcome =>
      rw [run_of_perform_eq_ok h hperform]
      exact (perform_eq_ok_iff.1 hperform).succeeds
  refine ⟨⟨fun hexit => ?_, fun ⟨line, hfirst⟩ => ?_⟩, fun line hfirst => hfails hfirst,
    hsucceeds, fun sources' arguments' b h' hsame hlists => ?_⟩
  · by_contra hnone
    exact (hsucceeds hnone).exit_ne_two hexit
  · rw [hfails hfirst]
    rfl
  · simp only [run, h, h', hsame.perform_eq hlists]

/-- Two books, one of them without a title, and no other file. -/
def shelf : Sources where
  file path := if path = "books.json" then
      .ok "[\x7b\"id\": \"a\", \"title\": \"Emma\"\x7d, \x7b\"id\": \"b\"\x7d]"
    else .error "No such file or directory (os error 2)"
  standardInput := .ok ""
  environment _ := none

/-- The titles, with a filter that is not there. -/
def titles : Arguments where
  settings := [(.records, "books.json"), (.values, "title"), (.filter, "gone.json")]
  switches := []
  query := none

/-- The titles, with a query about a property that books do not have. -/
def titlesByQuery : Arguments where
  settings := [(.records, "books.json"), (.values, "title")]
  switches := [.lenient]
  query := some "pages > 3"

/-- The books that a filter keeps, which is not there. -/
def filtered : Arguments where
  settings := [(.records, "books.json"), (.filter, "gone.json")]
  switches := []
  query := none

/-- The line about the filter that is not there. -/
def noFilter : String :=
  "Filter error: Failed to load filter: gone.json: I/O error: No such file or directory " ++
    "(os error 2): No such file or directory (os error 2)"

theorem exit_run_and_run_eq_shelf :
    Arguments.parse shelf.environment
        ["--records", "books.json", "--values", "title", "--filter", "gone.json"] = .run titles ∧
      Same shelf shelf titles titlesByQuery ∧
      run shelf ["--records", "books.json", "--values", "title", "--filter", "gone.json"] =
        ⟨0, "Emma\n", ""⟩ ∧
      Succeeds shelf titles ⟨0, "Emma\n", ""⟩ ∧
      run shelf ["--records=books.json", "--values=title", "--lenient", "pages > 3"] =
        ⟨0, "Emma\n", ""⟩ ∧
      FailsFirst shelf filtered filtered.stages noFilter ∧
      run shelf ["--records", "books.json", "--filter", "gone.json"] =
        ⟨2, "", noFilter ++ "\n"⟩ := by
  have hparse : Arguments.parse shelf.environment
      ["--records", "books.json", "--values", "title", "--filter", "gone.json"] =
        .run titles := by decide +kernel
  have hrun : run shelf
      ["--records", "books.json", "--values", "title", "--filter", "gone.json"] =
        ⟨0, "Emma\n", ""⟩ := by decide +kernel
  have hsame : Same shelf shelf titles titlesByQuery := {
    get? := fun s hs => by cases s <;> first | rfl | exact absurd rfl hs
    count := rfl
    file := fun _ _ => rfl
    standardInput := rfl }
  have hfails : FailsFirst shelf filtered filtered.stages noFilter :=
    perform_eq_error_iff.1 (by decide +kernel)
  obtain ⟨hexit, _, hsucceeds, hindependent⟩ := exit_run_and_run_eq hparse
  rw [hrun] at hexit hsucceeds hindependent
  refine ⟨hparse, hsame, hrun, hsucceeds fun hline => absurd (hexit.2 hline) (by decide),
    hindependent shelf _ _ (by decide +kernel) hsame (.inr rfl), hfails, ?_⟩
  exact (exit_run_and_run_eq (by decide +kernel)).2.1 noFilter hfails

end Sift.Command
